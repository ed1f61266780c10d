import ChatRoom.Proof.Frames

/-! # The registry of online users -/

namespace ChatRoom

open Interleaving

variable {username : Bytes}

/-! ### What a step does to the registry -/

namespace Shared

variable {s : Shared}

def KeysOnce (s : Shared) : Prop := (s.onlineUsers.map Prod.fst).Nodup

theorem findOnline_of_mem (hkeys : s.KeysOnce) {conn : ConnId}
    (hentry : (username, conn) ∈ s.onlineUsers) (hup : s.connected conn = true) :
    s.findOnline username = some conn := by
  have hfind : s.onlineUsers.find? (fun entry => entry.1 = username) = some (username, conn) := by
    cases hfound : s.onlineUsers.find? fun entry => entry.1 = username with
    | none =>
      have hnone := List.find?_eq_none.mp hfound _ hentry
      simp at hnone
    | some entry =>
      have hname : entry.1 = username := by simpa using List.find?_some hfound
      have hmem := List.mem_of_find?_eq_some hfound
      rw [List.inj_on_of_nodup_map hkeys hmem hentry hname]
  rw [findOnline, hfind]
  exact if_pos hup

theorem mem_of_findOnline {conn : ConnId} (hfound : s.findOnline username = some conn) :
    (username, conn) ∈ s.onlineUsers ∧ s.connected conn = true := by
  unfold findOnline at hfound
  split at hfound
  · rename_i entry hentry
    obtain ⟨hup, hconn⟩ := Option.ite_none_right_eq_some.mp hfound
    cases hconn
    have hname : entry.1 = username := by simpa using List.find?_some hentry
    exact ⟨hname ▸ List.mem_of_find?_eq_some hentry, hup⟩
  · cases hfound

theorem keysOnce_filter (hkeys : s.KeysOnce) (keep : Bytes × ConnId → Bool) :
    ((s.onlineUsers.filter keep).map Prod.fst).Nodup :=
  hkeys.sublist (List.filter_sublist.map _)

end Shared

section Exec

variable {crypto : Crypto} {conn : ConnId} {action : Act} {choice : Choice} {s s' : Shared}
  {result : action.Result}

/-- A step changes the phase of its own connection only, enters nobody but itself, and removes no
entry of another connection that is up. -/
structure RollStep (conn : ConnId) (action : Act) (s s' : Shared) : Prop where
  keys : s'.KeysOnce
  phase : ∀ other, (other ≠ conn ∨ ∀ phase, action ≠ .setPhase phase) →
    s'.phase other = s.phase other
  entry : ∀ username other, (username, other) ∈ s.onlineUsers → s.connected other = true →
    (other ≠ conn ∨ ∀ name, action ≠ .removeOnline name) → (username, other) ∈ s'.onlineUsers
  old : ∀ username other, (username, other) ∈ s'.onlineUsers →
    (username, other) ∈ s.onlineUsers ∨ other = conn ∧ action = .addOnline username

theorem RollStep.of_roll (hkeys : s.KeysOnce) (hroll : s'.roll = s.roll) :
    RollStep conn action s s' := by
  obtain ⟨hphase, husers⟩ := Prod.mk.inj hroll
  refine ⟨?_, fun other _ => congrFun hphase other, fun username other hentry _ _ => ?_,
    fun username other hentry => .inl ?_⟩
  · rw [Shared.KeysOnce, husers]
    exact hkeys
  · rw [husers]
    exact hentry
  · rw [husers] at hentry
    exact hentry

theorem RollStep.of_filter {keep : Bytes × ConnId → Bool} (hkeys : s.KeysOnce)
    (hphase : s'.phase = s.phase) (husers : s'.onlineUsers = s.onlineUsers.filter keep)
    (hkeep : ∀ username other, (username, other) ∈ s.onlineUsers → s.connected other = true →
      (other ≠ conn ∨ ∀ name, action ≠ .removeOnline name) → keep (username, other) = true) :
    RollStep conn action s s' := by
  refine ⟨?_, fun other _ => congrFun hphase other, fun username other hentry hup hstays => ?_,
    fun username other hentry => .inl ?_⟩
  · rw [Shared.KeysOnce, husers]
    exact Shared.keysOnce_filter hkeys keep
  · rw [husers]
    exact List.mem_filter.mpr ⟨hentry, hkeep username other hentry hup hstays⟩
  · rw [husers] at hentry
    exact (List.mem_filter.mp hentry).1

theorem RollStep.of_exec (hkeys : s.KeysOnce)
    (hexec : exec crypto conn action choice s = some (result, s')) : RollStep conn action s s' := by
  have hfound : ∀ {username name other}, s.findOnline name = none →
      (username, other) ∈ s.onlineUsers → s.connected other = true → username ≠ name := by
    rintro username name other hnone hentry hup rfl
    rw [Shared.findOnline_of_mem hkeys hentry hup] at hnone
    cases hnone
  cases henrols : action.enrols with
  | false => exact .of_roll hkeys ((execFrame_of_exec hexec).roll henrols)
  | true =>
    cases action with
    | setPhase phase =>
      cases choice <;> cases hexec
      refine ⟨hkeys, fun other hother => ?_, fun _ _ hentry _ _ => hentry,
        fun _ _ hentry => .inl hentry⟩
      exact Function.update_of_ne (hother.resolve_right fun hall => hall phase rfl) _ _
    | addOnline name =>
      cases choice with
      | proceed =>
        have hadd : s.addOnline conn name = (result, s') := Option.some.inj hexec
        unfold Shared.addOnline at hadd
        split at hadd
        · cases hadd
          exact .of_roll hkeys rfl
        · rename_i hnone
          cases hadd
          refine ⟨?_, fun _ _ => rfl, fun username other hentry hup _ => ?_,
            fun username other hentry => ?_⟩
          · rw [Shared.KeysOnce, List.map_append]
            refine List.nodup_append.mpr ⟨Shared.keysOnce_filter hkeys _,
              List.nodup_singleton _, ?_⟩
            rintro key hkey _ hnew rfl
            obtain ⟨entry, hentry, rfl⟩ := List.mem_map.mp hkey
            have hname : entry.1 = name := List.mem_singleton.mp hnew
            exact of_decide_eq_true (List.mem_filter.mp hentry).2 hname
          · exact List.mem_append_left _ (List.mem_filter.mpr
              ⟨hentry, decide_eq_true (hfound hnone hentry hup)⟩)
          · rcases List.mem_append.mp hentry with hold | hnew
            · exact .inl (List.mem_filter.mp hold).1
            · obtain ⟨rfl, rfl⟩ := Prod.mk.inj (List.mem_singleton.mp hnew)
              exact .inr ⟨rfl, rfl⟩
      | _ => cases hexec
    | removeOnline name =>
      cases choice <;> cases hexec
      refine .of_filter hkeys rfl rfl fun username other _ _ hstays => decide_eq_true ?_
      rintro ⟨rfl, rfl⟩
      exact hstays.elim (fun hne => hne rfl) fun hall => hall _ rfl
    | findOnline name =>
      cases choice <;> simp only [exec] at hexec <;> try cases hexec
      split at hexec
      · cases hexec
        exact .of_roll hkeys rfl
      · rename_i hnone
        cases hexec
        refine .of_filter hkeys rfl rfl fun username other hentry hup _ => ?_
        exact decide_eq_true (hfound hnone hentry hup)
    | onlineConnections | onlineUsernames =>
      cases choice <;> cases hexec
      exact .of_filter hkeys rfl rfl fun _ _ _ hup _ => hup
    | _ => cases henrols

theorem old_of_addOnline
    (hexec : exec crypto conn (.addOnline username) choice s = some (false, s')) : s' = s := by
  cases choice with
  | proceed =>
    have hadd : s.addOnline conn username = (false, s') := Option.some.inj hexec
    unfold Shared.addOnline at hadd
    split at hadd <;> cases hadd
    rfl
  | _ => cases hexec

theorem entry_of_addOnline
    (hexec : exec crypto conn (.addOnline username) choice s = some (true, s')) :
    (username, conn) ∈ s'.onlineUsers := by
  cases choice with
  | proceed =>
    have hadd : s.addOnline conn username = (true, s') := Option.some.inj hexec
    unfold Shared.addOnline at hadd
    split at hadd <;> cases hadd
    exact List.mem_append_right _ (List.mem_singleton_self _)
  | _ => cases hexec

end Exec

/-! ### Progress -/

/-- What the layer reads of the progress of a handler. -/
def Progress.standing (st : Progress) : Task × (Bool × Bytes) × Bool × Option Bytes × Bool :=
  (st.task, (st.core.loggedIn, st.core.username), st.registered, st.joined, st.down)

theorem Progress.standing_after (st : Progress) {action : Act} (result : action.Result)
    (hassign : ∀ a, action ≠ .assign a) (hphase : ∀ phase, action ≠ .setPhase phase)
    (hadd : ∀ username, action ≠ .addOnline username)
    (hremove : ∀ username, action ≠ .removeOnline username) :
    (st.after action result).standing = st.standing := by
  cases action with
  | assign a => exact absurd rfl (hassign a)
  | setPhase phase => exact absurd rfl (hphase phase)
  | addOnline username => exact absurd rfl (hadd username)
  | removeOnline username => exact absurd rfl (hremove username)
  | query | update => cases result <;> rfl
  | lock mutex | unlock mutex => cases mutex <;> rfl
  | loadGeneration policy | bumpGeneration policy => cases policy <;> rfl
  | beginOrResumeUpload | finalizeUpload => cases result <;> rfl
  | redis call =>
    obtain ⟨claimed, hcalled⟩ := st.called_eq call result
    rw [Progress.after, hcalled]
    rfl
  | findOnline username =>
    cases result with
    | none => rfl
    | some target =>
      show (st.met username target).standing = st.standing
      unfold met
      split <;> rfl
  | _ => rfl

/-! ### The layer -/

def Shared.leaving (s : Shared) (conn : ConnId) : Bool := (s.running conn).any Task.leaves

theorem Shared.leaving_of_idle {s : Shared} {conn : ConnId} (hidle : s.running conn = none) :
    s.leaving conn = false := by
  rw [leaving, hidle]
  rfl

/-- **The registry is right.** A session that is logged in on a connection that is up is entered under
its user, unless its handler is just leaving; a connection without a handler is entered under the user
of its session only. -/
structure OnlineRight (s : Shared) : Prop where
  keys : s.KeysOnce
  online : ∀ conn, s.leaving conn = false → s.connected conn = true →
    (s.sessions conn).loggedIn = true → ((s.sessions conn).username, conn) ∈ s.onlineUsers
  fresh : ∀ conn, s.running conn = none → s.phase conn = .fresh →
    (s.sessions conn).loggedIn = false
  entered : ∀ username conn, s.running conn = none → (username, conn) ∈ s.onlineUsers →
    (s.sessions conn).loggedIn = true ∧ (s.sessions conn).username = username

/-- The phase and the entries of a connection, which other tasks leave alone. -/
structure OnlineRely (conn : ConnId) (s s' : Shared) : Prop where
  phase : s'.phase conn = s.phase conn
  entry : ∀ username, (username, conn) ∈ s.onlineUsers → s.connected conn = true →
    (username, conn) ∈ s'.onlineUsers
  old : ∀ username, (username, conn) ∈ s'.onlineUsers → (username, conn) ∈ s.onlineUsers

/-- What a handler knows about the entries of its connection: `registered` and `joined` say whether the
user of the session, or the one who logs in, is entered. -/
structure OnlineTracks (conn : ConnId) (st : Progress) (s : Shared) : Prop where
  online : st.registered = true → s.connected conn = true → st.core.loggedIn = true →
    (st.core.username, conn) ∈ s.onlineUsers
  joined : ∀ username, st.joined = some username → st.task.Runs .login →
    s.connected conn = true → (username, conn) ∈ s.onlineUsers
  down : st.down = true → s.connected conn = false
  fresh : st.task.request = .connect ∨ s.phase conn = .fresh → st.core.loggedIn = false
  login : st.task.Runs .login → s.phase conn ≠ .fresh
  leaving : st.registered = false → st.down = true ∨ st.task.leaves = true
  entered : ∀ username, (username, conn) ∈ s.onlineUsers → st.joined = some username ∨
    st.core.loggedIn = true ∧ st.registered = true ∧ st.core.username = username

theorem Shared.connected_congr {s s' : Shared} {conn : ConnId} (hphase : s'.phase conn = s.phase conn) :
    s'.connected conn = s.connected conn := by
  rw [Shared.connected, hphase]
  rfl

theorem RollStep.rely {conn other : ConnId} {action : Act} {s s' : Shared}
    (hstep : RollStep conn action s s') (hne : other ≠ conn) : OnlineRely other s s' where
  phase := hstep.phase other (.inl hne)
  entry := fun username hentry hup => hstep.entry username other hentry hup (.inl hne)
  old := fun username hentry =>
    (hstep.old username other hentry).resolve_right fun hnew => hne hnew.1

theorem Tracks.user {conn : ConnId} {st : Progress} {s : Shared} (htracks : Tracks conn st s.view) :
    (s.sessions conn).loggedIn = st.core.loggedIn ∧
      (s.sessions conn).username = st.core.username := by
  have hcore : (s.sessions conn).core = st.core := htracks.core
  rw [← ClientSession.core_loggedIn, ← ClientSession.core_username, hcore]
  exact ⟨rfl, rfl⟩

namespace OnlineTracks

variable {crypto : Crypto} {conn : ConnId} {action : Act} {choice : Choice} {st st' : Progress}
  {s s' : Shared} {result : action.Result}

section

variable (htracks : OnlineTracks conn st s)
include htracks

theorem of_rely (hrely : OnlineRely conn s s') (hstanding : st'.standing = st.standing) :
    OnlineTracks conn st' s' := by
  simp only [Progress.standing, Prod.mk.injEq] at hstanding
  obtain ⟨htask, ⟨hlogged, husername⟩, hregistered, hjoined, hdown⟩ := hstanding
  have hup := Shared.connected_congr hrely.phase
  constructor
  · rw [hregistered, hup, hlogged, husername]
    exact fun hregistered hup hlogged =>
      hrely.entry _ (htracks.online hregistered hup hlogged) hup
  · rw [hjoined, htask, hup]
    exact fun username hjoined hruns hup => hrely.entry _ (htracks.joined _ hjoined hruns hup) hup
  · rw [hdown, hup]
    exact htracks.down
  · rw [htask, hrely.phase, hlogged]
    exact htracks.fresh
  · rw [htask, hrely.phase]
    exact htracks.login
  · rw [hregistered, hdown, htask]
    exact htracks.leaving
  · rw [hjoined, hlogged, hregistered, husername]
    exact fun username hentry => htracks.entered username (hrely.old username hentry)

theorem of_quiet (hstep : RollStep conn action s s') (hassign : ∀ a, action ≠ .assign a)
    (hphase : ∀ phase, action ≠ .setPhase phase) (hadd : ∀ username, action ≠ .addOnline username)
    (hremove : ∀ username, action ≠ .removeOnline username) :
    OnlineTracks conn (st.after action result) s' := by
  refine htracks.of_rely ⟨hstep.phase conn (.inr hphase), fun username hentry hup => ?_,
    fun username hentry => ?_⟩ (st.standing_after result hassign hphase hadd hremove)
  · exact hstep.entry username conn hentry hup (.inr hremove)
  · exact (hstep.old username conn hentry).resolve_right fun hnew => hadd username hnew.2

theorem setPhase {phase : ConnPhase} {result : Unit} (hallowed : st.Allowed (.setPhase phase))
    (hexec : exec crypto conn (.setPhase phase) choice s = some (result, s')) :
    OnlineTracks conn (st.after (.setPhase phase) result) s' := by
  obtain ⟨hfresh, hconnect⟩ := hallowed
  have hphase : s'.phase conn = phase := by
    cases choice <;> cases hexec
    exact Function.update_self _ _ _
  have hup : s'.connected conn = true → phase = .connected := fun hconnected =>
    hphase.symm.trans (of_decide_eq_true hconnected)
  constructor
  · intro _ hconnected hlogged
    have hout := htracks.fresh (.inl (hconnect (hup hconnected)).1)
    exact absurd (hout.symm.trans hlogged) Bool.false_ne_true
  · rintro username - ⟨arguments, hrequest⟩ hconnected
    cases (hconnect (hup hconnected)).1.symm.trans hrequest
  · intro hdown
    refine Bool.eq_false_iff.mpr fun hconnected => ?_
    have hphase := hup hconnected
    subst hphase
    have hdown : (st.down || false) = true := hdown
    rw [(hconnect rfl).2] at hdown
    cases hdown
  · rintro (hrequest | hphase')
    · exact htracks.fresh (.inl hrequest)
    · exact absurd (hphase.symm.trans hphase') hfresh
  · exact fun _ hphase' => hfresh (hphase.symm.trans hphase')
  · intro hunregistered
    refine (htracks.leaving hunregistered).imp_left fun hdown => ?_
    show (st.down || _) = true
    rw [hdown, Bool.true_or]
  · cases choice <;> cases hexec
    exact htracks.entered

theorem addOnline {added : Bool} (hallowed : st.Allowed (.addOnline username))
    (hstep : RollStep conn (.addOnline username) s s')
    (hexec : exec crypto conn (.addOnline username) choice s = some (added, s')) :
    OnlineTracks conn (st.after (.addOnline username) added) s' := by
  cases added with
  | false =>
    rw [old_of_addOnline hexec]
    exact htracks
  | true =>
    have hphase := hstep.phase conn (.inr (by simp))
    have hup := Shared.connected_congr hphase
    constructor
    · intro hregistered hconnected hlogged
      rw [hup] at hconnected
      exact hstep.entry _ conn (htracks.online hregistered hconnected hlogged) hconnected
        (.inr (by simp))
    · rintro name ⟨rfl⟩ - -
      exact entry_of_addOnline hexec
    · rw [hup]
      exact htracks.down
    · rw [hphase]
      exact htracks.fresh
    · rw [hphase]
      exact htracks.login
    · exact htracks.leaving
    · intro name hentry
      rcases hstep.old name conn hentry with hold | ⟨-, hnew⟩
      · exact .inr ((htracks.entered name hold).resolve_left fun hjoined =>
          nomatch hallowed.symm.trans hjoined)
      · exact .inl (congrArg some (Act.addOnline.inj hnew))

theorem removeOnline {result : Unit} (hallowed : st.Allowed (.removeOnline username))
    (hexec : exec crypto conn (.removeOnline username) choice s = some (result, s')) :
    OnlineTracks conn (st.after (.removeOnline username) result) s' := by
  cases choice <;> cases hexec
  obtain ⟨hleaving, henters⟩ := hallowed
  refine { htracks with online := ?_, joined := nofun, leaving := ?_, entered := ?_ }
  · intro hregistered hconnected hlogged
    have hdown : (!st.core.loggedIn || st.down) = true := hregistered
    rw [show st.core.loggedIn = true from hlogged] at hdown
    have hnot := htracks.down hdown
    rw [show s.connected conn = true from hconnected] at hnot
    cases hnot
  · intro hunregistered
    have hlogged : (!st.core.loggedIn || st.down) = false := hunregistered
    rw [Bool.or_eq_false_iff, Bool.not_eq_false'] at hlogged
    exact hleaving.resolve_left fun hout => Bool.false_ne_true (hout.symm.trans hlogged.1)
  · -- the only entry that the connection can have had is gone
    intro name hentry
    obtain ⟨hold, hkept⟩ := List.mem_filter.mp hentry
    have hother : name ≠ username := by
      rintro rfl
      simp at hkept
    refine absurd ?_ hother
    rcases henters with ⟨hjoined, hout⟩ | ⟨hnone, rfl⟩
    · rcases htracks.entered name hold with hname | ⟨hlogged, -⟩
      · exact Option.some.inj (hname.symm.trans hjoined)
      · cases hout.symm.trans hlogged
    · rcases htracks.entered name hold with hname | ⟨-, -, hname⟩
      · cases hnone.symm.trans hname
      · exact hname.symm

theorem assign {a : Assign} {result : Unit} (hmay : st.MayAssign a)
    (hexec : exec crypto conn (.assign a) choice s = some (result, s')) :
    OnlineTracks conn (st.after (.assign a) result) s' := by
  have hsame : ∀ {st' : Progress}, st'.standing = st.standing → OnlineTracks conn st' s' := by
    intro st' hstanding
    cases choice <;> cases hexec
    exact htracks.of_rely ⟨rfl, fun _ hentry _ => hentry, fun _ hentry => hentry⟩ hstanding
  have hkept := hsame rfl
  have hleft : st.registered = false → ∀ {loggedIn registered : Bool} {name : Bytes} (username : Bytes),
      (username, conn) ∈ s'.onlineUsers →
        st.joined = some username ∨ loggedIn = true ∧ registered = true ∧ name = username :=
    fun hgone _ _ _ username hentry => .inl ((hkept.entered username hentry).resolve_right
      fun hlogged => Bool.false_ne_true (hgone.symm.trans hlogged.2.1))
  cases a with
  | login username =>
    obtain ⟨hout, -, -, hjoined, -, hruns⟩ := hmay
    refine { hkept with
      online := fun _ hup _ => ?_, joined := nofun, fresh := ?_, leaving := nofun, entered := ?_ }
    · exact hkept.joined username hjoined hruns hup
    · obtain ⟨arguments, hrequest⟩ := hruns
      rintro (hconnect | hfresh)
      · cases hrequest.symm.trans hconnect
      · exact absurd hfresh (hkept.login ⟨arguments, hrequest⟩)
    · intro name hentry
      rcases hkept.entered name hentry with hname | ⟨hlogged, -⟩
      · exact .inr ⟨rfl, rfl, Option.some.inj (hjoined.symm.trans hname)⟩
      · exact absurd (hout.symm.trans hlogged) Bool.false_ne_true
  | logout =>
    obtain ⟨-, -, -, hgone⟩ := hmay
    exact { hkept with
      online := nofun, fresh := fun _ => rfl, leaving := nofun, entered := hleft hgone }
  | accountDeleted =>
    obtain ⟨-, -, -, -, -, -, hgone⟩ := hmay
    exact { hkept with
      online := nofun, fresh := fun _ => rfl, leaving := nofun, entered := hleft hgone }
  | _ => exact hsame rfl

theorem after (hallowed : st.Allowed action) (hstep : RollStep conn action s s')
    (hexec : exec crypto conn action choice s = some (result, s')) :
    OnlineTracks conn (st.after action result) s' := by
  cases action with
  | setPhase phase => exact htracks.setPhase hallowed hexec
  | addOnline username => exact htracks.addOnline hallowed hstep hexec
  | removeOnline username => exact htracks.removeOnline hallowed hexec
  | assign a => exact htracks.assign hallowed hexec
  | _ => exact htracks.of_quiet hstep (by simp) (by simp) (by simp) (by simp)

end

theorem stays (honline : OnlineTracks conn st s) (htracks : Tracks conn st s.view)
    (hleaving : s.leaving conn = false) (hup : s.connected conn = true) : st.registered = true := by
  have hstays : st.task.leaves = false := by
    rw [Shared.leaving, show s.running conn = some st.task from htracks.running] at hleaving
    exact hleaving
  refine Bool.not_eq_false _ ▸ fun hunregistered => ?_
  rcases honline.leaving hunregistered with hdown | hleaves
  · exact Bool.false_ne_true ((honline.down hdown).symm.trans hup)
  · exact Bool.false_ne_true (hstays.symm.trans hleaves)

theorem current (honline : OnlineTracks conn st s) (htracks : Tracks conn st s.view)
    (hleaving : s.leaving conn = false) (hup : s.connected conn = true)
    (hlogged : (s.sessions conn).loggedIn = true) :
    ((s.sessions conn).username, conn) ∈ s.onlineUsers := by
  obtain ⟨hloggedIn, husername⟩ := htracks.user
  rw [hloggedIn] at hlogged
  rw [husername]
  exact honline.online (honline.stays htracks hleaving hup) hup hlogged

end OnlineTracks

def onlineLayer : Layer where
  inv := OnlineRight
  rely := OnlineRely
  cond := fun _ _ _ _ => True
  shown := fun _ _ _ _ _ => True
  tracks := OnlineTracks

theorem onlineRight_initial (db : Database) (store : Store) : OnlineRight { db, store } where
  keys := List.nodup_nil
  online := by
    intro conn _ hup
    cases hup
  fresh := fun _ _ _ => rfl
  entered := fun _ _ _ hentry => nomatch hentry

theorem Untouched.user {conn : ConnId} {s s' : Shared} (huntouched : Untouched conn s.view s'.view) :
    (s'.sessions conn).loggedIn = (s.sessions conn).loggedIn ∧
      (s'.sessions conn).username = (s.sessions conn).username := by
  have hlogged : (s'.view.core conn).loggedIn = (s.view.core conn).loggedIn := by
    rw [huntouched.core]
  have husername : (s'.view.core conn).username = (s.view.core conn).username := by
    rw [huntouched.core]
  exact ⟨hlogged, husername⟩

theorem OnlineRight.of_rely {conn : ConnId} {s s' : Shared} (hright : OnlineRight s)
    (hkeys : s'.KeysOnce) (hothers : ∀ other, other ≠ conn →
      Untouched other s.view s'.view ∧ OnlineRely other s s')
    (honline : s'.leaving conn = false → s'.connected conn = true →
      (s'.sessions conn).loggedIn = true → ((s'.sessions conn).username, conn) ∈ s'.onlineUsers)
    (hfresh : s'.running conn = none → s'.phase conn = .fresh →
      (s'.sessions conn).loggedIn = false)
    (hentered : ∀ username, s'.running conn = none → (username, conn) ∈ s'.onlineUsers →
      (s'.sessions conn).loggedIn = true ∧ (s'.sessions conn).username = username) :
    OnlineRight s' := by
  refine ⟨hkeys, fun other => ?_, fun other => ?_, fun username other => ?_⟩
  · by_cases heq : other = conn
    · rw [heq]
      exact honline
    · obtain ⟨huntouched, hrely⟩ := hothers other heq
      have hrunning : s'.running other = s.running other := huntouched.running
      rw [Shared.leaving, hrunning, Shared.connected_congr hrely.phase, huntouched.user.1,
        huntouched.user.2]
      exact fun hstays hup hlogged =>
        hrely.entry _ (hright.online other hstays hup hlogged) hup
  · by_cases heq : other = conn
    · rw [heq]
      exact hfresh
    · obtain ⟨huntouched, hrely⟩ := hothers other heq
      have hrunning : s'.running other = s.running other := huntouched.running
      rw [hrunning, hrely.phase, huntouched.user.1]
      exact hright.fresh other
  · by_cases heq : other = conn
    · rw [heq]
      exact hentered username
    · obtain ⟨huntouched, hrely⟩ := hothers other heq
      have hrunning : s'.running other = s.running other := huntouched.running
      rw [hrunning, huntouched.user.1, huntouched.user.2]
      exact fun hidle hentry => hright.entered username other hidle (hrely.old username hentry)

/-- What a handler finds when it starts. -/
theorem onlineTracks_start {conn : ConnId} {task : Task} {s : Shared} (hright : OnlineRight s)
    (hidle : s.running conn = none) (harrives : Arrives conn task s) :
    OnlineTracks conn (task.start crypto) s := by
  obtain ⟨-, hsession, hadmitted⟩ := harrives
  have hcore : (task.start crypto).core = (s.sessions conn).core := by
    rw [← hsession]
    rfl
  constructor
  · rw [hcore]
    exact fun _ => hright.online conn (Shared.leaving_of_idle hidle)
  · nofun
  · nofun
  · rw [hcore]
    intro hfresh
    refine hright.fresh conn hidle (hfresh.elim (fun hrequest => ?_) id)
    rw [show task.request = .connect from hrequest] at hadmitted
    exact of_decide_eq_true hadmitted
  · rintro ⟨arguments, hrequest⟩ hfresh
    rw [show task.request = .login arguments from hrequest] at hadmitted
    cases hfresh.symm.trans (of_decide_eq_true hadmitted : s.phase conn = .connected)
  · nofun
  · rw [hcore]
    intro username hentry
    obtain ⟨hlogged, hname⟩ := hright.entered username conn hidle hentry
    exact .inr ⟨hlogged, rfl, hname⟩

/-- Every handler keeps the roll. -/
theorem onlineLayer_sound (crypto : Crypto) : onlineLayer.Sound crypto where
  stable := fun _ hrely _ htracks => htracks.of_rely hrely rfl
  step := by
    intro conn st action choice result s s' hallowed hbase hright htracks honline _ hexec
    have heffect := Effect.of_exec hallowed hexec
    have hstep := RollStep.of_exec hright.keys hexec
    have htracks' := heffect.tracks hbase htracks
    have honline' := honline.after hallowed hstep hexec
    have hbusy : s'.running conn ≠ none := by
      rw [show s'.running conn = some (st.after action result).task from htracks'.running]
      exact Option.some_ne_none _
    refine ⟨?_, fun other hne => hstep.rely hne, trivial, honline'⟩
    exact hright.of_rely hstep.keys (fun other hne => ⟨heffect.untouched hne, hstep.rely hne⟩)
      (honline'.current htracks') (fun hidle => absurd hidle hbusy) fun _ hidle => absurd hidle hbusy
  start := by
    intro conn task s s' hidle hright hstarted
    have hview := hstarted.view
    obtain ⟨harrives, loopCalls, rfl, -⟩ := hstarted
    have hrely : ∀ other, OnlineRely other s { s.start conn task with loopCalls } :=
      fun _ => ⟨rfl, fun _ hentry _ => hentry, fun _ hentry => hentry⟩
    have hbusy : Function.update s.running conn (some task) conn ≠ none := by
      rw [Function.update_self]
      exact Option.some_ne_none _
    have hstays : s.leaving conn = false := Shared.leaving_of_idle hidle.running
    refine ⟨?_, fun other _ => hrely other, ?_⟩
    · refine hright.of_rely hright.keys (fun other hne => ⟨?_, hrely other⟩)
        (fun _ => hright.online conn hstays) (fun hidle => absurd hidle hbusy)
        fun _ hidle => absurd hidle hbusy
      rw [hview]
      exact untouched_setRunning hne
    · exact (onlineTracks_start hright hidle.running harrives).of_rely (hrely conn) rfl
  finish := by
    intro conn st choice s hfree hright htracks honline
    have hrely : ∀ other, OnlineRely other s (s.finished conn) :=
      fun _ => ⟨rfl, fun _ hentry _ => hentry, fun _ hentry => hentry⟩
    obtain ⟨hlogged, husername⟩ := htracks.user
    refine ⟨?_, fun other _ => hrely other, trivial⟩
    refine hright.of_rely hright.keys
      (fun other hne => ⟨untouched_setRunning hne, hrely other⟩) (fun _ => ?_) (fun _ => ?_)
      fun username _ hentry => ?_
    · show s.connected conn = true → (s.sessions conn).loggedIn = true →
        ((s.sessions conn).username, conn) ∈ s.onlineUsers
      rw [hlogged, husername]
      exact honline.online hfree.registered
    · show s.phase conn = .fresh → (s.sessions conn).loggedIn = false
      rw [hlogged]
      exact fun hfresh => honline.fresh (.inr hfresh)
    · show (s.sessions conn).loggedIn = true ∧ (s.sessions conn).username = username
      rw [hlogged, husername]
      have hentered := (honline.entered username hentry).resolve_left fun hjoined =>
        nomatch hfree.joined.symm.trans hjoined
      exact ⟨hentered.1, hentered.2.2⟩

end ChatRoom
