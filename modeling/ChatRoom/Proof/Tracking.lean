import ChatRoom.Proof.Steps

/-!
# Progress and state in step

`Tracks` relates what a handler has done to the shared state, `Untouched` is what the handlers of
other connections leave alone, and `Base` holds in every reachable state.
-/

namespace ChatRoom

open Interleaving

variable {s s' : Shared} {state : ServerConfiguration} {db : Database} {store : Store}
  {events : List ServerEvent} {task : Task}

/-- No cached generation is ahead of the current one, and that of a session without a login is
behind it. -/
structure Base (v : View) : Prop where
  directPos : 0 < v.directGeneration
  groupPos : 0 < v.groupGeneration
  privateLe : ∀ conn, (v.core conn).realtimePrivateGeneration ≤ v.directGeneration
  groupLe : ∀ conn, (v.core conn).realtimeGroupGeneration ≤ v.groupGeneration
  privateLt : ∀ conn, (v.core conn).loggedIn = false →
    (v.core conn).realtimePrivateGeneration < v.directGeneration
  groupLt : ∀ conn, (v.core conn).loggedIn = false →
    (v.core conn).realtimeGroupGeneration < v.groupGeneration

/-- How the progress of a handler describes the state. -/
structure Tracks (conn : ConnId) (st : Progress) (v : View) : Prop where
  running : v.running conn = some st.task
  core : v.core conn = st.core
  friend : v.friendMutex = some conn ↔ st.friend = true
  group : v.groupMutex = some conn ↔ st.group = true
  owedDirect : v.unpublishedDirect conn = st.owedDirect
  owedGroup : v.unpublishedGroup conn = st.owedGroup
  staleDirect : st.staleDirect = true → st.core.realtimePrivateGeneration < v.directGeneration
  staleGroup : st.staleGroup = true → st.core.realtimeGroupGeneration < v.groupGeneration
  seenDirect : ∀ generation, st.seenDirect = some generation → generation ≤ v.directGeneration
  seenGroup : ∀ generation, st.seenGroup = some generation → generation ≤ v.groupGeneration

/-- What no other connection changes. -/
structure Untouched (conn : ConnId) (v v' : View) : Prop where
  running : v'.running conn = v.running conn
  core : v'.core conn = v.core conn
  friend : v'.friendMutex = some conn ↔ v.friendMutex = some conn
  group : v'.groupMutex = some conn ↔ v.groupMutex = some conn
  unpublishedDirect : v'.unpublishedDirect conn = v.unpublishedDirect conn
  unpublishedGroup : v'.unpublishedGroup conn = v.unpublishedGroup conn
  directLe : v.directGeneration ≤ v'.directGeneration
  groupLe : v.groupGeneration ≤ v'.groupGeneration

theorem Untouched.refl (conn : ConnId) (v : View) : Untouched conn v v :=
  ⟨rfl, rfl, Iff.rfl, Iff.rfl, rfl, rfl, le_refl _, le_refl _⟩

theorem Tracks.untouched {conn : ConnId} {st : Progress} {v v' : View} (htracks : Tracks conn st v)
    (huntouched : Untouched conn v v') : Tracks conn st v' where
  running := huntouched.running.trans htracks.running
  core := huntouched.core.trans htracks.core
  friend := huntouched.friend.trans htracks.friend
  group := huntouched.group.trans htracks.group
  owedDirect := huntouched.unpublishedDirect.trans htracks.owedDirect
  owedGroup := huntouched.unpublishedGroup.trans htracks.owedGroup
  staleDirect := fun hstale => (htracks.staleDirect hstale).trans_le huntouched.directLe
  staleGroup := fun hstale => (htracks.staleGroup hstale).trans_le huntouched.groupLe
  seenDirect := fun _ hseen => (htracks.seenDirect _ hseen).trans huntouched.directLe
  seenGroup := fun _ hseen => (htracks.seenGroup _ hseen).trans huntouched.groupLe

/-! ### One step -/

namespace Effect

variable {conn : ConnId} {choice : Choice} {st st' : Progress} {v v' : View} {action : Act}

theorem untouched (heffect : Effect conn choice st v action st' v') {other : ConnId}
    (hne : other ≠ conn) : Untouched other v v' := by
  have hrefl := Untouched.refl other v
  cases heffect with
  | unseen | learned | refused | loadDirect | loadGroup => exact hrefl
  | committed hmay happly =>
    refine { hrefl with unpublishedDirect := ?_, unpublishedGroup := ?_ }
    · simp only [View.commit]
      split
      · rw [Function.update_of_ne hne]
      · rfl
    · simp only [View.commit]
      split
      · rw [Function.update_of_ne hne]
      · rfl
  | late => exact { hrefl with }
  | lockFriend hfree =>
    refine { hrefl with friend := ?_ }
    simp [hfree, Ne.symm hne]
  | lockGroup hfree =>
    refine { hrefl with group := ?_ }
    simp [hfree, Ne.symm hne]
  | unlockFriend hheld =>
    refine { hrefl with friend := ?_ }
    simp [hheld, Ne.symm hne]
  | unlockGroup hheld =>
    refine { hrefl with group := ?_ }
    simp [hheld, Ne.symm hne]
  | bumpDirect =>
    refine { hrefl with unpublishedDirect := ?_, directLe := ?_ }
    · exact Function.update_of_ne hne _ _
    · exact Nat.le_succ _
  | bumpGroup =>
    refine { hrefl with unpublishedGroup := ?_, groupLe := ?_ }
    · exact Function.update_of_ne hne _ _
    · exact Nat.le_succ _
  | assigned hmay => exact { hrefl with core := View.assign_core_of_ne v hne _ }

end Effect

theorem Tracks.commit {conn : ConnId} {st : Progress} {v : View} (htracks : Tracks conn st v)
    {update : Update} (result : update.Result) (db : Database) :
    Tracks conn (st.commit update result) (v.commit conn update result db) := by
  refine { htracks with owedDirect := ?_, owedGroup := ?_ }
  · simp only [View.commit, Progress.commit_owedDirect]
    split
    · exact Function.update_self _ _ _
    · exact htracks.owedDirect
  · simp only [View.commit, Progress.commit_owedGroup]
    split
    · exact Function.update_self _ _ _
    · exact htracks.owedGroup

theorem Tracks.assign_generations {conn : ConnId} {st : Progress} {v : View} {a : Assign}
    (hbase : Base v) (htracks : Tracks conn st v) (hmay : st.MayAssign a) :
    (st.core.assign a).realtimePrivateGeneration ≤ v.directGeneration ∧
      (st.core.assign a).realtimeGroupGeneration ≤ v.groupGeneration ∧
      ((st.core.assign a).loggedIn = false →
        (st.core.assign a).realtimePrivateGeneration < v.directGeneration) ∧
      ((st.core.assign a).loggedIn = false →
        (st.core.assign a).realtimeGroupGeneration < v.groupGeneration) := by
  have hprivateLe := hbase.privateLe conn
  have hgroupLe := hbase.groupLe conn
  have hprivateLt := hbase.privateLt conn
  have hgroupLt := hbase.groupLt conn
  rw [htracks.core] at hprivateLe hgroupLe hprivateLt hgroupLt
  have hlogged : st.core.loggedIn = true → ∀ {p : Prop}, st.core.loggedIn = false → p := by
    intro htrue p hfalse
    rw [htrue] at hfalse
    cases hfalse
  cases a with
  | login username => exact ⟨hprivateLe, hgroupLe, nofun, nofun⟩
  | logout =>
    exact ⟨Nat.zero_le _, Nat.zero_le _, fun _ => hbase.directPos, fun _ => hbase.groupPos⟩
  | accountDeleted =>
    exact ⟨hprivateLe, hgroupLe, fun _ => htracks.staleDirect hmay.1,
      fun _ => htracks.staleGroup hmay.2.1⟩
  | privateGeneration generation =>
    exact ⟨htracks.seenDirect _ hmay.2.1, hgroupLe, hlogged hmay.1, hgroupLt⟩
  | privateCache target generation =>
    exact ⟨htracks.seenDirect _ hmay.2.1, hgroupLe, hlogged hmay.1, hgroupLt⟩
  | enteredPrivate generation =>
    exact ⟨htracks.seenDirect _ hmay.2.1, Nat.zero_le _, hlogged hmay.1,
      fun _ => hbase.groupPos⟩
  | enteredGroup generation =>
    exact ⟨Nat.zero_le _, htracks.seenGroup _ hmay.2.1, fun _ => hbase.directPos,
      hlogged hmay.1⟩
  | groupCache name id recipients generation =>
    exact ⟨hprivateLe, htracks.seenGroup _ hmay.2.1, hprivateLt, hlogged hmay.1⟩
  | _ => exact ⟨hprivateLe, hgroupLe, hprivateLt, hgroupLt⟩

theorem Tracks.assign {conn : ConnId} {st : Progress} {v : View} {a : Assign} (hbase : Base v)
    (htracks : Tracks conn st v) : Tracks conn (st.afterAssign a) (v.assign conn a) := by
  refine { htracks with core := ?_, staleDirect := ?_, staleGroup := ?_ }
  · rw [View.assign_core_self, htracks.core]
    rfl
  · intro hstale
    cases a with
    | logout | enteredGroup => exact hbase.directPos
    | privateGeneration | privateCache | enteredPrivate => cases hstale
    | _ => exact htracks.staleDirect hstale
  · intro hstale
    cases a with
    | logout | enteredPrivate => exact hbase.groupPos
    | enteredGroup | groupCache => cases hstale
    | _ => exact htracks.staleGroup hstale

namespace Effect

variable {conn : ConnId} {choice : Choice} {st st' : Progress} {v v' : View} {action : Act}

theorem tracks (heffect : Effect conn choice st v action st' v') (hbase : Base v)
    (htracks : Tracks conn st v) : Tracks conn st' v' := by
  have hprivateLe := hbase.privateLe conn
  have hgroupLe := hbase.groupLe conn
  rw [htracks.core] at hprivateLe hgroupLe
  cases heffect with
  | unseen => exact { htracks with }
  | learned hfacts => exact { htracks with }
  | committed hmay happly => exact htracks.commit _ _
  | late | refused => exact { htracks with }
  | lockFriend hfree => exact { htracks with friend := by simp }
  | lockGroup hfree => exact { htracks with group := by simp }
  | unlockFriend hheld => exact { htracks with friend := by simp }
  | unlockGroup hheld => exact { htracks with group := by simp }
  | loadDirect =>
    refine { htracks with seenDirect := ?_ }
    rintro generation ⟨rfl⟩
    exact le_refl _
  | loadGroup =>
    refine { htracks with seenGroup := ?_ }
    rintro generation ⟨rfl⟩
    exact le_refl _
  | bumpDirect =>
    refine { htracks with owedDirect := ?_, staleDirect := ?_, seenDirect := ?_ }
    · exact Function.update_self _ _ _
    · exact fun _ => Nat.lt_succ_of_le hprivateLe
    · exact fun generation hseen => (htracks.seenDirect generation hseen).trans (Nat.le_succ _)
  | bumpGroup =>
    refine { htracks with owedGroup := ?_, staleGroup := ?_, seenGroup := ?_ }
    · exact Function.update_self _ _ _
    · exact fun _ => Nat.lt_succ_of_le hgroupLe
    · exact fun generation hseen => (htracks.seenGroup generation hseen).trans (Nat.le_succ _)
  | assigned hmay => exact htracks.assign hbase

theorem base (heffect : Effect conn choice st v action st' v') (hbase : Base v)
    (htracks : Tracks conn st v) : Base v' := by
  cases heffect with
  | unseen | learned | committed | late | refused | lockFriend | lockGroup | unlockFriend
  | unlockGroup | loadDirect | loadGroup => exact { hbase with }
  | bumpDirect =>
    exact { hbase with
      directPos := Nat.succ_pos _
      privateLe := fun other => (hbase.privateLe other).trans (Nat.le_succ _)
      privateLt := fun other _ => Nat.lt_succ_of_le (hbase.privateLe other) }
  | bumpGroup =>
    exact { hbase with
      groupPos := Nat.succ_pos _
      groupLe := fun other => (hbase.groupLe other).trans (Nat.le_succ _)
      groupLt := fun other _ => Nat.lt_succ_of_le (hbase.groupLe other) }
  | @assigned a hmay =>
    obtain ⟨hprivateLe, hgroupLe, hprivateLt, hgroupLt⟩ :=
      htracks.assign_generations hbase hmay
    have hcore : ∀ other, (v.assign conn a).core other = v.core other ∨
        (v.assign conn a).core other = (st.core.assign a).core := by
      intro other
      by_cases heq : other = conn
      · subst heq
        right
        rw [View.assign_core_self, htracks.core]
      · exact .inl (View.assign_core_of_ne v heq a)
    refine { hbase with privateLe := ?_, groupLe := ?_, privateLt := ?_, groupLt := ?_ }
    all_goals
      intro other
      rcases hcore other with hsame | hnew
      · rw [hsame]
        first
          | exact hbase.privateLe other
          | exact hbase.groupLe other
          | exact hbase.privateLt other
          | exact hbase.groupLt other
      · rw [hnew]
        assumption

end Effect

/-! ### Layers -/

structure Idle (conn : ConnId) (v : View) : Prop where
  friend : v.friendMutex ≠ some conn
  group : v.groupMutex ≠ some conn
  unpublishedDirect : v.unpublishedDirect conn = none
  unpublishedGroup : v.unpublishedGroup conn = none
  running : v.running conn = none

theorem Idle.untouched {conn : ConnId} {v v' : View} (hidle : Idle conn v)
    (huntouched : Untouched conn v v') : Idle conn v' where
  friend := fun howner => hidle.friend (huntouched.friend.mp howner)
  group := fun howner => hidle.group (huntouched.group.mp howner)
  unpublishedDirect := huntouched.unpublishedDirect.trans hidle.unpublishedDirect
  unpublishedGroup := huntouched.unpublishedGroup.trans hidle.unpublishedGroup
  running := huntouched.running.trans hidle.running

structure Arrives (conn : ConnId) (task : Task) (s : Shared) : Prop where
  ownConn : task.conn = conn
  session : task.session = s.sessions conn
  admitted : admissible s conn task.request = true

def Started (conn : ConnId) (task : Task) (s s' : Shared) : Prop :=
  Arrives conn task s ∧
    ∃ loopCalls, s' = { s.start conn task with loopCalls } ∧
      (∀ entry ∈ loopCalls, entry ∈ s.loopCalls) ∧
      ∀ call, task.call = some call → (conn, call) ∈ s.loopCalls

def Shared.finished (s : Shared) (conn : ConnId) : Shared :=
  { s with running := Function.update s.running conn none }

theorem exec_finish {crypto : Crypto} {conn : ConnId} {choice : Choice} {result : Act.finish.Result}
    (hexec : exec crypto conn .finish choice s = some (result, s')) :
    s' = s.finished conn := by
  cases choice <;> cases hexec
  rfl

/-- A property of the state with what a task relies on and what its progress says about it. -/
structure Layer where
  inv : Shared → Prop
  rely : ConnId → Shared → Shared → Prop
  cond : ConnId → Act → Choice → Shared → Prop
  shown : ConnId → Act → Choice → Shared → Shared → Prop
  tracks : ConnId → Progress → Shared → Prop

namespace Layer

variable (layer : Layer)

def contract : Contract ConnId Act Choice Request Shared where
  inv := fun s => Base s.view ∧ layer.inv s
  rely := fun conn s s' => Untouched conn s.view s'.view ∧ layer.rely conn s s'
  cond := layer.cond
  shown := layer.shown
  idle := fun conn s => Idle conn s.view

/-- What makes the invariant of a layer hold of every run. -/
structure Sound (crypto : Crypto) : Prop where
  stable : ∀ {conn st s s'}, Untouched conn s.view s'.view → layer.rely conn s s' →
    Tracks conn st s.view → layer.tracks conn st s → layer.tracks conn st s'
  step : ∀ {conn st action choice result s s'}, st.Allowed action → Base s.view → layer.inv s →
    Tracks conn st s.view → layer.tracks conn st s → layer.cond conn action choice s →
    exec crypto conn action choice s = some (result, s') →
    layer.inv s' ∧ (∀ other, other ≠ conn → layer.rely other s s') ∧
      layer.shown conn action choice s s' ∧ layer.tracks conn (st.after action result) s'
  start : ∀ {conn task s s'}, Idle conn s.view → layer.inv s → Started conn task s s' →
    layer.inv s' ∧ (∀ other, other ≠ conn → layer.rely other s s') ∧
      layer.tracks conn (task.start crypto) s'
  finish : ∀ {conn st} (choice : Choice) {s}, st.Free → layer.inv s → Tracks conn st s.view →
    layer.tracks conn st s →
    layer.inv (s.finished conn) ∧ (∀ other, other ≠ conn → layer.rely other s (s.finished conn)) ∧
      layer.shown conn .finish choice s (s.finished conn)

end Layer

theorem untouched_setRunning {conn other : ConnId} {v : View} {task : Option Task}
    (hne : other ≠ conn) : Untouched other v (v.setRunning conn task) :=
  { Untouched.refl other v with running := Function.update_of_ne hne _ _ }

theorem Base.setRunning {conn : ConnId} {v : View} {task : Option Task} (hbase : Base v) :
    Base (v.setRunning conn task) := { hbase with }

theorem Started.view {conn : ConnId} (hstarted : Started conn task s s') :
    s'.view = s.view.setRunning conn (some task) := by
  obtain ⟨-, loopCalls, rfl, -⟩ := hstarted
  rfl

theorem Started.tracks {crypto : Crypto} {conn : ConnId} (hstarted : Started conn task s s')
    (hidle : Idle conn s.view) : Tracks conn (task.start crypto) s'.view := by
  have hsession := hstarted.1.session
  rw [hstarted.view]
  constructor
  · exact Function.update_self _ _ _
  · show (s.sessions conn).core = task.session.core
    rw [hsession]
  · exact iff_of_false hidle.friend nofun
  · exact iff_of_false hidle.group nofun
  · exact hidle.unpublishedDirect
  · exact hidle.unpublishedGroup
  · nofun
  · nofun
  · nofun
  · nofun

theorem Tracks.idle_finished {conn : ConnId} {st : Progress} (htracks : Tracks conn st s.view)
    (hfree : st.Free) : Idle conn (s.finished conn).view := by
  constructor
  · intro howner
    simpa [hfree.friend] using htracks.friend.mp howner
  · intro howner
    simpa [hfree.group] using htracks.group.mp howner
  · exact htracks.owedDirect.trans hfree.owedDirect
  · exact htracks.owedGroup.trans hfree.owedGroup
  · exact Function.update_self _ _ _

theorem takeLoopCall_mem {conn : ConnId} {call : LoopCall} :
    ∀ {calls rest : List (ConnId × LoopCall)}, takeLoopCall conn calls = some (call, rest) →
      (conn, call) ∈ calls ∧ ∀ entry ∈ rest, entry ∈ calls := by
  intro calls
  induction calls with
  | nil => intro rest htake; cases htake
  | cons entry calls ih =>
    intro rest htake
    rw [takeLoopCall] at htake
    split at htake
    · rename_i hconn
      cases htake
      refine ⟨?_, fun entry hentry => List.mem_cons_of_mem _ hentry⟩
      rw [← hconn]
      exact List.mem_cons_self
    · simp only [Option.map_eq_some_iff] at htake
      obtain ⟨⟨call', rest'⟩, htake', heq⟩ := htake
      cases heq
      obtain ⟨hmem, hrest⟩ := ih htake'
      refine ⟨List.mem_cons_of_mem _ hmem, fun other hother => ?_⟩
      rcases List.mem_cons.mp hother with rfl | hother
      · exact List.mem_cons_self
      · exact List.mem_cons_of_mem _ (hrest other hother)

theorem launch_route {config : ServerConfig} {useCache : Bool} {conn : ConnId} {request : Request}
    (hrequest : request ≠ .loopCall) :
    launch config useCache conn request s =
      if admissible s conn request then
        some (thenFinish (route config useCache conn (s.sessions conn) request),
          s.start conn ⟨conn, request, s.sessions conn, none⟩)
      else
        none := by
  cases request with
  | loopCall => exact absurd rfl hrequest
  | _ => rfl

theorem launch_cases {config : ServerConfig} {useCache : Bool} {conn : ConnId} {request : Request}
    {prog : Handler Unit} (hlaunch : launch config useCache conn request s = some (prog, s')) :
    ∃ task handler, prog = thenFinish handler ∧ Started conn task s s' ∧
      Disciplined config.crypto task handler := by
  unfold launch at hlaunch
  dsimp only at hlaunch
  split at hlaunch
  · rename_i hadmissible
    split at hlaunch
    · simp only [Option.map_eq_some_iff] at hlaunch
      obtain ⟨⟨call, loopCalls⟩, htake, heq⟩ := hlaunch
      cases heq
      obtain ⟨hmem, hrest⟩ := takeLoopCall_mem htake
      refine ⟨⟨conn, .loopCall, s.sessions conn, some call⟩, _, rfl, ?_,
        disciplined_runLoopCall rfl⟩
      refine ⟨⟨rfl, rfl, rfl⟩, loopCalls, rfl, hrest, ?_⟩
      rintro call' ⟨rfl⟩
      exact hmem
    · cases hlaunch
      refine ⟨⟨conn, request, s.sessions conn, none⟩, _, rfl, ?_, disciplined_route _ rfl⟩
      exact ⟨⟨rfl, rfl, hadmissible⟩, s.loopCalls, rfl, fun entry hentry => hentry, nofun⟩
  · cases hlaunch

theorem base_initial (db : Database) (store : Store) : Base (Shared.view { db, store }) := by
  constructor
  · exact Nat.one_pos
  · exact Nat.one_pos
  · exact fun _ => Nat.zero_le _
  · exact fun _ => Nat.zero_le _
  · exact fun _ _ => Nat.one_pos
  · exact fun _ _ => Nat.one_pos

theorem idle_initial (db : Database) (store : Store) (conn : ConnId) :
    Idle conn (Shared.view { db, store }) := ⟨nofun, nofun, rfl, rfl, rfl⟩

namespace Layer.Sound

variable {layer : Layer} {config : ServerConfig} {useCache : Bool}

theorem stable_tracks (hsound : layer.Sound config.crypto) (conn : ConnId) (st : Progress) :
    layer.contract.Stable conn fun s => Tracks conn st s.view ∧ layer.tracks conn st s := by
  rintro s s' - - ⟨huntouched, hrely⟩ ⟨htracks, hlayer⟩
  exact ⟨htracks.untouched huntouched, hsound.stable huntouched hrely htracks hlayer⟩

theorem handlerOk (hsound : layer.Sound config.crypto) {conn : ConnId} {handler : Handler Unit}
    (hdisciplined : Disciplined config.crypto task handler) :
    Contract.Ok (server config useCache) layer.contract conn handler
      (fun s => Tracks conn (task.start config.crypto) s.view ∧
        layer.tracks conn (task.start config.crypto) s)
      fun _ s => ∃ st, st.Free ∧ Tracks conn st s.view ∧ layer.tracks conn st s := by
  refine Contract.Ok.of_keeps (hsound.stable_tracks conn) ?_ hdisciplined
  rintro st action s choice result s' hallowed ⟨hbase, hinv⟩ ⟨htracks, hlayer⟩ hcond hexec
  have heffect := Effect.of_exec hallowed hexec
  obtain ⟨hinv', hrely, hshown, hlayer'⟩ :=
    hsound.step hallowed hbase hinv htracks hlayer hcond hexec
  exact ⟨⟨heffect.base hbase htracks, hinv'⟩,
    fun other hne => ⟨heffect.untouched hne, hrely other hne⟩, hshown,
    heffect.tracks hbase htracks, hlayer'⟩

theorem finishOk (hsound : layer.Sound config.crypto) (conn : ConnId) :
    Contract.Ok (server config useCache) layer.contract conn (Handler.act .finish)
      (fun s => ∃ st, st.Free ∧ Tracks conn st s.view ∧ layer.tracks conn st s)
      fun _ s => Idle conn s.view := by
  refine Contract.Ok.perform (fun _ => ?_) ?_
  · rintro s s' - - ⟨huntouched, -⟩ hidle
    exact hidle.untouched huntouched
  · rintro s choice result s' ⟨hbase, hinv⟩ ⟨st, hfree, htracks, hlayer⟩ - hexec
    have hs' := exec_finish hexec
    subst hs'
    obtain ⟨hinv', hrely, hshown⟩ := hsound.finish choice hfree hinv htracks hlayer
    exact ⟨⟨hbase.setRunning, hinv'⟩,
      fun other hne => ⟨untouched_setRunning hne, hrely other hne⟩, hshown,
      htracks.idle_finished hfree⟩

theorem launchOk (hsound : layer.Sound config.crypto) :
    Contract.LaunchOk (server config useCache) layer.contract := by
  rintro conn request s prog s' ⟨hbase, hinv⟩ hidle hlaunch
  obtain ⟨task, handler, rfl, hstarted, hdisciplined⟩ := launch_cases hlaunch
  obtain ⟨hinv', hrely, hlayer⟩ := hsound.start hidle hinv hstarted
  have hview := hstarted.view
  refine ⟨⟨?_, hinv'⟩, fun other hne => ⟨?_, hrely other hne⟩, _,
    hsound.stable_tracks conn (task.start config.crypto),
    ⟨hstarted.tracks hidle, hlayer⟩, ?_⟩
  · show Base s'.view
    rw [hview]
    exact hbase.setRunning
  · rw [hview]
    exact untouched_setRunning hne
  · exact (hsound.handlerOk hdisciplined).bind fun _ => hsound.finishOk conn

theorem holds_initial (hinit : layer.inv { db, store }) :
    Contract.Holds (server config useCache) layer.contract (initial db store) := by
  refine ⟨⟨base_initial db store, hinit⟩, fun conn => ⟨fun s => Idle conn s.view, ?_, ?_, ?_⟩⟩
  · rintro s s' - - ⟨huntouched, -⟩ hidle
    exact hidle.untouched huntouched
  · exact idle_initial db store conn
  · exact fun s _ hidle => hidle

/-- **Invariants of runs.** The invariant of a layer holds in every state of every run whose steps
meet the condition of the layer. -/
theorem run (hsound : layer.Sound config.crypto) (hinit : layer.inv { db, store })
    (hrun : Transition.Run (server config useCache).next layer.contract.Meets (initial db store)
      events state) :
    Base state.shared.view ∧ layer.inv state.shared :=
  ((holds_initial hinit).run hsound.launchOk hrun).1

theorem idle (hholds : Contract.Holds (server config useCache) layer.contract state) {conn : ConnId}
    (hcode : state.code conn = .ret ()) : Idle conn state.shared.view := by
  obtain ⟨pre, -, hpre, hok⟩ := hholds.2 conn
  rw [hcode] at hok
  exact hok _ hholds.1 hpre

/-- **Steps of runs.** What a layer shows of a step is true of every step of such a run. -/
theorem shown (hsound : layer.Sound config.crypto) (hinit : layer.inv { db, store })
    (hrun : Transition.Run (server config useCache).next layer.contract.Meets (initial db store)
      events state)
    {conn : ConnId} {action : Act} {next : action.Result → Handler Unit}
    (hcode : state.code conn = .act action next) {choice : Choice} {result : action.Result}
    (hcond : layer.cond conn action choice state.shared)
    (hexec : exec config.crypto conn action choice state.shared = some (result, s')) :
    layer.shown conn action choice state.shared s' :=
  ((holds_initial hinit).run hsound.launchOk hrun).shown hcode hcond hexec

end Layer.Sound

theorem Layer.run_meets (layer : Layer) {config : ServerConfig} {useCache : Bool}
    (hcond : ∀ conn action choice s, layer.cond conn action choice s) {start : ServerConfiguration}
    (hrun : Transition.Run (server config useCache).next Transition.anyStep start events state) :
    Transition.Run (server config useCache).next layer.contract.Meets start events state := by
  refine hrun.mono fun state event _ => ?_
  cases event with
  | start conn request => trivial
  | step conn choice => exact Contract.meets_step fun action _ _ => hcond conn action choice _

def baseLayer : Layer where
  inv := fun _ => True
  rely := fun _ _ _ => True
  cond := fun _ _ _ _ => True
  shown := fun _ _ _ _ _ => True
  tracks := fun _ _ _ => True

theorem baseLayer_sound (crypto : Crypto) : baseLayer.Sound crypto where
  stable := fun _ _ _ _ => trivial
  step := fun _ _ _ _ _ _ _ => ⟨trivial, fun _ _ => trivial, trivial, trivial⟩
  start := fun _ _ _ => ⟨trivial, fun _ _ => trivial, trivial⟩
  finish := by
    intros
    exact ⟨trivial, fun _ _ => trivial, trivial⟩

def Shared.Quiescent (s : Shared) : Prop :=
  ∀ conn, s.unpublishedDirect conn = none ∧ s.unpublishedGroup conn = none

theorem quiescent_of_ended {config : ServerConfig} {useCache : Bool}
    (hrun : Transition.Run (server config useCache).next Transition.anyStep (initial db store) events
      state)
    (hended : ∀ conn, state.code conn = .ret ()) : state.shared.Quiescent := by
  have hmeets := Layer.run_meets baseLayer (fun _ _ _ _ => trivial) hrun
  have hinitial : Contract.Holds (server config useCache) baseLayer.contract (initial db store) :=
    Layer.Sound.holds_initial trivial
  have hholds := hinitial.run (baseLayer_sound config.crypto).launchOk hmeets
  intro conn
  have hidle := Layer.Sound.idle hholds (hended conn)
  exact ⟨hidle.unpublishedDirect, hidle.unpublishedGroup⟩

def updateLayer : Layer :=
  { baseLayer with
    shown := fun conn action _ s _ => ∀ update, action = .update update →
      ∃ st : Progress, st.MayUpdate update ∧ Tracks conn st s.view }

theorem updateLayer_sound (crypto : Crypto) : updateLayer.Sound crypto where
  stable := fun _ _ _ _ => trivial
  step := by
    intro conn st action choice result s s' hallowed hbase hinv htracks hlayer hcond hexec
    refine ⟨trivial, fun _ _ => trivial, ?_, trivial⟩
    rintro update rfl
    exact ⟨st, hallowed.1, htracks⟩
  start := fun _ _ _ => ⟨trivial, fun _ _ => trivial, trivial⟩
  finish := by
    intros
    refine ⟨trivial, fun _ _ => trivial, ?_⟩
    intro update haction
    cases haction

theorem mayUpdate_of_run {config : ServerConfig} {useCache : Bool}
    (hrun : Transition.Run (server config useCache).next Transition.anyStep (initial db store) events
      state)
    {conn : ConnId} {update : Update} {next : (Act.update update).Result → Handler Unit}
    (hcode : state.code conn = .act (.update update) next) :
    ∃ st : Progress, st.MayUpdate update ∧ Tracks conn st state.shared.view := by
  -- the update is looked at as if it failed, which it always can
  have hexec : exec config.crypto conn (.update update) (.fail []) state.shared =
      some (.error [], state.shared) := rfl
  have hmeets := Layer.run_meets updateLayer (fun _ _ _ _ => trivial) hrun
  exact (updateLayer_sound config.crypto).shown trivial hmeets hcode trivial hexec update rfl

end ChatRoom
