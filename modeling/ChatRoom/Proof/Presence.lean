import ChatRoom.Proof.Online
import ChatRoom.Server.Cluster

/-!
# Who owns the online status of a user

The key of a user in Redis names a server, not a connection. A server gives a key up whenever one of
its connections leaves, so a second connection of the same user and server would lose it as well.
-/

namespace ChatRoom

open Interleaving

variable {ι : Type}
variable {username : Bytes}

def Owns (configs : ι → ServerConfig) (c : Cluster ι) (i : ι) (username : Bytes) : Prop :=
  c.presence username = some (configs i).serverInstanceId

/-! ### What a step does to the keys -/

section Answered

variable {serverInstanceId : Bytes} {presence presence' : Bytes → Option Bytes} {action : Act}
  {choice choice' : Choice}

theorem answered_of_ne_redis (hredis : ∀ call, action ≠ .redis call) :
    answered serverInstanceId presence action choice = (choice, presence) := by
  cases action with
  | redis call => exact absurd rfl (hredis call)
  | _ => rfl

theorem answered_keeps
    (hanswered : answered serverInstanceId presence action choice = (choice', presence'))
    {owner : Bytes} (howner : presence username = some owner) :
    presence' username = some owner ∨
      owner = serverInstanceId ∧ action = .redis (.removePresenceIfOwned username) := by
  by_cases hredis : ∃ call, action = .redis call
  · obtain ⟨call, rfl⟩ := hredis
    cases call with
    | claimPresence name =>
      by_cases hname : presence name = none
      · have hne : username ≠ name := by
          rintro rfl
          rw [hname] at howner
          cases howner
        simp only [answered, presenceCall, hname, Prod.mk.injEq] at hanswered
        rw [← hanswered.2, Function.update_of_ne hne]
        exact .inl howner
      · obtain ⟨other, hother⟩ := Option.ne_none_iff_exists'.mp hname
        simp only [answered, presenceCall, hother, Prod.mk.injEq] at hanswered
        rw [← hanswered.2]
        exact .inl howner
    | removePresenceIfOwned name =>
      simp only [answered, presenceCall] at hanswered
      split at hanswered
      · rename_i reply after hremoved
        cases hanswered
        split at hremoved
        · rename_i hname
          cases hremoved
          by_cases heq : username = name
          · subst heq
            exact .inr ⟨Option.some.inj (howner.symm.trans hname), rfl⟩
          · rw [Function.update_of_ne heq]
            exact .inl howner
        · cases hremoved
          exact .inl howner
      · cases hanswered
        exact .inl howner
    | _ =>
      cases hanswered
      exact .inl howner
  · rw [answered_of_ne_redis fun call hcall => hredis ⟨call, hcall⟩] at hanswered
    cases hanswered
    exact .inl howner

theorem answered_claims {crypto : Crypto} {conn : ConnId} {call : RedisCall} {s s' : Shared}
    (hcall : call = .claimPresence username ∨ call = .refreshPresenceIfOwned username)
    (hanswered : answered serverInstanceId presence (.redis call) choice = (choice', presence'))
    (hexec : exec crypto conn (.redis call) choice' s = some (RedisReply.flag true, s')) :
    presence' username = some serverInstanceId := by
  obtain rfl : choice' = .reply (.flag true) := by
    cases choice' <;> cases hexec
    rfl
  rcases hcall with rfl | rfl
  · simp only [answered, presenceCall] at hanswered
    cases hname : presence username with
    | none =>
      simp only [hname, Prod.mk.injEq] at hanswered
      rw [← hanswered.2, Function.update_self]
    | some other =>
      simp only [hname, Prod.mk.injEq] at hanswered
      cases hanswered.1
  · simp only [answered, presenceCall, Prod.mk.injEq, Choice.reply.injEq, RedisReply.flag.injEq,
      decide_eq_true_eq] at hanswered
    rw [← hanswered.2]
    exact hanswered.1

end Answered

section Steps

variable [DecidableEq ι] {configs : ι → ServerConfig} {useCache : Bool} {i : ι} {conn : ConnId}
  {c c' : Cluster ι}

theorem cluster_exec {action : Act} {choice : Choice} {result : action.Result}
    (hexec : (cluster configs useCache).exec (i, conn) action choice c = some (result, c')) :
    ∃ choice', exec (configs i).crypto conn action choice' (c.server i) =
        some (result, c'.server i) ∧
      answered (configs i).serverInstanceId c.presence action choice = (choice', c'.presence) ∧
      ∀ j, j ≠ i → c'.server j = { c.server j with db := c'.db } := by
  simp only [cluster, Option.map_eq_some_iff] at hexec
  obtain ⟨⟨result', s⟩, hexec, heq⟩ := hexec
  cases heq
  refine ⟨_, hexec.trans ?_, rfl, fun j hne => c.server_setServer_of_ne hne s⟩
  exact congrArg (fun s => some (result', s)) (c.server_setServer i s).symm

theorem cluster_launch {request : Request} {prog : Handler Unit}
    (hlaunch : (cluster configs useCache).launch (i, conn) request c = some (prog, c')) :
    launch (configs i) useCache conn request (c.server i) = some (prog, c'.server i) ∧
      c'.presence = c.presence ∧ ∀ j, j ≠ i → c'.server j = { c.server j with db := c'.db } := by
  simp only [cluster, Option.map_eq_some_iff] at hlaunch
  obtain ⟨⟨prog', s⟩, hlaunch, heq⟩ := hlaunch
  cases heq
  refine ⟨hlaunch.trans ?_, rfl, fun j hne => c.server_setServer_of_ne hne s⟩
  exact congrArg (fun s => some (prog', s)) (c.server_setServer i s).symm

end Steps

theorem Progress.claimed_after (st : Progress) {action : Act} (result : action.Result)
    (hredis : ∀ call, action ≠ .redis call) :
    (st.after action result).claimed = st.claimed ∨ (st.after action result).claimed = none := by
  cases action with
  | redis call => exact absurd rfl (hredis call)
  | query | update => cases result <;> exact .inl rfl
  | lock mutex | unlock mutex => cases mutex <;> exact .inl rfl
  | loadGeneration policy | bumpGeneration policy => cases policy <;> exact .inl rfl
  | beginOrResumeUpload | finalizeUpload => cases result <;> exact .inl rfl
  | findOnline username =>
    cases result with
    | none => exact .inl rfl
    | some target =>
      left
      show (st.met username target).claimed = st.claimed
      unfold met
      split <;> rfl
  | addOnline username =>
    cases result with
    | false => exact .inl rfl
    | true => exact .inr rfl
  | _ => exact .inl rfl

/-! ### What a handler holds -/

structure Holding (owns : Bytes → Prop) (conn : ConnId) (st : Progress) (s : Shared) : Prop where
  owned : st.registered = true → s.connected conn = true → st.core.loggedIn = true →
    owns st.core.username
  claimed : ∀ username, st.joined = some username → st.claimed = some username →
    st.task.Runs .login → s.connected conn = true → owns username

structure KeyStep (owns owns' : Bytes → Prop) (st st' : Progress) (action : Act) : Prop where
  kept : ∀ username, owns username → action ≠ .redis (.removePresenceIfOwned username) →
    owns' username
  claimed : ∀ username, st'.claimed = some username → st.claimed = some username ∨ owns' username

namespace Holding

variable {owns owns' : Bytes → Prop} {crypto : Crypto} {conn : ConnId} {st st' : Progress}
  {s s' : Shared} {action : Act} {choice : Choice} {result : action.Result}

theorem mono (hholding : Holding owns conn st s) (hphase : s'.phase conn = s.phase conn)
    (hstanding : st'.standing = st.standing)
    (howned : st.registered = true → s.connected conn = true → st.core.loggedIn = true →
      owns st.core.username → owns' st.core.username)
    (hclaimed : ∀ username, st.joined = some username → st'.claimed = some username →
      st.task.Runs .login → s.connected conn = true →
      (st.claimed = some username → owns username) → owns' username) :
    Holding owns' conn st' s' := by
  simp only [Progress.standing, Prod.mk.injEq] at hstanding
  obtain ⟨htask, ⟨hlogged, husername⟩, hregistered, hjoined, -⟩ := hstanding
  have hup := Shared.connected_congr hphase
  constructor
  · rw [hregistered, hup, hlogged, husername]
    exact fun hregistered hup hlogged =>
      howned hregistered hup hlogged (hholding.owned hregistered hup hlogged)
  · rw [hjoined, htask, hup]
    intro username hjoined hclaim hruns hup
    exact hclaimed username hjoined hclaim hruns hup fun hclaim =>
      hholding.claimed username hjoined hclaim hruns hup

theorem setPhase {phase : ConnPhase} {result : Unit} (honline : OnlineTracks conn st s)
    (hallowed : st.Allowed (.setPhase phase))
    (hexec : exec crypto conn (.setPhase phase) choice s = some (result, s')) :
    Holding owns' conn (st.after (.setPhase phase) result) s' := by
  have hup : s'.connected conn = true → st.task.request = .connect := by
    intro hconnected
    cases choice <;> cases hexec
    have hphase : Function.update s.phase conn phase conn = .connected :=
      of_decide_eq_true hconnected
    rw [Function.update_self] at hphase
    exact (hallowed.2 hphase).1
  constructor
  · intro _ hconnected hlogged
    have hout := honline.fresh (.inl (hup hconnected))
    exact absurd (hout.symm.trans hlogged) Bool.false_ne_true
  · rintro username - - ⟨arguments, hrequest⟩ hconnected
    cases (hup hconnected).symm.trans hrequest

theorem removeOnline {result : Unit} (honline : OnlineTracks conn st s)
    (hexec : exec crypto conn (.removeOnline username) choice s = some (result, s')) :
    Holding owns' conn (st.after (.removeOnline username) result) s' := by
  cases choice <;> cases hexec
  refine ⟨fun hregistered hconnected hlogged => ?_, nofun⟩
  have hdown : (!st.core.loggedIn || st.down) = true := hregistered
  rw [show st.core.loggedIn = true from hlogged] at hdown
  exact absurd ((honline.down hdown).symm.trans hconnected) Bool.false_ne_true

theorem redis {call : RedisCall} {reply : RedisReply} (hholding : Holding owns conn st s)
    (honline : OnlineTracks conn st s) (hallowed : st.MayCall call)
    (hkeys : KeyStep owns owns' st (st.called call reply) (.redis call)) :
    Holding owns' conn (st.called call reply) s := by
  have hstanding : (st.called call reply).standing = st.standing := by
    obtain ⟨claimed, hcalled⟩ := st.called_eq call reply
    rw [hcalled]
    rfl
  by_cases hremove : ∃ username, call = .removePresenceIfOwned username
  · obtain ⟨name, rfl⟩ := hremove
    obtain ⟨hjoined, hgone⟩ := hallowed
    refine hholding.mono rfl hstanding ?_ ?_
    · intro hregistered hup
      rcases hgone with hunregistered | hdown
      · exact absurd (hunregistered.symm.trans hregistered) Bool.false_ne_true
      · exact absurd ((honline.down hdown).symm.trans hup) Bool.false_ne_true
    · intro username hjoined'
      cases hjoined.symm.trans hjoined'
  · have hkept : ∀ username, owns username → owns' username := by
      refine fun username howns => hkeys.kept username howns fun hcall => hremove ⟨username, ?_⟩
      exact Act.redis.inj hcall
    refine hholding.mono rfl hstanding (fun _ _ _ => hkept _) ?_
    intro username _ hclaimed _ _ howns
    exact (hkeys.claimed username hclaimed).elim (fun hclaimed => hkept _ (howns hclaimed)) id

theorem assign {a : Assign} {result : Unit} (hholding : Holding owns conn st s)
    (hmay : st.MayAssign a) (hphase : s'.phase conn = s.phase conn)
    (hkept : ∀ username, owns username → owns' username) :
    Holding owns' conn (st.after (.assign a) result) s' := by
  have hsame : ∀ {st' : Progress}, st'.standing = st.standing → st'.claimed = st.claimed →
      Holding owns' conn st' s' := by
    intro st' hstanding hclaimed
    refine hholding.mono hphase hstanding (fun _ _ _ => hkept _) ?_
    rw [hclaimed]
    exact fun username _ hclaimed _ _ howns => hkept _ (howns hclaimed)
  have hall : Holding owns' conn st s' := hsame rfl rfl
  cases a with
  | login username =>
    obtain ⟨-, -, -, hjoined, hclaimed, hruns⟩ := hmay
    exact ⟨fun _ hup _ => hall.claimed username hjoined hclaimed hruns hup, nofun⟩
  | logout | accountDeleted => exact ⟨nofun, hall.claimed⟩
  | _ => exact hsame rfl rfl

theorem after (hholding : Holding owns conn st s) (honline : OnlineTracks conn st s)
    (hallowed : st.Allowed action) (hstep : RollStep conn action s s')
    (hexec : exec crypto conn action choice s = some (result, s'))
    (hkeys : KeyStep owns owns' st (st.after action result) action) :
    Holding owns' conn (st.after action result) s' := by
  have hsame : (∀ phase, action ≠ .setPhase phase) → (∀ call, action ≠ .redis call) →
      ∀ {st' : Progress}, st'.standing = st.standing → st'.claimed = (st.after action result).claimed →
      Holding owns' conn st' s' := by
    intro hphase hredis st' hstanding hclaimed'
    have hkept : ∀ username, owns username → owns' username :=
      fun username howns => hkeys.kept username howns (hredis _)
    refine hholding.mono (hstep.phase conn (.inr hphase)) hstanding (fun _ _ _ => hkept _) ?_
    rw [hclaimed']
    intro username _ hclaimed _ _ howns
    exact (hkeys.claimed username hclaimed).elim (fun hclaimed => hkept _ (howns hclaimed)) id
  cases action with
  | setPhase phase => exact setPhase honline hallowed hexec
  | removeOnline username => exact removeOnline honline hexec
  | redis call =>
    cases choice <;> cases hexec
    exact hholding.redis honline hallowed hkeys
  | assign a =>
    exact hholding.assign hallowed (hstep.phase conn (.inr (by simp)))
      fun username howns => hkeys.kept username howns (by simp)
  | addOnline username =>
    cases result with
    | false => exact hsame (by simp) (by simp) rfl rfl
    | true =>
      -- a new name has not been claimed yet
      have hbefore : Holding owns' conn { st with claimed := none } s' :=
        hsame (by simp) (by simp) rfl rfl
      exact ⟨hbefore.owned, nofun⟩
  | _ =>
    exact hsame (by simp) (by simp) (st.standing_after result (by simp) (by simp) (by simp)
      (by simp)) rfl

end Holding

/-! ### The contract -/

variable (configs : ι → ServerConfig)

/-- **Presence.** A session that is logged in, connected and not about to leave owns the key of its
user. -/
structure PresenceRight (c : Cluster ι) : Prop where
  base : ∀ i, Base (c.server i).view
  online : ∀ i, OnlineRight (c.server i)
  owned : ∀ i conn, (c.server i).leaving conn = false → (c.server i).connected conn = true →
    ((c.server i).sessions conn).loggedIn = true →
    Owns configs c i ((c.server i).sessions conn).username

/-- What the other connections of all servers leave a connection. -/
structure PresenceRely (i : ι) (conn : ConnId) (c c' : Cluster ι) : Prop where
  untouched : Untouched conn (c.server i).view (c'.server i).view
  online : OnlineRely conn (c.server i) (c'.server i)
  owned : ∀ username, (username, conn) ∈ (c.server i).onlineUsers →
    (c.server i).connected conn = true → Owns configs c i username → Owns configs c' i username

structure PresenceTracks (i : ι) (conn : ConnId) (st : Progress) (c : Cluster ι) : Prop where
  tracks : Tracks conn st (c.server i).view
  online : OnlineTracks conn st (c.server i)
  holding : Holding (Owns configs c i) conn st (c.server i)

def presenceContract : Contract (ι × ConnId) Act Choice Request (Cluster ι) where
  inv := PresenceRight configs
  rely := fun (i, conn) => PresenceRely configs i conn
  cond := fun (i, _) action _ c => ∀ username, action = .redis (.removePresenceIfOwned username) →
    (c.server i).findOnline username = none
  shown := fun _ _ _ _ _ => True
  idle := fun (i, conn) c => Idle conn (c.server i).view

variable {configs}

theorem PresenceTracks.of_rely {i : ι} {conn : ConnId} {st : Progress} {c c' : Cluster ι}
    (hpresence : PresenceTracks configs i conn st c) (hrely : PresenceRely configs i conn c c') :
    PresenceTracks configs i conn st c' := by
  refine ⟨hpresence.tracks.untouched hrely.untouched, hpresence.online.of_rely hrely.online rfl,
    hpresence.holding.mono hrely.online.phase rfl ?_ ?_⟩
  · intro hregistered hup hlogged
    exact hrely.owned _ (hpresence.online.online hregistered hup hlogged) hup
  · intro username hjoined hclaimed hruns hup howns
    exact hrely.owned _ (hpresence.online.joined username hjoined hruns hup) hup (howns hclaimed)

theorem PresenceRight.of_rely {i : ι} {conn : ConnId} {c c' : Cluster ι}
    (hright : PresenceRight configs c) (hbase : ∀ j, Base (c'.server j).view)
    (honline : ∀ j, OnlineRight (c'.server j))
    (hothers : ∀ j other, (j, other) ≠ (i, conn) → PresenceRely configs j other c c')
    (hown : (c'.server i).leaving conn = false → (c'.server i).connected conn = true →
      ((c'.server i).sessions conn).loggedIn = true →
      Owns configs c' i ((c'.server i).sessions conn).username) : PresenceRight configs c' := by
  refine ⟨hbase, honline, fun j other => ?_⟩
  by_cases heq : (j, other) = (i, conn)
  · cases heq
    exact hown
  · obtain ⟨huntouched, hrely, howned⟩ := hothers j other heq
    have hrunning : (c'.server j).running other = (c.server j).running other := huntouched.running
    rw [Shared.leaving, hrunning, Shared.connected_congr hrely.phase, huntouched.user.1,
      huntouched.user.2]
    intro hstays hup hlogged
    exact howned _ ((hright.online j).online other hstays hup hlogged) hup
      (hright.owned j other hstays hup hlogged)

theorem PresenceTracks.current {i : ι} {conn : ConnId} {st : Progress} {c : Cluster ι}
    (hpresence : PresenceTracks configs i conn st c)
    (hleaving : (c.server i).leaving conn = false) (hup : (c.server i).connected conn = true)
    (hlogged : ((c.server i).sessions conn).loggedIn = true) :
    Owns configs c i ((c.server i).sessions conn).username := by
  obtain ⟨hloggedIn, husername⟩ := hpresence.tracks.user
  rw [hloggedIn] at hlogged
  rw [husername]
  exact hpresence.holding.owned (hpresence.online.stays hpresence.tracks hleaving hup) hup hlogged

/-! ### Soundness -/

section Tables

variable (s : Shared) (db : Database)

theorem untouched_tables (conn : ConnId) : Untouched conn s.view { s with db }.view :=
  { Untouched.refl conn s.view with }

variable {s}

theorem Base.tables (hbase : Base s.view) : Base { s with db }.view := { hbase with }

theorem OnlineRight.tables (hright : OnlineRight s) : OnlineRight { s with db } := { hright with }

end Tables

theorem PresenceRight.next {i : ι} {conn : ConnId} {c c' : Cluster ι}
    (hright : PresenceRight configs c)
    (hothers : ∀ j, j ≠ i → c'.server j = { c.server j with db := c'.db })
    (hbase : Base (c'.server i).view) (honline : OnlineRight (c'.server i))
    (hrely : ∀ other, other ≠ conn → Untouched other (c.server i).view (c'.server i).view ∧
      OnlineRely other (c.server i) (c'.server i))
    (howned : ∀ j other username, (username, other) ∈ (c.server j).onlineUsers →
      (c.server j).connected other = true → Owns configs c j username → Owns configs c' j username)
    (hown : (c'.server i).leaving conn = false → (c'.server i).connected conn = true →
      ((c'.server i).sessions conn).loggedIn = true →
      Owns configs c' i ((c'.server i).sessions conn).username) :
    PresenceRight configs c' ∧
      ∀ j other, (j, other) ≠ (i, conn) → PresenceRely configs j other c c' := by
  have hall : ∀ j other, (j, other) ≠ (i, conn) → PresenceRely configs j other c c' := by
    intro j other hne
    by_cases heq : j = i
    · subst heq
      have hne : other ≠ conn := fun heq => hne (congrArg (Prod.mk j) heq)
      exact ⟨(hrely other hne).1, (hrely other hne).2, howned j other⟩
    · refine ⟨?_, ?_, howned j other⟩
      · rw [hothers j heq]
        exact untouched_tables _ _ other
      · rw [hothers j heq]
        exact ⟨rfl, fun _ hentry _ => hentry, fun _ hentry => hentry⟩
  refine ⟨hright.of_rely (fun j => ?_) (fun j => ?_) hall hown, hall⟩
  · by_cases heq : j = i
    · rw [heq]
      exact hbase
    · rw [hothers j heq]
      exact (hright.base j).tables _
  · by_cases heq : j = i
    · rw [heq]
      exact honline
    · rw [hothers j heq]
      exact (hright.online j).tables _

section Sound

variable {useCache : Bool} {i : ι} {conn : ConnId} {st : Progress} {action : Act}
  {choice : Choice} {result : action.Result} {c c' : Cluster ι}

theorem KeyStep.of_answered {choice' : Choice}
    (hexec : exec (configs i).crypto conn action choice' (c.server i) = some (result, c'.server i))
    (hanswered : answered (configs i).serverInstanceId c.presence action choice =
      (choice', c'.presence)) :
    KeyStep (Owns configs c i) (Owns configs c' i) st (st.after action result) action where
  kept := fun username howns hkeeps =>
    (answered_keeps hanswered howns).resolve_right fun hremoves => hkeeps hremoves.2
  claimed := by
    intro username hclaimed
    by_cases hredis : ∃ call, action = .redis call
    · obtain ⟨call, rfl⟩ := hredis
      have hcalled : (st.called call result).claimed = some username := hclaimed
      unfold Progress.called at hcalled
      split at hcalled
      · cases hcalled
        exact .inr (answered_claims (.inl rfl) hanswered hexec)
      · cases hcalled
        exact .inr (answered_claims (.inr rfl) hanswered hexec)
      · exact .inl hcalled
    · left
      rcases st.claimed_after result fun call hcall => hredis ⟨call, hcall⟩ with hsame | hnone
      · exact hsame.symm.trans hclaimed
      · cases hnone.symm.trans hclaimed

theorem presence_start {task : Task} (hright : PresenceRight configs c)
    (hidle : Idle conn (c.server i).view) (hstarted : Started conn task (c.server i) (c'.server i))
    (hpresence : c'.presence = c.presence)
    (hothers : ∀ j, j ≠ i → c'.server j = { c.server j with db := c'.db }) :
    (PresenceRight configs c' ∧
      ∀ j other, (j, other) ≠ (i, conn) → PresenceRely configs j other c c') ∧
      PresenceTracks configs i conn (task.start (configs i).crypto) c' := by
  have hkept : ∀ j username, Owns configs c j username → Owns configs c' j username := by
    intro j username howns
    rw [Owns, hpresence]
    exact howns
  obtain ⟨honline, hrely, htracks⟩ := (onlineLayer_sound (configs i).crypto).start hidle
    (hright.online i) hstarted
  have hview := hstarted.view
  have hstays : (c.server i).leaving conn = false := Shared.leaving_of_idle hidle.running
  have hholding : Holding (Owns configs c' i) conn (task.start (configs i).crypto) (c'.server i) := by
    refine ⟨fun _ hup hlogged => hkept i _ ?_, by simp [Task.start]⟩
    obtain ⟨⟨-, hsession, -⟩, loopCalls, hstart, -⟩ := hstarted
    have hup : (c.server i).connected conn = true := by
      rw [← hup, hstart]
      rfl
    have hcore : (task.start (configs i).crypto).core = ((c.server i).sessions conn).core := by
      rw [← hsession]
      rfl
    rw [hcore] at hlogged ⊢
    exact hright.owned i conn hstays hup hlogged
  have htracks' : PresenceTracks configs i conn (task.start (configs i).crypto) c' :=
    ⟨hstarted.tracks hidle, htracks, hholding⟩
  refine ⟨hright.next hothers ?_ honline (fun other hne => ⟨?_, hrely other hne⟩)
    (fun j other username _ _ => hkept j username) htracks'.current, htracks'⟩
  · rw [hview]
    exact (hright.base i).setRunning
  · rw [hview]
    exact untouched_setRunning hne

theorem presence_stable (thread : ι × ConnId) (st : Progress) :
    (presenceContract configs).Stable thread (PresenceTracks configs thread.1 thread.2 st) :=
  fun _ _ _ _ hrely hpresence => hpresence.of_rely hrely

theorem idle_stable (thread : ι × ConnId) : (presenceContract configs).Stable thread
    ((presenceContract configs).idle thread) :=
  fun _ _ _ _ hrely hidle => Idle.untouched hidle hrely.untouched

variable [DecidableEq ι]

theorem presence_step (hnames : Function.Injective fun i => (configs i).serverInstanceId)
    (hallowed : st.Allowed action) (hright : PresenceRight configs c)
    (hpresence : PresenceTracks configs i conn st c)
    (hcond : (presenceContract configs).cond (i, conn) action choice c)
    (hexec : (cluster configs useCache).exec (i, conn) action choice c = some (result, c')) :
    (PresenceRight configs c' ∧
      ∀ j other, (j, other) ≠ (i, conn) → PresenceRely configs j other c c') ∧
      PresenceTracks configs i conn (st.after action result) c' := by
  obtain ⟨choice', hexec, hanswered, hothers⟩ := cluster_exec hexec
  have hbase := hright.base i
  have heffect := Effect.of_exec hallowed hexec
  have hstep := RollStep.of_exec (hright.online i).keys hexec
  obtain ⟨honline, hrely, -, htracks⟩ := (onlineLayer_sound (configs i).crypto).step hallowed hbase
    (hright.online i) hpresence.tracks hpresence.online trivial hexec
  have hpresence' : PresenceTracks configs i conn (st.after action result) c' :=
    ⟨heffect.tracks hbase hpresence.tracks, htracks,
      hpresence.holding.after hpresence.online hallowed hstep hexec (.of_answered hexec hanswered)⟩
  refine ⟨hright.next hothers (heffect.base hbase hpresence.tracks) honline
    (fun other hne => ⟨heffect.untouched hne, hrely other hne⟩) ?_ hpresence'.current, hpresence'⟩
  intro j other username hentry hup howns
  refine (answered_keeps hanswered howns).resolve_right ?_
  -- its own server gives the key up while the connection is registered for the user
  rintro ⟨hname, hremoves⟩
  obtain rfl : j = i := hnames hname
  have hfound := Shared.findOnline_of_mem (hright.online j).keys hentry hup
  cases (hcond username hremoves).symm.trans hfound

theorem presence_finish {result : Unit} (hfree : st.Free) (hright : PresenceRight configs c)
    (hpresence : PresenceTracks configs i conn st c)
    (hexec : (cluster configs useCache).exec (i, conn) .finish choice c = some (result, c')) :
    (PresenceRight configs c' ∧
      ∀ j other, (j, other) ≠ (i, conn) → PresenceRely configs j other c c') ∧
      Idle conn (c'.server i).view := by
  obtain ⟨choice', hexec, hanswered, hothers⟩ := cluster_exec hexec
  have hfinished := exec_finish hexec
  have hkept : ∀ j username, Owns configs c j username → Owns configs c' j username :=
    fun j username howns => (answered_keeps hanswered howns).resolve_right fun hremoves => by
      cases hremoves.2
  obtain ⟨honline, hrely, -⟩ := (onlineLayer_sound (configs i).crypto).finish choice hfree
    (hright.online i) hpresence.tracks hpresence.online
  have hidle := hpresence.tracks.idle_finished hfree
  rw [← hfinished] at honline hidle
  refine ⟨hright.next hothers ?_ honline (fun other hne => ⟨?_, ?_⟩)
    (fun j other username _ _ => hkept j username) ?_, hidle⟩
  · rw [hfinished]
    exact (hright.base i).setRunning
  · rw [hfinished]
    exact untouched_setRunning hne
  · rw [hfinished]
    exact hrely other hne
  · rw [hfinished]
    intro _ hup hlogged
    obtain ⟨hloggedIn, husername⟩ := hpresence.tracks.user
    have howns := hpresence.holding.owned hfree.registered hup (hloggedIn.symm.trans hlogged)
    rw [← husername] at howns
    exact hkept i _ howns

theorem presence_launchOk (hnames : Function.Injective fun i => (configs i).serverInstanceId) :
    Contract.LaunchOk (cluster configs useCache) (presenceContract configs) := by
  rintro ⟨i, conn⟩ request c prog c' hright hidle hlaunch
  obtain ⟨hlaunch, hpresence, hothers⟩ := cluster_launch hlaunch
  obtain ⟨task, handler, rfl, hstarted, hdisciplined⟩ := launch_cases hlaunch
  obtain ⟨⟨hright', hrely⟩, htracks⟩ := presence_start hright hidle hstarted hpresence hothers
  refine ⟨hright', fun ⟨j, other⟩ hne => hrely j other hne, _,
    presence_stable (i, conn) (task.start (configs i).crypto), htracks, ?_⟩
  have hhandler : Contract.Ok (cluster configs useCache) (presenceContract configs) (i, conn) handler
      (PresenceTracks configs i conn (task.start (configs i).crypto))
      fun _ c => ∃ st, st.Free ∧ PresenceTracks configs i conn st c := by
    refine Contract.Ok.of_keeps (presence_stable (i, conn)) ?_ hdisciplined
    intro st action c choice result c' hallowed hright hpresence hcond hexec
    obtain ⟨⟨hright', hrely⟩, htracks⟩ := presence_step hnames hallowed hright hpresence hcond hexec
    exact ⟨hright', fun ⟨j, other⟩ hne => hrely j other hne, trivial, htracks⟩
  refine hhandler.bind fun _ => Contract.Ok.perform (fun _ => idle_stable (i, conn)) ?_
  rintro c choice result c' hright ⟨st, hfree, hpresence⟩ - hexec
  obtain ⟨⟨hright', hrely⟩, hidle⟩ := presence_finish hfree hright hpresence hexec
  exact ⟨hright', fun ⟨j, other⟩ hne => hrely j other hne, trivial, hidle⟩

theorem presence_initial (db : Database) (stores : ι → Store) (presence : Bytes → Option Bytes) :
    Contract.Holds (cluster configs useCache) (presenceContract configs)
      (clusterInitial db stores presence) := by
  refine ⟨⟨fun i => base_initial db (stores i), fun i => onlineRight_initial db (stores i), ?_⟩, ?_⟩
  · intro i conn _ hup
    cases hup
  · intro ⟨i, conn⟩
    exact ⟨_, idle_stable (i, conn), idle_initial db (stores i) conn, fun _ _ hidle => hidle⟩

/-- **Run lemma.** As long as no key is given up for a user who is registered on a connection that is
up, the servers have the keys of their users. -/
theorem presenceRight_of_run (hnames : Function.Injective fun i => (configs i).serverInstanceId)
    {db : Database} {stores : ι → Store} {presence : Bytes → Option Bytes}
    {events : List (ClusterEvent ι)} {state : ClusterConfiguration ι}
    (hrun : Transition.Run (cluster configs useCache).next (presenceContract configs).Meets
      (clusterInitial db stores presence) events state) : PresenceRight configs state.shared :=
  ((presence_initial db stores presence).run (presence_launchOk hnames) hrun).1

end Sound

end ChatRoom
