import ChatRoom.Lib.LockOrder
import ChatRoom.Proof.Serial

/-!
# The mutexes of the handlers

The tables are changed under the mutexes only, and the handlers do not block each other for good:
the discipline has them take the friend mutex before the group mutex if they take both. The only
other thing that can keep a step from being taken is a delivery that waits for its connection.
-/

namespace ChatRoom

open Interleaving Handler Typestate

def Act.lockUse : Act → LockUse Mutex
  | .lock mutex => .take mutex
  | .unlock mutex => .give mutex
  | .advancePump _ => .waits
  | _ => .plain

def Mutex.rank : Mutex → Nat
  | .friend => 0
  | .group => 1

def mutexOrder : Typestate Act Act.Result (Set Mutex) := lockOrder Act.lockUse Mutex.rank

/-- The mutexes a handler holds, as its progress has them. -/
def Progress.holds (st : Progress) : Set Mutex :=
  {mutex | (match mutex with | .friend => st.friend | .group => st.group) = true}

theorem Progress.holds_congr {st st' : Progress} (hfriend : st'.friend = st.friend)
    (hgroup : st'.group = st.group) : st'.holds = st.holds := by
  simp only [holds, hfriend, hgroup]

theorem Progress.holds_eq_empty {st : Progress} (hfriend : st.friend = false)
    (hgroup : st.group = false) : st.holds = ∅ := by
  ext mutex
  cases mutex <;> simp [holds, hfriend, hgroup]

section Locks

variable {config : ServerConfig} {useCache : Bool} {conn : ConnId} {session : ClientSession}
  {request : Request} {s s' : Shared}

theorem mutexOrder_allowed {st : Progress} {action : Act} (hallowed : st.Allowed action) :
    mutexOrder.allowed st.holds action := by
  cases action with
  | lock mutex =>
    cases mutex with
    | friend =>
      rw [Progress.holds_eq_empty hallowed.1 hallowed.2]
      exact fun _ hother => hother.elim
    | group =>
      intro other hother
      cases other with
      | friend => exact Nat.zero_lt_one
      | group => exact absurd (hallowed.symm.trans hother) Bool.false_ne_true
  | unlock mutex =>
    cases mutex
    · exact hallowed
    · exact hallowed
  | advancePump => exact Progress.holds_eq_empty hallowed.1 hallowed.2
  | _ => trivial

theorem holds_after {st : Progress} {action : Act} (result : action.Result) :
    (st.after action result).holds = mutexOrder.after st.holds action result := by
  cases action with
  | lock mutex | unlock mutex =>
    ext other
    cases mutex <;> cases other <;> simp [mutexOrder, lockOrder, Act.lockUse, Progress.holds,
      Progress.after]
  | query => cases result <;> rfl
  | update =>
    cases result
    · exact Progress.holds_congr Progress.forget_friend Progress.forget_group
    · exact Progress.holds_congr Progress.commit_friend Progress.commit_group
  | loadGeneration policy | bumpGeneration policy => cases policy <;> rfl
  | redis call =>
    obtain ⟨claimed, hcalled⟩ := st.called_eq call result
    exact (congrArg Progress.holds hcalled).trans rfl
  | findOnline =>
    cases result
    · rfl
    · exact (congrArg Progress.holds Progress.met_eq).trans rfl
  | beginOrResumeUpload | finalizeUpload | addOnline => cases result <;> rfl
  | _ => rfl

/-- The order of the mutexes is part of the discipline. -/
theorem Disciplined.ordered {task : Task} {handler : Handler Unit}
    (hdisciplined : Disciplined crypto task handler) :
    mutexOrder.Keeps handler ∅ fun _ held => held = ∅ := by
  have hkeeps := hdisciplined.simulates (R := fun st held => st.holds = held) (fun hheld hallowed => by
    subst hheld
    exact ⟨mutexOrder_allowed hallowed, holds_after⟩) (Progress.holds_eq_empty rfl rfl)
  refine hkeeps.mono ?_
  rintro _ _ ⟨st, hfree, rfl⟩
  exact Progress.holds_eq_empty hfree.friend hfree.group

theorem mutexOwner_setMutex (owner : Option ConnId) (mutex : Mutex) :
    (s.setMutex owner mutex).mutexOwner = Function.update s.mutexOwner mutex owner := by
  funext other
  cases mutex <;> cases other <;> rfl

theorem mutexOwner_exec {action : Act} {choice : Choice} {result : action.Result}
    (hexec : exec config.crypto conn action choice s = some (result, s')) :
    action.lockUse.Changes conn s.mutexOwner s'.mutexOwner := by
  have hframe : s'.view = s.view → s'.mutexOwner = s.mutexOwner := by
    intro hview
    funext mutex
    cases mutex
    · exact congrArg View.friendMutex hview
    · exact congrArg View.groupMutex hview
  cases action with
  | lock mutex | unlock mutex =>
    cases choice <;> simp only [exec] at hexec <;> try cases hexec
    split at hexec <;> cases hexec
    exact ⟨‹_›, mutexOwner_setMutex _ mutex⟩
  | update u =>
    cases choice <;> simp only [exec, Shared.execUpdate] at hexec
    all_goals try split at hexec
    all_goals cases hexec <;> rfl
  | bumpGeneration policy =>
    cases choice <;> cases hexec
    cases policy <;> rfl
  | assign | finish =>
    cases choice <;> cases hexec
    rfl
  | _ => exact hframe ((execFrame_of_exec hexec).view rfl)

/-- Unless a mutex is in the way, an action can be performed: every call can fail. -/
theorem exec_enabled {action : Act} (hwaits : action.lockUse ≠ .waits)
    (htakes : ∀ mutex, action.lockUse = .take mutex → s.mutexOwner mutex = none)
    (hgives : ∀ mutex, action.lockUse = .give mutex → s.mutexOwner mutex = some conn) :
    ∃ choice result s', exec config.crypto conn action choice s = some (result, s') := by
  cases action with
  | query | update => exact ⟨.fail [], _, _, rfl⟩
  | lock mutex => exact ⟨.proceed, (), _, if_pos (htakes mutex rfl)⟩
  | unlock mutex => exact ⟨.proceed, (), _, if_pos (hgives mutex rfl)⟩
  | now => exact ⟨.time 0, _, _, rfl⟩
  | hashPassword => exact ⟨.hashed none, _, _, rfl⟩
  | redis => exact ⟨.reply (.failed []), _, _, rfl⟩
  | beginOrResumeUpload | appendUploadBytes | removeStored => exact ⟨.file (.failed []), _, _, rfl⟩
  | finalizeUpload upload => exact ⟨.file (.failed []), _, _, rfl⟩
  | cancelUpload => exact ⟨.file .done, _, _, rfl⟩
  | advancePump => exact absurd rfl hwaits
  | findOnline username =>
    refine ⟨.proceed, ?_⟩
    simp only [exec]
    split <;> exact ⟨_, _, rfl⟩
  | _ => exact ⟨.proceed, _, _, rfl⟩

theorem mutexOwner_launch {prog : Handler Unit}
    (hlaunch : launch config useCache conn request s = some (prog, s')) :
    s'.mutexOwner = s.mutexOwner ∧
      mutexOrder.Keeps prog ∅ fun _ held => held = ∅ := by
  obtain ⟨task, handler, rfl, ⟨-, loopCalls, rfl, -⟩, hdisciplined⟩ := launch_cases hlaunch
  refine ⟨rfl, keeps_bind.mpr (hdisciplined.ordered.mono ?_)⟩
  rintro _ _ rfl
  exact ⟨trivial, fun _ => rfl⟩

def serverLocks (config : ServerConfig) (useCache : Bool) :
    Locks (server config useCache) Mutex where
  owner := Shared.mutexOwner
  use := Act.lockUse
  rank := Mutex.rank
  highest := 1
  rank_le mutex := by cases mutex <;> decide
  launched hlaunch := (mutexOwner_launch hlaunch).1
  executed hexec := mutexOwner_exec hexec
  enabled := exec_enabled

/-- **No deadlock.** However the steps of handlers interleave, a connection without a handler holds
no mutex; and a handler that is not a step of a delivery can go on, or it waits for a mutex whose
holder, or the one that holder waits for, can. -/
theorem handlers_never_deadlock {db : Database} {store : Store} {events : List ServerEvent}
    {state : ServerConfiguration}
    (hrun : Transition.Run (server config useCache).next Transition.anyStep (initial db store)
      events state) :
    (∀ conn, state.code conn = .ret () → ∀ mutex, state.shared.mutexOwner mutex ≠ some conn) ∧
      ∀ conn action next, state.code conn = .act action next →
        (∀ pump, action ≠ .advancePump pump) →
        ∃ mover choice state',
          Relation.ReflTransGen ((serverLocks config useCache).WaitsFor state) conn mover ∧
          (server config useCache).next state (.step mover choice) = some state' := by
  have hstart : (serverLocks config useCache).Kept (initial db store) := by
    intro conn
    refine Set.eq_empty_of_forall_notMem fun mutex hheld => ?_
    cases mutex <;> cases hheld
  have hkept : (serverLocks config useCache).Kept state :=
    hrun.invariant (serverLocks config useCache).Kept
      (fun _ _ _ hkept _ hnext => hkept.next (fun _ _ _ _ _ h => (mutexOwner_launch h).2) hnext)
      hstart
  refine ⟨?_, ?_⟩
  · intro conn hidle mutex howner
    have hkeeps := hkept conn
    rw [hidle, keeps_ret] at hkeeps
    exact Set.eq_empty_iff_forall_notMem.mp hkeeps mutex howner
  · intro conn action next hcode haction
    refine hkept.mover hcode fun hwaits => ?_
    cases action with
    | advancePump pump => exact haction pump rfl
    | _ => cases hwaits

/-- Bob waits for the mutex that Amy holds while a group is created, and Amy can go on. -/
def waitsForGroup : Prog Act Act.Result Unit → Bool
  | .act (.lock .group) _ => true
  | _ => false

theorem handlers_never_deadlock_create_group :
    ∃ events state action next mover choice state',
      Transition.Run (server scriptConfig true).next Transition.anyStep (initial {} {}) events state ∧
      state.code 1 = .act action next ∧ action.lockUse = .take .group ∧
      (serverLocks scriptConfig true).WaitsFor state 1 0 ∧
      Relation.ReflTransGen ((serverLocks scriptConfig true).WaitsFor state) 1 mover ∧
      (server scriptConfig true).next state (.step mover choice) = some state' := by
  have hscript : ((play (server scriptConfig true) usualChoice (fun _ _ => true) (initial {} {})
      (([0, 1].flatMap fun conn => serveMoves conn .connect) ++
        serveMoves 0 (.register (utf8 "amy pass")) ++ serveMoves 0 (.login (utf8 "amy pass")) ++
        serveMoves 1 (.register (utf8 "bob pass")) ++ serveMoves 1 (.login (utf8 "bob pass")) ++
        [.start 0 (.createGroup (utf8 "gang")), .steps 0 2,
          .start 1 (.createGroup (utf8 "crew"))])).any fun state =>
        decide (state.shared.mutexOwner .group = some 0) && waitsForGroup (state.code 1)) = true := by
    decide +kernel
  obtain ⟨events, state, hchecked, htest⟩ := play_reaches hscript
  have hrun : Transition.Run (server scriptConfig true).next Transition.anyStep (initial {} {})
      events state := hchecked.mono fun _ _ _ => trivial
  rw [Bool.and_eq_true, decide_eq_true_eq] at htest
  obtain ⟨howner, htest⟩ := htest
  unfold waitsForGroup at htest
  split at htest
  · rename_i next hcode
    obtain ⟨mover, choice, state', hchain, hnext⟩ :=
      (handlers_never_deadlock hrun).2 1 (.lock .group) next hcode (by simp)
    exact ⟨events, state, _, next, mover, choice, state', hrun, hcode, rfl,
      ⟨_, next, .group, hcode, rfl, howner⟩, hchain, hnext⟩
  · cases htest

/-- **Exclusion.** In every run, only the connection that holds the friend mutex changes friendships
and blocks, and only the one that holds the group mutex changes groups and memberships. -/
theorem tables_changed_under_mutex {db : Database} {store : Store} {events : List ServerEvent}
    {state state' : ServerConfiguration} {event : ServerEvent}
    (hrun : Transition.Run (server config useCache).next Transition.anyStep (initial db store)
      events state)
    (hnext : (server config useCache).next state event = some state') :
    (state.shared.mutexOwner .friend = some event.tid ∨
      state'.shared.db.friendships = state.shared.db.friendships ∧
        state'.shared.db.friendBlocks = state.shared.db.friendBlocks) ∧
    (state.shared.mutexOwner .group = some event.tid ∨
      state'.shared.db.groups = state.shared.db.groups ∧
        state'.shared.db.members.map (fun row => (row.groupId, row.username)) =
          state.shared.db.members.map fun row => (row.groupId, row.username)) := by
  rcases tables_of_next hnext with hdb | ⟨conn, choice, update, next, value, rfl, hcode, -, happly⟩
  · rw [hdb]
    exact ⟨.inr ⟨rfl, rfl⟩, .inr ⟨rfl, rfl⟩⟩
  · obtain ⟨st, ⟨hdirect, hgroup, -⟩, htracks⟩ := mayUpdate_of_run hrun hcode
    constructor
    · cases hchanges : update.changes .direct with
      | true => exact .inl (htracks.friend.mpr (hdirect hchanges).1)
      | false => exact .inr ((Database.apply_framed happly).direct hchanges)
    · cases hchanges : update.changes .group with
      | true => exact .inl (htracks.group.mpr (hgroup hchanges).1)
      | false => exact .inr (Database.apply_groupTables hchanges happly)

theorem tables_changed_under_mutex_new_group :
    ∃ events state state', Transition.Run (server scriptConfig true).next Transition.anyStep
        (initial {} {}) events state ∧
      (server scriptConfig true).next state (.step 0 .proceed) = some state' ∧
      state.shared.db.groups = [] ∧ state'.shared.db.groups ≠ [] ∧
      state.shared.mutexOwner .group = some 0 := by
  have hscript : ((play (server scriptConfig true) usualChoice (fun _ _ => true) (initial {} {})
      (serveMoves 0 .connect ++ serveMoves 0 (.register (utf8 "amy pass")) ++
        serveMoves 0 (.login (utf8 "amy pass")) ++
        [.start 0 (.createGroup (utf8 "gang")), .steps 0 2])).any fun state =>
        state.shared.db.groups.isEmpty &&
          ((server scriptConfig true).next state (.step 0 .proceed)).any fun state' =>
            !state'.shared.db.groups.isEmpty) = true := by
    decide +kernel
  obtain ⟨events, state, hchecked, htest⟩ := play_reaches hscript
  have hrun := hchecked.mono fun _ _ _ => trivial
  simp only [Bool.and_eq_true, Option.any_eq_true, List.isEmpty_iff, Bool.not_eq_true'] at htest
  obtain ⟨hbefore, state', hnext, hafter⟩ := htest
  have hgroups : state'.shared.db.groups ≠ [] := by
    intro hnone
    simp [hnone] at hafter
  refine ⟨events, state, state', hrun, hnext, hbefore, hgroups, ?_⟩
  refine (tables_changed_under_mutex hrun hnext).2.resolve_right fun hsame => hgroups ?_
  rw [hsame.1, hbefore]

end Locks

end ChatRoom
