import ChatRoom.Lib.Runs

/-!
# The delivery persist thread and the destructor of the server

`ChatServer::~ChatServer`, `enqueue_delivery_persist` and `delivery_persist_loop` of
`chat_server.cpp`. The wait on `delivery_persist_cv_` is taken apart: the predicate is evaluated
while the thread holds `delivery_persist_mutex_`, and in a further step the mutex is released and
the thread asleep.
-/

namespace ChatRoom.Persist

open Transition

inductive Worker where
  | checking
  /-- The predicate was false; holds the mutex. -/
  | blocking
  | asleep
  /-- The predicate was true; holds the mutex. -/
  | leaving
  | marking (task : Nat)
  | exited
  deriving DecidableEq, Repr

inductive Destructor where
  | uncalled
  /-- `stopping_` is stored; `presence_wait_cv_.notify_all` is next. -/
  | stored
  /-- `delivery_persist_cv_.notify_all` is next. -/
  | notifying
  | joiningPresence
  /-- In `delivery_persist_thread_.join`. -/
  | joining
  | joined
  deriving DecidableEq, Repr

structure State (Thread : Type) where
  stopping : Bool := false
  queue : List Nat := []
  worker : Worker := .checking
  destructor : Destructor := .uncalled
  /-- Whether a thread is in `enqueue_delivery_persist`, before `notify_one`. -/
  notifying : Thread → Bool := fun _ => false
  /-- The number of tasks that have been put into the queue. -/
  enqueued : Nat := 0

inductive Event (Thread : Type) where
  | evaluate
  | sleep
  | leave
  | marked
  | wake
  | store
  | notifyPresence
  | notifyAll
  | joinPresence
  | join
  | enqueue (thread : Thread)
  | notifyOne (thread : Thread)
  deriving DecidableEq

namespace State

variable {Thread : Type}

def holdsMutex : Worker → Bool
  | .blocking | .leaving => true
  | _ => false

def notify (s : State Thread) : State Thread :=
  { s with worker := if s.worker = .asleep then .checking else s.worker }

def leave (s : State Thread) : State Thread :=
  match s.queue with
  | [] => { s with worker := if s.stopping then .exited else .checking }
  | task :: queue => { s with queue, worker := .marking task }

variable [DecidableEq Thread]

def next (s : State Thread) : Event Thread → Option (State Thread)
  | .evaluate =>
    if s.worker = .checking then
      some { s with worker := if s.stopping || !s.queue.isEmpty then .leaving else .blocking }
    else none
  | .sleep => if s.worker = .blocking then some { s with worker := .asleep } else none
  | .leave => if s.worker = .leaving then some s.leave else none
  | .marked =>
    match s.worker with
    | .marking _ => some { s with worker := .checking }
    | _ => none
  | .wake => if s.worker = .asleep then some s.notify else none
  | .store =>
    if s.destructor = .uncalled then some { s with stopping := true, destructor := .stored } else none
  | .notifyPresence =>
    if s.destructor = .stored then some { s with destructor := .notifying } else none
  | .notifyAll =>
    if s.destructor = .notifying then some { s.notify with destructor := .joiningPresence } else none
  | .joinPresence =>
    if s.destructor = .joiningPresence then some { s with destructor := .joining } else none
  | .join =>
    if s.destructor = .joining ∧ s.worker = .exited then some { s with destructor := .joined } else none
  | .enqueue thread =>
    if s.notifying thread = false ∧ holdsMutex s.worker = false then
      some { s with
        queue := s.queue ++ [s.enqueued]
        enqueued := s.enqueued + 1
        notifying := Function.update s.notifying thread true }
    else none
  | .notifyOne thread =>
    if s.notifying thread = true then
      some { s.notify with notifying := Function.update s.notifying thread false }
    else none

end State

variable {Thread : Type} [DecidableEq Thread]

/-- The destructor waits for a thread that is asleep, and nobody is on the way to wake it. -/
def Hangs (s : State Thread) : Prop :=
  s.destructor = .joining ∧ s.worker = .asleep ∧ s.stopping = true ∧
    ∀ thread, s.notifying thread = false

/-- The destructor does not notify between an evaluation of the predicate to false and the sleep. -/
def NotifiesApart (s : State Thread) (event : Event Thread) : Prop :=
  event = .notifyAll → s.worker ≠ .blocking

instance (s : State Thread) (event : Event Thread) : Decidable (NotifiesApart s event) :=
  inferInstanceAs (Decidable (event = .notifyAll → s.worker ≠ .blocking))

/-- A thread that sleeps, or is about to, after the store has the notification of the destructor to
come. -/
def Awaited (s : State Thread) : Prop :=
  s.worker = .blocking ∨ s.worker = .asleep → s.stopping = true →
    s.destructor = .stored ∨ s.destructor = .notifying

variable {s s' : State Thread}

omit [DecidableEq Thread] in
theorem notify_not_asleep (s : State Thread) : s.notify.worker ≠ .asleep := by
  unfold State.notify
  dsimp only
  split
  · nofun
  · assumption

omit [DecidableEq Thread] in
theorem notify_blocking (h : s.notify.worker = .blocking) : s.worker = .blocking := by
  unfold State.notify at h
  dsimp only at h
  split at h
  · cases h
  · exact h

omit [DecidableEq Thread] in
theorem awaited_of_awake (hblocking : s.worker ≠ .blocking) (hasleep : s.worker ≠ .asleep) :
    Awaited s :=
  fun h => absurd h (not_or.mpr ⟨hblocking, hasleep⟩)

omit [DecidableEq Thread] in
theorem Awaited.notify (h : Awaited s) : Awaited s.notify := by
  rintro (hblocking | hasleep)
  · exact h (.inl (notify_blocking hblocking))
  · exact absurd hasleep (notify_not_asleep s)

omit [DecidableEq Thread] in
theorem awaited_leave : Awaited s.leave := by
  unfold State.leave
  split
  · cases hstopping : s.stopping <;> exact awaited_of_awake (by simp) (by simp)
  · exact awaited_of_awake (by simp) (by simp)

theorem Awaited.next (h : Awaited s) {event : Event Thread} (hapart : NotifiesApart s event)
    (hnext : s.next event = some s') : Awaited s' := by
  cases event with
  | evaluate =>
    simp only [State.next] at hnext
    split at hnext <;> cases hnext
    cases hpredicate : (s.stopping || !s.queue.isEmpty) with
    | true => exact awaited_of_awake (by simp) (by simp)
    | false =>
      intro _ hstopping
      cases (Bool.or_eq_false_iff.mp hpredicate).1.symm.trans hstopping
  | sleep =>
    simp only [State.next] at hnext
    split at hnext <;> cases hnext
    rename_i hblocking
    exact fun _ => h (.inl hblocking)
  | leave =>
    simp only [State.next] at hnext
    split at hnext <;> cases hnext
    exact awaited_leave
  | marked =>
    simp only [State.next] at hnext
    split at hnext <;> cases hnext
    exact awaited_of_awake nofun nofun
  | wake =>
    simp only [State.next] at hnext
    split at hnext <;> cases hnext
    exact h.notify
  | store =>
    simp only [State.next] at hnext
    split at hnext <;> cases hnext
    exact fun _ _ => .inl rfl
  | notifyPresence =>
    simp only [State.next] at hnext
    split at hnext <;> cases hnext
    exact fun _ _ => .inr rfl
  | notifyAll =>
    simp only [State.next] at hnext
    split at hnext <;> cases hnext
    rintro (hblocking | hasleep)
    · exact absurd (notify_blocking hblocking) (hapart rfl)
    · exact absurd hasleep (notify_not_asleep s)
  | joinPresence =>
    simp only [State.next] at hnext
    split at hnext <;> cases hnext
    rename_i hjoining
    intro hsleeps hstopping
    rcases h hsleeps hstopping with hother | hother <;> cases hjoining.symm.trans hother
  | join =>
    simp only [State.next] at hnext
    split at hnext <;> cases hnext
    rename_i hexited
    exact awaited_of_awake (by simp [hexited.2]) (by simp [hexited.2])
  | enqueue thread =>
    simp only [State.next] at hnext
    split at hnext <;> cases hnext
    exact h
  | notifyOne thread =>
    simp only [State.next] at hnext
    split at hnext <;> cases hnext
    exact h.notify

/-- **The destructor does not hang on a lost wake-up** in a run in which it does not notify between an
evaluation of the predicate to false and the sleep. -/
theorem destructor_not_hanging (events : List (Event Thread)) (s : State Thread)
    (hrun : Run State.next NotifiesApart ({} : State Thread) events s) : ¬Hangs s := by
  rintro ⟨hjoining, hasleep, hstopping, -⟩
  have hawaited : Awaited s :=
    hrun.invariant Awaited (fun _ _ _ h hapart hnext => h.next hapart hnext)
      (awaited_of_awake (by simp) (by simp))
  rcases hawaited (.inr hasleep) hstopping with hother | hother <;> cases hjoining.symm.trans hother

def asleepBefore : List (Event Unit) :=
  [.enqueue (), .evaluate, .leave, .marked, .notifyOne (), .evaluate, .store, .sleep, .notifyPresence,
    .notifyAll, .joinPresence]

theorem destructor_not_hanging_asleep_before :
    ∃ s, Run State.next NotifiesApart {} asleepBefore s ∧ s.destructor = .joining ∧ ¬Hangs s := by
  have htest : (replay State.next (fun s event => decide (NotifiesApart s event)) {} asleepBefore).any
      (fun s => s.destructor == .joining) = true := by
    decide +kernel
  obtain ⟨s, hrun, hs⟩ := replay_reaches (fun _ _ => of_decide_eq_true) htest
  exact ⟨s, hrun, eq_of_beq hs, destructor_not_hanging asleepBefore s hrun⟩

def storedBetween : List (Event Empty) :=
  [.evaluate, .store, .notifyPresence, .notifyAll, .sleep, .joinPresence]

/-- With no other thread left, only a wait that ends by itself would get the destructor out of this
state. -/
theorem destructor_hangs : ∃ s, Run State.next anyStep ({} : State Empty) storedBetween s ∧ Hangs s ∧
    ∀ event, event ≠ .wake → s.next event = none := by
  have htest : (replay State.next (fun _ _ => true) ({} : State Empty) storedBetween).any
      (fun s => s.destructor == .joining && s.worker == .asleep && s.stopping) = true := by
    decide +kernel
  have hcheck : ∀ (s : State Empty) (event : Event Empty), true = true → anyStep s event :=
    fun _ _ _ => trivial
  obtain ⟨s, hrun, hs⟩ := replay_reaches hcheck htest
  simp only [Bool.and_eq_true, beq_iff_eq] at hs
  obtain ⟨⟨hjoining, hasleep⟩, hstopping⟩ := hs
  refine ⟨s, hrun, ⟨hjoining, hasleep, hstopping, nofun⟩, fun event hwake => ?_⟩
  cases event with
  | wake => exact absurd rfl hwake
  | enqueue thread | notifyOne thread => cases thread
  | _ => simp [State.next, hjoining, hasleep]

end ChatRoom.Persist
