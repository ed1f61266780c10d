import ChatRoom.Threads.EventLoop

/-!
# The thread of an event loop

`minimuduo/net/EventLoopThread.cpp`. `startLoop` starts a thread and returns the pointer to the loop
that the thread publishes before it calls `EventLoop::loop`. From then on the loop can be told to
quit, by the destructor or by any thread that has been given the pointer.
-/

namespace ChatRoom.EventLoop

open Transition

inductive Worker where
  | unstarted
  | constructing
  /-- The pointer is published; the exchange of `looping_` in `loop` comes next. -/
  | entering
  /-- Before the store to `quit_` in `loop`. -/
  | resetting
  | looping
  | leaving
  | ended
  deriving DecidableEq, Repr

inductive Destructor where
  | idle
  | quitting
  | waking
  | joining
  | done
  deriving DecidableEq, Repr

/-- The destructor runs in the thread `none`. -/
structure LoopThread (Thread : Type) where
  worker : Worker := .unstarted
  destructor : Destructor := .idle
  looping : Bool := false
  /-- `loop_` is not null. -/
  published : Bool := false
  returned : Bool := false
  loop : Loop (Option Thread)
  /-- A call of `quit` that was made after `startLoop` returned has completed. -/
  quitCompleted : Bool := false

namespace LoopThread

inductive Event (Thread : Type) where
  | start
  | publish
  | startLoopReturns
  | enter
  | reset
  | loop (event : EventLoop.Event (Option Thread))
  | leave
  | clear
  | readPointer
  | join

variable {Thread : Type}

/-- Who may make a step on the loop. It no longer exists when `threadFunction` has returned. -/
def permits (s : LoopThread Thread) : EventLoop.Event (Option Thread) → Bool
  | .queue none => false
  | .quit none => s.destructor = .quitting && s.worker ≠ .ended
  | .wake none => s.destructor = .waking && s.worker ≠ .ended
  | .queue (some _) | .quit (some _) | .wake (some _) => s.returned && s.worker ≠ .ended
  | _ => s.worker = .looping

def destructorAfter (s : LoopThread Thread) : EventLoop.Event (Option Thread) → Destructor
  | .quit none => .waking
  | .wake none => .joining
  | _ => s.destructor

def completesQuit (s : LoopThread Thread) : EventLoop.Event (Option Thread) → Bool
  | .wake thread => s.loop.threads thread = .quitting
  | .quitHere => s.returned
  | _ => false

variable [DecidableEq Thread]

def next (s : LoopThread Thread) : Event Thread → Option (LoopThread Thread)
  | .start => if s.worker = .unstarted then some { s with worker := .constructing } else none
  | .publish =>
    if s.worker = .constructing then some { s with worker := .entering, published := true } else none
  | .startLoopReturns => if s.published then some { s with returned := true } else none
  | .enter =>
    if s.worker = .entering ∧ s.looping = false then
      some { s with worker := .resetting, looping := true }
    else none
  | .reset =>
    if s.worker = .resetting then
      some { s with worker := .looping, loop := { s.loop with quit := false } }
    else none
  | .loop event =>
    if s.permits event then
      (s.loop.next event).map fun loop =>
        { s with
          loop
          destructor := s.destructorAfter event
          quitCompleted := s.quitCompleted || s.completesQuit event }
    else none
  | .leave =>
    if s.worker = .looping ∧ s.loop.stage = .ended then
      some { s with worker := .leaving, looping := false }
    else none
  | .clear =>
    if s.worker = .leaving then some { s with worker := .ended, published := false } else none
  | .readPointer =>
    if s.returned ∧ s.destructor = .idle then
      some { s with destructor := if s.published then .quitting else .joining }
    else none
  | .join =>
    if s.destructor = .joining ∧ s.worker = .ended then some { s with destructor := .done }
    else none

def fresh : LoopThread Thread where
  loop := entered 0 0 fun _ => .idle

/-- `loop` has made its store to `quit_`. -/
def hasReset (s : LoopThread Thread) : Bool :=
  s.worker = .looping || s.worker = .leaving || s.worker = .ended

/-- No call of `quit` stores to `quit_` before `loop` does. -/
def QuitsAfterReset (s : LoopThread Thread) (event : Event Thread) : Prop :=
  ∀ thread, event = .loop (.quit thread) → s.hasReset = true

end LoopThread

/-! ### The flag within a run of the loop -/

section Flag

variable {Thread : Type} {s s' : Loop Thread} {event : Event Thread}

theorem advance_quit (hnext : s.advance event = some s') :
    (s.quit = true ∨ event = .quitHere → s'.quit = true) ∧ s'.threads = s.threads := by
  cases event with
  | wakeHere | queue | quit | wake => cases hnext
  | _ =>
    simp only [Loop.advance] at hnext
    split at hnext <;> cases hnext <;> simp [Loop.push]

variable [DecidableEq Thread]

theorem next_quit (hnext : s.next event = some s') :
    (s.quit = true ∨ event = .quitHere → s'.quit = true) ∧
      ∀ thread, s'.threads thread = .quitting →
        s.threads thread = .quitting ∨ event = .quit thread ∧ s'.quit = true := by
  cases event with
  | wakeHere =>
    simp only [Loop.next] at hnext
    split at hnext <;> cases hnext
    exact ⟨by simp [Loop.wakeup], fun _ => .inl⟩
  | queue caller | wake caller =>
    simp only [Loop.next] at hnext
    split at hnext <;> cases hnext
    refine ⟨by simp [Loop.push, Loop.wakeup], fun thread hquitting => .inl ?_⟩
    dsimp only [Loop.wakeup] at hquitting
    by_cases hsame : thread = caller
    · rw [hsame, Function.update_self] at hquitting
      cases hquitting
    · rwa [Function.update_of_ne hsame] at hquitting
  | quit caller =>
    simp only [Loop.next] at hnext
    split at hnext <;> cases hnext
    refine ⟨fun _ => rfl, fun thread hquitting => ?_⟩
    dsimp only at hquitting
    by_cases hsame : thread = caller
    · exact .inr ⟨by rw [hsame], rfl⟩
    · rw [Function.update_of_ne hsame] at hquitting
      exact .inl hquitting
  | _ =>
    simp only [Loop.next] at hnext
    split at hnext
    · obtain ⟨hquit, hthreads⟩ := advance_quit hnext
      exact ⟨hquit, fun thread hquitting => .inl (by rwa [hthreads] at hquitting)⟩
    · cases hnext

end Flag

/-! ### Requests to quit -/

namespace LoopThread

variable {Thread : Type} {s s' : LoopThread Thread}

def Requested (s : LoopThread Thread) : Prop :=
  s.quitCompleted = true ∨ ∃ thread, s.loop.threads thread = .quitting

def Heeded (s : LoopThread Thread) : Prop :=
  s.Requested → s.loop.quit = true ∧ s.hasReset = true

theorem Heeded.still (h : s.Heeded) (hloop : s'.loop = s.loop)
    (hcompleted : s'.quitCompleted = s.quitCompleted)
    (hreset : s.hasReset = true → s'.hasReset = true) : s'.Heeded := by
  intro hrequested
  rw [Requested, hloop, hcompleted] at hrequested
  obtain ⟨hquit, hpast⟩ := h hrequested
  exact ⟨by rw [hloop, hquit], hreset hpast⟩

theorem Heeded.reset (h : s.Heeded) (hworker : s.worker = .resetting) :
    Heeded { s with worker := .looping, loop := { s.loop with quit := false } } := by
  intro hrequested
  -- nobody has asked yet: whoever asks does so after this store
  have hpast := (h hrequested).2
  simp [hasReset, hworker] at hpast

variable [DecidableEq Thread]

theorem Heeded.loop (h : s.Heeded) {event : EventLoop.Event (Option Thread)} {loop : Loop (Option Thread)}
    (hlate : ∀ thread, event = .quit thread → s.hasReset = true) (hpermits : s.permits event = true)
    (hnext : s.loop.next event = some loop) :
    Heeded { s with
      loop
      destructor := s.destructorAfter event
      quitCompleted := s.quitCompleted || s.completesQuit event } := by
  obtain ⟨hquit, hthreads⟩ := next_quit hnext
  have hkept : s.Requested → loop.quit = true ∧ s.hasReset = true := fun hrequested =>
    ⟨hquit (.inl (h hrequested).1), (h hrequested).2⟩
  rintro (hcompleted | ⟨thread, hquitting⟩)
  · rcases Bool.or_eq_true_iff.mp hcompleted with hcompleted | hcompletes
    · exact hkept (.inl hcompleted)
    · cases event with
      | wake thread => exact hkept (.inr ⟨thread, of_decide_eq_true hcompletes⟩)
      | quitHere =>
        have hlooping : s.worker = .looping := of_decide_eq_true hpermits
        exact ⟨hquit (.inr rfl), by simp [hasReset, hlooping]⟩
      | _ => cases hcompletes
  · rcases hthreads thread hquitting with hquitting | ⟨hevent, hset⟩
    · exact hkept (.inr ⟨thread, hquitting⟩)
    · exact ⟨hset, hlate thread hevent⟩

theorem Heeded.next (h : s.Heeded) {event : Event Thread} (hok : QuitsAfterReset s event)
    (hnext : s.next event = some s') : s'.Heeded := by
  cases event with
  | loop event =>
    simp only [LoopThread.next] at hnext
    split at hnext
    · rename_i hpermits
      obtain ⟨loop, hloop, rfl⟩ := Option.map_eq_some_iff.mp hnext
      exact h.loop (fun thread hevent => hok thread (by rw [hevent])) hpermits hloop
    · cases hnext
  | reset =>
    simp only [LoopThread.next] at hnext
    split at hnext <;> cases hnext
    exact h.reset ‹_›
  | start | publish | enter | leave | clear =>
    simp only [LoopThread.next] at hnext
    split at hnext <;> cases hnext
    exact h.still rfl rfl (by simp_all [hasReset])
  | startLoopReturns | readPointer | join =>
    simp only [LoopThread.next] at hnext
    split at hnext <;> cases hnext
    exact h.still rfl rfl id

/-- **A request to quit is not lost.** Once a call of `quit` has completed after `startLoop` returned,
the flag is set in every state that follows, and the loop ends at its next test: in every run in which
no call of `quit` makes its store before that of `loop`. -/
theorem quit_never_lost (events : List (Event Thread)) (s : LoopThread Thread)
    (hrun : Run next QuitsAfterReset fresh events s) (hquit : s.quitCompleted = true) :
    s.loop.quit = true ∧ ∀ s', s.next (.loop .test) = some s' → s'.loop.stage = .ended := by
  have hheeded : s.Heeded := by
    refine hrun.invariant Heeded (fun _ _ _ h hok hnext => h.next hok hnext) ?_
    rintro (hcompleted | ⟨thread, hquitting⟩)
    · cases hcompleted
    · cases hquitting
  have hset := (hheeded (.inl hquit)).1
  refine ⟨hset, fun s' hnext => ?_⟩
  simp only [next] at hnext
  split at hnext
  · obtain ⟨loop, hloop, rfl⟩ := Option.map_eq_some_iff.mp hnext
    simp only [Loop.next, Loop.advance, hset, if_true] at hloop
    split at hloop
    · split at hloop <;> cases hloop
      rfl
    · cases hloop
  · cases hnext

def quitsAfterReset (s : LoopThread Thread) : Event Thread → Bool
  | .loop (.quit _) => s.hasReset
  | _ => true

def lateQuit : List (Event Unit) :=
  [.start, .publish, .startLoopReturns, .enter, .reset, .loop .test, .readPointer, .loop (.quit none),
    .loop (.wake none)]

theorem quit_never_lost_late :
    ∃ s : LoopThread Unit, Run next QuitsAfterReset fresh lateQuit s ∧ s.quitCompleted = true ∧
      s.loop.quit = true := by
  have htest : (replay next quitsAfterReset fresh lateQuit).any (fun s => s.quitCompleted) = true := by
    decide +kernel
  have hcheck : ∀ (s : LoopThread Unit) (event : Event Unit), quitsAfterReset s event = true →
      QuitsAfterReset s event := by
    rintro s _ hreset thread rfl
    exact hreset
  obtain ⟨s, hrun, hs⟩ := replay_reaches hcheck htest
  exact ⟨s, hrun, hs, (quit_never_lost lateQuit s hrun hs).1⟩

def earlyQuit : List (Event Unit) :=
  [.start, .publish, .startLoopReturns, .readPointer, .loop (.quit none), .loop (.wake none), .enter,
    .reset, .loop .test]

/-- The loop goes to sleep, and the destructor waits for the thread to end. -/
theorem quit_lost_before_reset :
    ∃ s : LoopThread Unit, Run next anyStep fresh earlyQuit s ∧ s.quitCompleted = true ∧
      s.loop.quit = false ∧ s.loop.stage = .polling ∧ s.destructor = .joining := by
  have htest : (replay next (fun _ _ => true) fresh earlyQuit).any
      (fun s => s.quitCompleted && !s.loop.quit && s.loop.stage == .polling &&
        s.destructor == .joining) = true := by
    decide +kernel
  have hcheck : ∀ (s : LoopThread Unit) (event : Event Unit), true = true → anyStep s event :=
    fun _ _ _ => trivial
  obtain ⟨s, hrun, hs⟩ := replay_reaches hcheck htest
  simp only [Bool.and_eq_true, Bool.not_eq_true', beq_iff_eq] at hs
  exact ⟨s, hrun, hs.1.1.1, hs.1.1.2, hs.1.2, hs.2⟩

end LoopThread

end ChatRoom.EventLoop
