import ChatRoom.Lib.Runs
import Mathlib.Algebra.Group.Nat.Defs
import Mathlib.Data.List.Range

/-!
# The event loop

`minimuduo/net/EventLoop.cpp`. The steps are the sections that hold `mutex_`, the writes and the
read of the wake-up counter, `poll`, and the loads and stores of the flags. Event handlers and
functors run in the thread of the loop; all that matters of them is which calls of the loop they
make.
-/

namespace ChatRoom.EventLoop

open Transition

inductive Stage where
  /-- At the test of `quit_`. -/
  | testing
  /-- About to block in `poll`. -/
  | polling
  | handling (wakeup : Bool)
  | swapping
  | running
  /-- `loop` has returned or thrown. -/
  | ended
  deriving DecidableEq, Repr

/-- A call of `queueInLoop` or `quit` whose write to the counter is still to come. -/
inductive Call where
  | idle
  | waking (functor : Nat)
  | quitting
  deriving DecidableEq, Repr

structure Loop (Thread : Type) where
  stage : Stage := .testing
  quit : Bool := false
  callingPendingFunctors : Bool := false
  pendingFunctors : List Nat
  /-- The vector that `doPendingFunctors` has swapped out, without those it has called. -/
  functors : List Nat := []
  /-- The counter behind `wakeupFd_`; the descriptor is readable if it is not zero. -/
  counter : Nat
  /-- The call that the thread of the loop is in. -/
  here : Call := .idle
  threads : Thread → Call
  queued : Nat
  executed : List Nat := []

inductive Event (Thread : Type) where
  | test
  /-- `poll` returns, with the wake-up channel among the active ones or without it. -/
  | poll (wakeup : Bool)
  | handleWakeupRead
  | beginFunctors
  | swap
  | run
  | endFunctors
  | throws
  | queueHere
  | quitHere
  | wakeHere
  | queue (thread : Thread)
  | quit (thread : Thread)
  | wake (thread : Thread)

/-- The value that a write cannot go beyond; the write then fails and the counter stays. -/
def maxCounter : Nat := 2 ^ 64 - 2

namespace Loop

variable {Thread : Type}

def wakeup (s : Loop Thread) : Loop Thread :=
  { s with counter := if s.counter < maxCounter then s.counter + 1 else s.counter }

def push (s : Loop Thread) : Loop Thread :=
  { s with pendingFunctors := s.pendingFunctors ++ [s.queued], queued := s.queued + 1 }

/-- What the thread of the loop does next when it is in no call. -/
def advance (s : Loop Thread) : Event Thread → Option (Loop Thread)
  | .test =>
    if s.stage = .testing then some { s with stage := if s.quit then .ended else .polling } else none
  | .poll wakeup =>
    if s.stage = .polling ∧ (wakeup = true → 0 < s.counter) then
      some { s with stage := .handling wakeup }
    else none
  | .handleWakeupRead =>
    if s.stage = .handling true then some { s with stage := .handling false, counter := 0 } else none
  | .beginFunctors =>
    if s.stage = .handling false then
      some { s with stage := .swapping, callingPendingFunctors := true }
    else none
  | .swap =>
    if s.stage = .swapping then
      some { s with stage := .running, functors := s.pendingFunctors, pendingFunctors := [] }
    else none
  | .run =>
    match s.stage, s.functors with
    | .running, functor :: functors => some { s with functors, executed := s.executed ++ [functor] }
    | _, _ => none
  | .endFunctors =>
    if s.stage = .running ∧ s.functors = [] then
      some { s with stage := .testing, callingPendingFunctors := false }
    else none
  | .throws =>
    match s.stage with
    | .handling _ | .running => some { s with stage := .ended }
    | _ => none
  | .queueHere =>
    match s.stage with
    | .handling _ | .running =>
      some { s.push with here := if s.callingPendingFunctors then .waking s.queued else .idle }
    | _ => none
  | .quitHere =>
    match s.stage with
    | .handling _ | .running => some { s with quit := true }
    | _ => none
  | _ => none

variable [DecidableEq Thread]

def next (s : Loop Thread) : Event Thread → Option (Loop Thread)
  | .wakeHere => if s.here = .idle then none else some { s.wakeup with here := .idle }
  | .queue thread =>
    if s.threads thread = .idle then
      some { s.push with threads := Function.update s.threads thread (.waking s.queued) }
    else none
  | .quit thread =>
    if s.threads thread = .idle then
      some { s with quit := true, threads := Function.update s.threads thread .quitting }
    else none
  | .wake thread =>
    if s.threads thread = .idle then none
    else some { s.wakeup with threads := Function.update s.threads thread .idle }
  | event => if s.here = .idle then s.advance event else none

end Loop

/-- `loop` has been entered. Some functors may have been queued before, and other threads may be in
calls that they made before. -/
def entered {Thread : Type} (old counter : Nat) (threads : Thread → Call) : Loop Thread :=
  { pendingFunctors := List.range old, counter, threads, queued := old }

/-! ### The invariant -/

variable {Thread : Type} {s s' : Loop Thread}

/-- The wake-up of a functor has been made, or its call has it still to make. -/
def Signalled (s : Loop Thread) (functor : Nat) : Prop :=
  0 < s.counter ∨ s.here = .waking functor ∨ ∃ thread, s.threads thread = .waking functor

structure Sound (old : Nat) (s : Loop Thread) : Prop where
  order : s.executed ++ s.functors ++ s.pendingFunctors = List.range s.queued
  calling : s.stage = .swapping ∨ s.stage = .running → s.callingPendingFunctors = true
  emptied : s.stage ≠ .running → s.stage ≠ .ended → s.functors = []
  outside : s.stage = .testing ∨ s.stage = .polling → s.here = .idle
  /-- The counter is read before the swap only, so from the swap on to `poll` nothing is missed. -/
  signalled : s.stage = .running ∨ s.stage = .testing ∨ s.stage = .polling →
    ∀ functor ∈ s.pendingFunctors, old ≤ functor → Signalled s functor

theorem sound_entered (old counter : Nat) (threads : Thread → Call) :
    Sound old (entered old counter threads) where
  order := rfl
  calling := by simp [entered]
  emptied := fun _ _ => rfl
  outside := fun _ => rfl
  signalled := fun _ _ hmem hold => absurd (List.mem_range.mp hmem) (Nat.not_lt.mpr hold)

theorem wakeup_counter_pos (s : Loop Thread) : 0 < s.wakeup.counter := by
  unfold Loop.wakeup
  dsimp only
  split
  · exact Nat.succ_pos _
  · rename_i hmax
    exact Nat.lt_of_lt_of_le (by decide) (Nat.le_of_not_lt hmax)

variable {old : Nat}

theorem Sound.push_order (h : Sound old s) :
    s.executed ++ s.functors ++ (s.pendingFunctors ++ [s.queued]) = List.range (s.queued + 1) := by
  rw [List.range_succ, ← h.order, List.append_assoc _ _ [s.queued]]

theorem Sound.signalled_push (h : Sound old s)
    (hstage : s.stage = .running ∨ s.stage = .testing ∨ s.stage = .polling)
    (hothers : ∀ functor, Signalled s functor → Signalled s' functor)
    (hnew : Signalled s' s.queued) :
    ∀ functor ∈ s.pendingFunctors ++ [s.queued], old ≤ functor → Signalled s' functor := by
  intro functor hmem hold
  rcases List.mem_append.mp hmem with hmem | hmem
  · exact hothers functor (h.signalled hstage functor hmem hold)
  · rwa [List.mem_singleton.mp hmem]

theorem Sound.swap (h : Sound old s) (hswapping : s.stage = .swapping) :
    Sound old { s with stage := .running, functors := s.pendingFunctors, pendingFunctors := [] } := by
  have horder := h.order
  rw [h.emptied (by simp [hswapping]) (by simp [hswapping]), List.append_nil] at horder
  refine ⟨?_, fun _ => h.calling (.inl hswapping), fun hne => absurd rfl hne, by simp, by simp⟩
  rwa [List.append_nil]

theorem Sound.run (h : Sound old s) {functor : Nat} {functors : List Nat}
    (hrunning : s.stage = .running) (hfunctors : s.functors = functor :: functors) :
    Sound old { s with functors, executed := s.executed ++ [functor] } := by
  have horder := h.order
  rw [hfunctors] at horder
  refine ⟨?_, h.calling, fun hne => absurd hrunning hne, h.outside, h.signalled⟩
  rw [← horder, List.append_assoc s.executed, List.singleton_append]

theorem Sound.queueHere (h : Sound old s) (hrunning : s.stage = .running) (hidle : s.here = .idle) :
    Sound old { s.push with here := .waking s.queued } := by
  refine ⟨h.push_order, h.calling, h.emptied, by simp [Loop.push, hrunning], fun _ => ?_⟩
  refine h.signalled_push (.inl hrunning) (fun functor hsignalled => ?_) (.inr (.inl rfl))
  exact hsignalled.imp_right fun hcall => .inr (hcall.resolve_left (by simp [hidle]))

theorem Sound.advance (h : Sound old s) (hidle : s.here = .idle) {event : Event Thread}
    (hnext : s.advance event = some s') : Sound old s' := by
  cases event with
  | test =>
    simp only [Loop.advance] at hnext
    split at hnext <;> cases hnext
    rename_i htesting
    have hempty := h.emptied (by simp [htesting]) (by simp [htesting])
    refine ⟨h.order, ?_, fun _ _ => hempty, fun _ => hidle,
      fun _ => h.signalled (.inr (.inl htesting))⟩
    cases s.quit <;> simp
  | poll wakeup =>
    simp only [Loop.advance] at hnext
    split at hnext <;> cases hnext
    rename_i hpolling
    exact ⟨h.order, by simp, fun _ _ => h.emptied (by simp [hpolling]) (by simp [hpolling]),
      by simp, by simp⟩
  | handleWakeupRead | beginFunctors =>
    simp only [Loop.advance] at hnext
    split at hnext <;> cases hnext
    rename_i hhandling
    exact ⟨h.order, by simp, fun _ _ => h.emptied (by simp [hhandling]) (by simp [hhandling]),
      by simp, by simp⟩
  | swap =>
    simp only [Loop.advance] at hnext
    split at hnext <;> cases hnext
    exact h.swap ‹_›
  | run =>
    simp only [Loop.advance] at hnext
    split at hnext <;> cases hnext
    exact h.run ‹_› ‹_›
  | endFunctors =>
    simp only [Loop.advance] at hnext
    split at hnext <;> cases hnext
    rename_i hrunning
    exact ⟨h.order, by simp, fun _ _ => hrunning.2, fun _ => hidle,
      fun _ => h.signalled (.inl hrunning.1)⟩
  | throws =>
    simp only [Loop.advance] at hnext
    split at hnext <;> cases hnext <;>
      exact ⟨h.order, by simp, fun _ hne => absurd rfl hne, by simp, by simp⟩
  | queueHere =>
    simp only [Loop.advance] at hnext
    split at hnext <;> cases hnext
    · -- a handler: the swap that takes the functor is still to come
      rename_i hhandling
      exact ⟨h.push_order, h.calling, h.emptied, by simp [Loop.push, hhandling],
        by simp [Loop.push, hhandling]⟩
    · rename_i hrunning
      rw [if_pos (h.calling (.inr hrunning))]
      exact h.queueHere hrunning hidle
  | quitHere =>
    simp only [Loop.advance] at hnext
    split at hnext <;> cases hnext <;> exact { h with }
  | wakeHere | queue | quit | wake => cases hnext

section Threads

variable [DecidableEq Thread]

theorem signalled_update {functor : Nat} {thread : Thread} {call : Call}
    (hidle : s.threads thread = .idle) (hsignalled : Signalled s functor) :
    Signalled { s with threads := Function.update s.threads thread call } functor := by
  refine hsignalled.imp_right (Or.imp_right ?_)
  rintro ⟨other, hother⟩
  refine ⟨other, (Function.update_of_ne ?_ _ _).trans hother⟩
  rintro rfl
  cases hidle.symm.trans hother

theorem Sound.next (h : Sound old s) {event : Event Thread} (hnext : s.next event = some s') :
    Sound old s' := by
  cases event with
  | wakeHere =>
    simp only [Loop.next] at hnext
    split at hnext <;> cases hnext
    exact ⟨h.order, h.calling, h.emptied, fun _ => rfl, fun _ _ _ _ => .inl (wakeup_counter_pos s)⟩
  | wake thread =>
    simp only [Loop.next] at hnext
    split at hnext <;> cases hnext
    exact ⟨h.order, h.calling, h.emptied, h.outside, fun _ _ _ _ => .inl (wakeup_counter_pos s)⟩
  | queue thread =>
    simp only [Loop.next] at hnext
    split at hnext <;> cases hnext
    rename_i hidle
    refine ⟨h.push_order, h.calling, h.emptied, h.outside, fun hstage => ?_⟩
    refine h.signalled_push hstage (fun functor hsignalled => signalled_update hidle hsignalled) ?_
    exact .inr (.inr ⟨thread, Function.update_self _ _ _⟩)
  | quit thread =>
    simp only [Loop.next] at hnext
    split at hnext <;> cases hnext
    rename_i hidle
    exact ⟨h.order, h.calling, h.emptied, h.outside, fun hstage functor hmem hold =>
      signalled_update hidle (h.signalled hstage functor hmem hold)⟩
  | test | poll | handleWakeupRead | beginFunctors | swap | run | endFunctors | throws | queueHere
  | quitHere =>
    simp only [Loop.next] at hnext
    split at hnext
    · exact h.advance ‹_› hnext
    · cases hnext

/-- **Functors are neither lost nor delayed by a sleep.** Whatever calls other threads, handlers and
functors make after `loop` was entered: when the loop is about to block in `poll`, for each of the
functors queued since then that are pending the descriptor is readable or the call that queued it has
its write still to make; and the functors that have been called, those in hand and those pending are
together all that were ever queued, each once and in the order of insertion. -/
theorem functors_signalled_in_order (old counter : Nat) (threads : Thread → Call)
    (events : List (Event Thread)) (s : Loop Thread)
    (hrun : Run Loop.next anyStep (entered old counter threads) events s) :
    (s.stage = .polling → ∀ functor ∈ s.pendingFunctors, old ≤ functor →
        0 < s.counter ∨ ∃ thread, s.threads thread = .waking functor) ∧
      s.executed ++ s.functors ++ s.pendingFunctors = List.range s.queued := by
  have hsound : Sound old s :=
    hrun.invariant (Sound old) (fun _ _ _ h _ hnext => h.next hnext) (sound_entered old counter threads)
  refine ⟨fun hpolling functor hmem hold => ?_, hsound.order⟩
  refine (hsound.signalled (.inr (.inr hpolling)) functor hmem hold).imp_right fun hcall => ?_
  refine hcall.resolve_left fun hwaking => ?_
  cases (hsound.outside (.inr hpolling)).symm.trans hwaking

def twoCallers : List (Event Unit) :=
  [.queue (), .test, .wake (), .poll true, .handleWakeupRead, .beginFunctors, .swap, .run, .queueHere,
    .wakeHere, .queue (), .endFunctors, .test]

theorem functors_signalled_two_callers :
    ∃ s, Run Loop.next anyStep (entered 0 0 fun _ => .idle) twoCallers s ∧ s.stage = .polling ∧
      s.pendingFunctors = [1, 2] ∧ (0 < s.counter ∨ ∃ thread, s.threads thread = .waking 2) := by
  have htest : (replay Loop.next (fun _ _ => true) (entered 0 0 fun _ => .idle) twoCallers).any
      (fun s => s.stage == .polling && s.pendingFunctors == [1, 2]) = true := by
    decide +kernel
  have hcheck : ∀ (s : Loop Unit) (event : Event Unit), true = true → anyStep s event :=
    fun _ _ _ => trivial
  obtain ⟨s, hrun, hs⟩ := replay_reaches hcheck htest
  simp only [Bool.and_eq_true, beq_iff_eq] at hs
  obtain ⟨hpolling, hpending⟩ := hs
  refine ⟨s, hrun, hpolling, hpending, ?_⟩
  have hsignalled := (functors_signalled_in_order 0 0 (fun _ => .idle) twoCallers s hrun).1 hpolling
  exact hsignalled 2 (by simp [hpending]) (Nat.zero_le 2)

end Threads

end ChatRoom.EventLoop
