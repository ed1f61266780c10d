import Mathlib.Logic.Function.Basic

/-!
# Runs of a labelled transition function

A system is a partial function from a state and an event to the next state. A run may be restricted
to the steps that meet a condition; with the condition `fun _ _ => True` it is any run.
-/

namespace Transition

variable {State Event : Type}
variable {events : List Event} {state : State}

/-- A run all of whose steps meet `ok`, from one state to another. -/
inductive Run (next : State → Event → Option State) (ok : State → Event → Prop) (start : State) :
    List Event → State → Prop where
  | nil : Run next ok start [] start
  | snoc {events : List Event} {state state' : State} {event : Event} :
      Run next ok start events state → ok state event → next state event = some state' →
      Run next ok start (events ++ [event]) state'

def anyStep (_ : State) (_ : Event) : Prop := True

variable {next : State → Event → Option State} {ok : State → Event → Prop} {start : State}

/-- **Induction over a run.** What holds at the start and is kept by every step that meets the
condition holds in every state reached. -/
theorem Run.invariant (Inv : State → Prop)
    (hstep : ∀ state event state', Inv state → ok state event → next state event = some state' →
      Inv state')
    (hstart : Inv start) (hrun : Run next ok start events state) : Inv state := by
  induction hrun with
  | nil => exact hstart
  | snoc _ hok hnext ih => exact hstep _ _ _ ih hok hnext

theorem Run.with_invariant (Inv : State → Prop)
    (hstep : ∀ state event state', Inv state → ok state event → next state event = some state' →
      Inv state')
    (hstart : Inv start) (hrun : Run next ok start events state) :
    Run next (fun state event => Inv state ∧ ok state event) start events state := by
  induction hrun with
  | nil => exact .nil
  | snoc hearlier hok hnext ih => exact .snoc ih ⟨hearlier.invariant Inv hstep hstart, hok⟩ hnext

theorem Run.mono {ok' : State → Event → Prop}
    (himp : ∀ state event, ok state event → ok' state event) (hrun : Run next ok start events state) :
    Run next ok' start events state := by
  induction hrun with
  | nil => exact .nil
  | snoc _ hok hnext ih => exact .snoc ih (himp _ _ hok) hnext

theorem Run.trans {events' : List Event} {middle : State} (hfirst : Run next ok start events middle)
    (hsecond : Run next ok middle events' state) :
    Run next ok start (events ++ events') state := by
  induction hsecond with
  | nil => simpa using hfirst
  | snoc _ hok hnext ih =>
    rw [← List.append_assoc]
    exact .snoc ih hok hnext

theorem Run.cons {event : Event} {middle : State} (hok : ok start event)
    (hnext : next start event = some middle) (hrest : Run next ok middle events state) :
    Run next ok start (event :: events) state := by
  simpa using Run.trans (.snoc .nil hok hnext) hrest

def replay (next : State → Event → Option State) (check : State → Event → Bool) :
    State → List Event → Option State
  | state, [] => some state
  | state, event :: events =>
    if check state event then (next state event).bind fun state' => replay next check state' events
    else none

theorem run_of_replay {check : State → Event → Bool}
    (hcheck : ∀ state event, check state event = true → ok state event)
    (hreplay : replay next check start events = some state) :
    Run next ok start events state := by
  induction events generalizing start with
  | nil =>
    cases hreplay
    exact .nil
  | cons event events ih =>
    rw [replay] at hreplay
    split at hreplay
    · rename_i hpassed
      obtain ⟨middle, hnext, hrest⟩ := Option.bind_eq_some_iff.mp hreplay
      exact .cons (hcheck _ _ hpassed) hnext (ih hrest)
    · cases hreplay

theorem replay_reaches {check : State → Event → Bool} {test : State → Bool}
    (hcheck : ∀ state event, check state event = true → ok state event)
    (htest : (replay next check start events).any test = true) :
    ∃ state, Run next ok start events state ∧ test state = true := by
  cases hreplay : replay next check start events with
  | none =>
    rw [hreplay] at htest
    cases htest
  | some state =>
    rw [hreplay] at htest
    exact ⟨state, run_of_replay hcheck hreplay, htest⟩

end Transition
