import ChatRoom.Lib.Runs
import Mathlib.Algebra.Order.Group.Nat

/-!
# Executions without end

A run that goes on for ever, or rests for ever after its last step. What must happen at some time is
stated of executions, under the assumption that certain steps are taken at some time.
-/

namespace Transition

variable {State Event : Type}

structure Execution (next : State → Event → Option State) (start : State) where
  states : Nat → State
  events : Nat → Option Event
  first : states 0 = start
  rests : ∀ k, events k = none → states (k + 1) = states k
  steps : ∀ k event, events k = some event → next (states k) event = some (states (k + 1))

namespace Execution

variable {next : State → Event → Option State} {start : State} (x : Execution next start)

def resting (next : State → Event → Option State) (start : State) : Execution next start where
  states _ := start
  events _ := none
  first := rfl
  rests _ _ := rfl
  steps _ _ h := nomatch h

def Eventually (k : Nat) (Q : State → Prop) : Prop := ∃ j ≥ k, Q (x.states j)

variable {x} {P Q : State → Prop} {k : Nat}

theorem Eventually.now (h : Q (x.states k)) : x.Eventually k Q := ⟨k, le_rfl, h⟩

theorem Eventually.trans (h : x.Eventually k P)
    (hnext : ∀ j ≥ k, P (x.states j) → x.Eventually j Q) : x.Eventually k Q := by
  obtain ⟨i, hi, hP⟩ := h
  obtain ⟨j, hj, hQ⟩ := hnext i hi hP
  exact ⟨j, hi.trans hj, hQ⟩

theorem stable (hstep : ∀ state event state', P state → next state event = some state' → P state')
    {j : Nat} (hj : k ≤ j) (hP : P (x.states k)) : P (x.states j) := by
  induction j, hj using Nat.le_induction with
  | base => exact hP
  | succ j _ ih =>
    cases hevent : x.events j with
    | none => rwa [x.rests j hevent]
    | some event => exact hstep _ _ _ ih (x.steps j event hevent)

/-- **The rule of weak fairness.** A property that stays until a step of a certain kind is taken
leads to what that step brings about, if such a step is taken at some time. -/
theorem leads (A : Event → Prop)
    (hstay : ∀ state event state', P state → next state event = some state' → ¬A event → P state')
    (hact : ∀ state event state', P state → next state event = some state' → A event → Q state')
    (hP : P (x.states k)) (hfair : ∃ j ≥ k, ∃ event, x.events j = some event ∧ A event) :
    x.Eventually k Q := by
  obtain ⟨j, hj, event, hevent, hA⟩ := hfair
  -- at `j` the property still holds, or the result was there before
  have huntil : x.Eventually k Q ∨ P (x.states j) := by
    clear hevent
    induction j, hj using Nat.le_induction with
    | base => exact .inr hP
    | succ j hj ih =>
      rcases ih with hdone | hPj
      · exact .inl hdone
      cases hevent : x.events j with
      | none => exact .inr (by rwa [x.rests j hevent])
      | some other =>
        have hnext := x.steps j other hevent
        by_cases hother : A other
        · exact .inl ⟨j + 1, hj.trans (Nat.le_succ j), hact _ _ _ hPj hnext hother⟩
        · exact .inr (hstay _ _ _ hPj hnext hother)
  rcases huntil with hdone | hPj
  · exact hdone
  · exact ⟨j + 1, hj.trans (Nat.le_succ j), hact _ _ _ hPj (x.steps j event hevent) hA⟩

end Execution

end Transition
