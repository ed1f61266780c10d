import ChatRoom.Lib.Runs
import Mathlib.Algebra.Order.BigOperators.Group.List
import Mathlib.Algebra.Order.Ring.Int

/-!
# Unread counters

`RedisClient::adjust_unread` of many servers on one counter. Each Redis command is one step, and the
steps of the calls interleave.
-/

namespace ChatRoom.Unread

open Transition

variable {Call : Type}

/-- The counter, and the calls that are before `HINCRBY`, before `HSET` and before `EXPIRE`. -/
structure State (Call : Type) where
  value : Int
  waiting : List Call
  clamping : List Call := []
  expiring : List Call := []
  deriving DecidableEq

inductive Event (Call : Type) where
  | increment (call : Call)
  | clamp (call : Call)
  | expire (call : Call)
  /-- The next command of the call is not executed, and the call fails. -/
  | fail (call : Call)
  deriving DecidableEq

def fits (value : Int) : Bool := -2 ^ 63 ≤ value && value < 2 ^ 63

def next [DecidableEq Call] (delta : Call → Int) (state : State Call) :
    Event Call → Option (State Call)
  | .increment call =>
    let value := state.value + delta call
    if call ∈ state.waiting ∧ fits value then
      if value < 0 then
        some { state with
          value
          waiting := state.waiting.erase call
          clamping := call :: state.clamping }
      else
        some { state with
          value
          waiting := state.waiting.erase call
          expiring := call :: state.expiring }
    else
      none
  | .clamp call =>
    if call ∈ state.clamping then
      some { state with
        value := 0
        clamping := state.clamping.erase call
        expiring := call :: state.expiring }
    else
      none
  | .expire call =>
    if call ∈ state.expiring then some { state with expiring := state.expiring.erase call } else none
  | .fail call =>
    some { state with
      waiting := state.waiting.erase call
      clamping := state.clamping.erase call
      expiring := state.expiring.erase call }

/-- The calls whose increment is in the run, in its order. -/
def adjusted (events : List (Event Call)) : List Call :=
  events.filterMap fun
    | .increment call => some call
    | _ => none

def applyAll (delta : Call → Int) (value : Int) (order : List Call) : Int :=
  order.foldl (fun value call => max 0 (value + delta call)) value

variable {delta : Call → Int} {value : Int} {calls : List Call}

theorem applyAll_append (first second : List Call) :
    applyAll delta value (first ++ second) = applyAll delta (applyAll delta value first) second :=
  List.foldl_append

theorem applyAll_nonneg (hvalue : 0 ≤ value) : 0 ≤ applyAll delta value calls := by
  induction calls generalizing value with
  | nil => exact hvalue
  | cons call calls ih => exact ih (le_max_left _ _)

theorem applyAll_of_increases (hvalue : 0 ≤ value) (hcalls : ∀ call ∈ calls, 0 ≤ delta call) :
    applyAll delta value calls = value + (calls.map delta).sum := by
  induction calls generalizing value with
  | nil => simp [applyAll]
  | cons call calls ih =>
    have hcall := hcalls call List.mem_cons_self
    have hsum : max 0 (value + delta call) = value + delta call := by omega
    rw [applyAll, List.foldl_cons, hsum, List.map_cons, List.sum_cons, ← Int.add_assoc]
    exact ih (by omega) fun other hother => hcalls other (List.mem_cons_of_mem _ hother)

theorem applyAll_of_decreases (hvalue : 0 ≤ value) (hcalls : ∀ call ∈ calls, delta call ≤ 0) :
    applyAll delta value calls = max 0 (value + (calls.map delta).sum) := by
  induction calls generalizing value with
  | nil => simpa [applyAll] using hvalue
  | cons call calls ih =>
    have hrest : ∀ other ∈ calls, delta other ≤ 0 := fun other hother =>
      hcalls other (List.mem_cons_of_mem _ hother)
    have hsum : (calls.map delta).sum ≤ 0 := by
      simpa using List.sum_le_sum (g := fun _ => 0) hrest
    rw [applyAll, List.foldl_cons, List.map_cons, List.sum_cons]
    refine (ih (le_max_left _ _) hrest).trans ?_
    omega

/-- Calls that bring the counter to zero or below come to zero one after the other as well, if those
that increase it come first. -/
theorem exists_order_to_zero (hvalue : 0 ≤ value) (hsum : value + (calls.map delta).sum ≤ 0) :
    ∃ order, order.Perm calls ∧ applyAll delta value order = 0 := by
  let increases := calls.filter fun call => 0 ≤ delta call
  let decreases := calls.filter fun call => !decide (0 ≤ delta call)
  have hperm : (increases ++ decreases).Perm calls := List.filter_append_perm _ _
  have hincreases : ∀ call ∈ increases, 0 ≤ delta call := fun call hcall => by
    simpa using (List.mem_filter.mp hcall).2
  have hdecreases : ∀ call ∈ decreases, delta call ≤ 0 := fun call hcall => by
    have hneg := (List.mem_filter.mp hcall).2
    simp only [Bool.not_eq_true', decide_eq_false_iff_not] at hneg
    omega
  have htotal := (hperm.map delta).sum_eq
  rw [List.map_append, List.sum_append] at htotal
  refine ⟨_, hperm, ?_⟩
  rw [applyAll_append, applyAll_of_decreases (applyAll_nonneg hvalue) hdecreases,
    applyAll_of_increases hvalue hincreases]
  omega

/-! ### Corrections -/

/-- Between an increment below zero and its correction no other one brings the counter above zero, and
the last correction that is due does not fail. -/
def undisturbed [DecidableEq Call] (delta : Call → Int) (state : State Call) :
    Event Call → Bool
  | .increment call => state.clamping.isEmpty || state.value + delta call ≤ 0
  | .fail call => state.clamping ≠ [call] || state.value = 0
  | _ => true

/-- The calls so far are in an order of which the counter has the beginning, and the sum of the
`recent` ones; there are recent ones only until the next correction. -/
structure Tracks (delta : Call → Int) (start : Int) (called settled recent : List Call)
    (state : State Call) : Prop where
  calls : (settled ++ recent).Perm called
  value : state.value = applyAll delta start settled + (recent.map delta).sum
  corrected : state.clamping = [] → recent = []
  due : state.clamping ≠ [] → state.value ≤ 0

section

variable {start : Int} {called settled recent : List Call} {state state' : State Call}

theorem Tracks.reset (hstart : 0 ≤ start) (htracks : Tracks delta start called settled recent state)
    (hdue : state.value ≤ 0) (hzero : state'.value = 0) :
    ∃ settled recent, Tracks delta start called settled recent state' := by
  obtain ⟨order, hperm, horder⟩ :=
    exists_order_to_zero (applyAll_nonneg hstart) (htracks.value ▸ hdue)
  refine ⟨settled ++ order, [], ?_, ?_, fun _ => rfl, fun _ => hzero.le⟩
  · rw [List.append_nil]
    exact (hperm.append_left settled).trans htracks.calls
  · rw [applyAll_append, horder, hzero]
    rfl

theorem Tracks.step [DecidableEq Call] {event : Event Call} (hstart : 0 ≤ start)
    (htracks : Tracks delta start called settled recent state)
    (hundisturbed : undisturbed delta state event = true)
    (hnext : next delta state event = some state') :
    ∃ settled recent, Tracks delta start (called ++ adjusted [event]) settled recent state' := by
  cases event with
  | increment call =>
    obtain ⟨-, hnext⟩ := Option.ite_none_right_eq_some.mp hnext
    change ∃ settled recent, Tracks delta start (called ++ [call]) settled recent state'
    have hcalls : (settled ++ (recent ++ [call])).Perm (called ++ [call]) := by
      rw [← List.append_assoc]
      exact htracks.calls.append_right _
    have hsum : state.value + delta call =
        applyAll delta start settled + ((recent ++ [call]).map delta).sum := by
      simp [htracks.value, Int.add_assoc]
    split at hnext
    · rename_i hnegative
      cases hnext
      exact ⟨settled, recent ++ [call], hcalls, hsum, nofun, fun _ => hnegative.le⟩
    · rename_i hpositive
      cases hnext
      by_cases hnone : state.clamping = []
      · obtain rfl := htracks.corrected hnone
        refine ⟨settled ++ [call], [], by simpa using hcalls, ?_, fun _ => rfl,
          fun hdue => absurd hnone hdue⟩
        have hvalue := htracks.value
        simp only [List.map_nil, List.sum_nil, Int.add_zero] at hvalue ⊢
        rw [applyAll_append, ← hvalue]
        exact (max_eq_right (Int.not_lt.mp hpositive)).symm
      · have hsmall : state.value + delta call ≤ 0 := by
          simpa [undisturbed, hnone] using hundisturbed
        exact ⟨settled, recent ++ [call], hcalls, hsum, fun h => absurd h hnone, fun _ => hsmall⟩
  | clamp call =>
    obtain ⟨hmem, hnext⟩ := Option.ite_none_right_eq_some.mp hnext
    cases hnext
    rw [show adjusted [Event.clamp call] = [] from rfl, List.append_nil]
    exact htracks.reset hstart (htracks.due (List.ne_nil_of_mem hmem)) rfl
  | expire call =>
    obtain ⟨-, hnext⟩ := Option.ite_none_right_eq_some.mp hnext
    cases hnext
    rw [show adjusted [Event.expire call] = [] from rfl, List.append_nil]
    exact ⟨settled, recent, { htracks with }⟩
  | fail call =>
    cases hnext
    rw [show adjusted [Event.fail call] = [] from rfl, List.append_nil]
    by_cases hlast : state.clamping = [call]
    · have hzero : state.value = 0 := by simpa [undisturbed, hlast] using hundisturbed
      exact htracks.reset hstart hzero.le hzero
    · refine ⟨settled, recent, htracks.calls, htracks.value, fun hnone => ?_, fun hdue => ?_⟩
      · rcases List.erase_eq_nil_iff.mp hnone with hnone | hone
        · exact htracks.corrected hnone
        · exact absurd hone hlast
      · exact htracks.due fun hnone => hdue (by simp [hnone])

end

/-- **No adjustment is lost** in a run in which no correction is disturbed: whenever none is due, the
counter has the adjustments one after the other. -/
theorem unread_adjustments_kept [DecidableEq Call] {delta : Call → Int} {start : Int}
    (hstart : 0 ≤ start) {calls : List Call} {events : List (Event Call)} {state : State Call}
    (hrun : Run (next delta) (fun state event => undisturbed delta state event = true)
      { value := start, waiting := calls } events state)
    (hdone : state.clamping = []) :
    ∃ order, order.Perm (adjusted events) ∧ state.value = applyAll delta start order := by
  have htracks : ∃ settled recent, Tracks delta start (adjusted events) settled recent state := by
    clear hdone
    induction hrun with
    | nil => exact ⟨[], [], .refl _, by simp [applyAll], fun _ => rfl, fun hdue => absurd rfl hdue⟩
    | snoc _ hundisturbed hnext ih =>
      obtain ⟨settled, recent, htracks⟩ := ih
      rw [adjusted, List.filterMap_append]
      exact htracks.step hstart hundisturbed hnext
  obtain ⟨settled, recent, htracks⟩ := htracks
  obtain rfl := htracks.corrected hdone
  exact ⟨settled, by simpa using htracks.calls, by simpa using htracks.value⟩

def readThenFive : Bool → Int
  | true => 5
  | false => -1

def readBeforeFive : List (Event Bool) := [.increment false, .clamp false, .increment true]

theorem unread_adjustments_kept_two : ∃ state : State Bool,
    Run (next readThenFive) (fun state event => undisturbed readThenFive state event = true)
      { value := 0, waiting := [false, true] } readBeforeFive state ∧
    state.clamping = [] ∧ state.value = 5 ∧
    ∃ order, order.Perm (adjusted readBeforeFive) ∧
      state.value = applyAll readThenFive 0 order := by
  have htest : (replay (next readThenFive) (undisturbed readThenFive)
      { value := 0, waiting := [false, true] } readBeforeFive).any
      (fun state => state.clamping = [] && state.value = 5) = true := by decide +kernel
  obtain ⟨state, hrun, hstate⟩ := replay_reaches (fun _ _ h => h) htest
  rw [Bool.and_eq_true, decide_eq_true_eq, decide_eq_true_eq] at hstate
  exact ⟨state, hrun, hstate.1, hstate.2, unread_adjustments_kept (Int.le_refl 0) hrun hstate.1⟩

/-- The correction of the one call takes the five messages of the other one away. -/
theorem unread_adjustment_lost : ∃ (events : List (Event Bool)) (state : State Bool),
    Run (next readThenFive) anyStep { value := 0, waiting := [false, true] } events state ∧
      state.clamping = [] ∧
      ∀ order, order.Perm (adjusted events) → state.value ≠ applyAll readThenFive 0 order := by
  have htest : (replay (next readThenFive) (fun _ _ => true) { value := 0, waiting := [false, true] }
      [.increment false, .increment true, .clamp false, .expire false, .expire true]).any
      (fun state => state.clamping = [] && state.value = 0) = true := by decide +kernel
  obtain ⟨state, hrun, hstate⟩ := replay_reaches (fun _ _ _ => trivial) htest
  rw [Bool.and_eq_true, decide_eq_true_eq, decide_eq_true_eq] at hstate
  refine ⟨_, state, hrun, hstate.1, fun order hperm => ?_⟩
  rw [hstate.2]
  match order, hperm.length_eq with
  | [first, second], _ =>
    revert hperm
    cases first <;> cases second <;> decide

end ChatRoom.Unread
