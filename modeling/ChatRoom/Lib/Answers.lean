import Mathlib.Data.List.Basic

/-!
# Procedures that ask their environment

A procedure calls its environment and is answered; the answers are given as a list. The procedure
has no result if an answer does not fit the call or if the answers do not suffice, as those of a
loop that goes on do.
-/

namespace Answers

/-- A procedure that takes its answers from a list and leaves the rest of it. -/
abbrev Io (ω α : Type) := StateT (List ω) Option α

namespace Io

variable {ω α β σ : Type}

def answer : Io ω ω := fun answers =>
  match answers with
  | [] => none
  | first :: rest => some (first, rest)

def ask (read : ω → Option α) : Io ω α := do
  match read (← answer) with
  | some value => pure value
  | none => failure

def rounds (body : σ → Io ω (σ ⊕ α)) : Nat → σ → Io ω α
  | 0, _ => failure
  | count + 1, s => do
    match ← body s with
    | .inl s' => rounds body count s'
    | .inr value => pure value

/-- Rounds until one returns. Every round before the last takes an answer, so there is no more than
one round beyond the number of answers. -/
def loop (body : σ → Io ω (σ ⊕ α)) (s : σ) : Io ω α := fun answers =>
  rounds body (answers.length + 1) s answers

inductive Reaches (body : σ → Io ω (σ ⊕ α)) (start : σ) : σ → Prop where
  | start : Reaches body start start
  | next {s s' : σ} {answers rest : List ω} :
      Reaches body start s → body s answers = some (.inl s', rest) → Reaches body start s'

def Ensures (ok : ω → Prop) (io : Io ω α) (good : α → Prop) : Prop :=
  ∀ answers value rest, (∀ answer ∈ answers, ok answer) → io answers = some (value, rest) →
    (∀ answer ∈ rest, ok answer) ∧ good value

variable {ok : ω → Prop}

theorem bind_eq_some {io : Io ω α} {f : α → Io ω β} {answers rest : List ω} {value : β} :
    (io >>= f) answers = some (value, rest) ↔
      ∃ middle answers', io answers = some (middle, answers') ∧
        f middle answers' = some (value, rest) := by
  change (io answers).bind (fun out => f out.1 out.2) = _ ↔ _
  rw [Option.bind_eq_some_iff]
  constructor
  · rintro ⟨⟨middle, answers'⟩, hfirst, hsecond⟩
    exact ⟨middle, answers', hfirst, hsecond⟩
  · rintro ⟨middle, answers', hfirst, hsecond⟩
    exact ⟨(middle, answers'), hfirst, hsecond⟩

namespace Ensures

theorem pure {value : α} {good : α → Prop} (hvalue : good value) :
    Ensures ok (pure value) good := by
  intro answers result rest hok hio
  cases hio
  exact ⟨hok, hvalue⟩

theorem bind {io : Io ω α} {f : α → Io ω β} {good : α → Prop} {good' : β → Prop}
    (hio : Ensures ok io good) (hf : ∀ value, good value → Ensures ok (f value) good') :
    Ensures ok (io >>= f) good' := by
  intro answers value rest hok hrun
  obtain ⟨middle, answers', hfirst, hsecond⟩ := bind_eq_some.mp hrun
  obtain ⟨hok', hmiddle⟩ := hio answers middle answers' hok hfirst
  exact hf middle hmiddle answers' value rest hok' hsecond

theorem failure {good : α → Prop} : Ensures ok (failure : Io ω α) good :=
  fun _ _ _ _ hio => nomatch hio

theorem answer : Ensures ok (answer : Io ω ω) ok := by
  intro answers value rest hok hio
  cases answers with
  | nil => cases hio
  | cons first answers =>
    cases hio
    exact ⟨fun answer hmem => hok answer (List.mem_cons_of_mem _ hmem),
      hok _ List.mem_cons_self⟩

theorem ask {read : ω → Option α} :
    Ensures ok (ask read) fun value => ∃ reply, ok reply ∧ read reply = some value := by
  refine answer.bind fun reply hreply => ?_
  cases hread : read reply with
  | none => exact failure
  | some value => exact pure ⟨reply, hreply, hread⟩

theorem ite {p : Prop} [Decidable p] {yes no : Io ω α} {good : α → Prop}
    (hyes : p → Ensures ok yes good) (hno : ¬p → Ensures ok no good) :
    Ensures ok (if p then yes else no) good := by
  by_cases hp : p
  · rw [if_pos hp]
    exact hyes hp
  · rw [if_neg hp]
    exact hno hp

theorem mono {io : Io ω α} {good good' : α → Prop} (hio : Ensures ok io good)
    (hgood : ∀ value, good value → good' value) : Ensures ok io good' := by
  intro answers value rest hok hrun
  obtain ⟨hok', hvalue⟩ := hio answers value rest hok hrun
  exact ⟨hok', hgood value hvalue⟩

/-- What every round keeps holds when the loop goes on, and what the last round ensures holds at
the end. -/
theorem loop {body : σ → Io ω (σ ⊕ α)} {inv : σ → Prop} {good : α → Prop}
    (hbody : ∀ s, inv s → Ensures ok (body s) (Sum.elim inv good)) {s : σ} (hs : inv s) :
    Ensures ok (loop body s) good := by
  have hrounds : ∀ count s, inv s → Ensures ok (rounds body count s) good := by
    intro count
    induction count with
    | zero => exact fun s _ => failure
    | succ count ih =>
      intro s hs
      refine (hbody s hs).bind fun out hout => ?_
      cases out with
      | inl s' => exact ih s' hout
      | inr value => exact pure hout
  exact fun answers => hrounds (answers.length + 1) s hs answers

end Ensures

theorem Reaches.invariant {body : σ → Io ω (σ ⊕ α)} {inv : σ → Prop} {good : α → Prop}
    (hbody : ∀ s, inv s → Ensures (fun _ => True) (body s) (Sum.elim inv good)) {start s : σ}
    (hreaches : Reaches body start s) (hstart : inv start) : inv s := by
  induction hreaches with
  | start => exact hstart
  | next _ hround ih => exact (hbody _ ih _ _ _ (fun _ _ => trivial) hround).2

end Io

end Answers
