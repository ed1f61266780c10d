import ChatRoom.Lib.RelyGuarantee

/-!
# Typestates of programs

A typestate is what a program has done so far, as far as a discipline cares: which locks it holds,
what it still owes. It says which actions are allowed and how each result changes it.
-/

namespace Interleaving

structure Typestate (Act : Type) (Res : Act → Type) (σ : Type) where
  allowed : σ → Act → Prop
  after : σ → (action : Act) → Res action → σ

namespace Typestate

variable {Act : Type} {Res : Act → Type} {σ α β : Type} (ts : Typestate Act Res σ)

/-- From `st`, every action on every path is allowed, and every return is in `post`. -/
def Keeps : Prog Act Res α → σ → (α → σ → Prop) → Prop
  | .ret value, st, post => post value st
  | .act action next, st, post =>
    ts.allowed st action ∧ ∀ result, Keeps (next result) (ts.after st action result) post

variable {ts} {st : σ}

@[simp]
theorem keeps_ret {value : α} {post : α → σ → Prop} :
    ts.Keeps (.ret value) st post ↔ post value st := Iff.rfl

@[simp]
theorem keeps_act {action : Act} {next : Res action → Prog Act Res α} {post : α → σ → Prop} :
    ts.Keeps (.act action next) st post ↔
      ts.allowed st action ∧ ∀ result, ts.Keeps (next result) (ts.after st action result) post :=
  Iff.rfl

@[simp]
theorem keeps_perform {action : Act} {post : Res action → σ → Prop} :
    ts.Keeps (.perform action) st post ↔
      ts.allowed st action ∧ ∀ result, post result (ts.after st action result) := by
  simp [Prog.perform]

@[simp]
theorem keeps_bind {prog : Prog Act Res α} {f : α → Prog Act Res β} {post : β → σ → Prop} :
    ts.Keeps (prog >>= f) st post ↔
      ts.Keeps prog st fun value st' => ts.Keeps (f value) st' post := by
  induction prog generalizing st with
  | ret value => rfl
  | act action next ih => simp only [Prog.act_bind, keeps_act, ih]

@[simp]
theorem keeps_ite {p : Prop} [Decidable p] {yes no : Prog Act Res α} {post : α → σ → Prop} :
    ts.Keeps (if p then yes else no) st post ↔
      (p → ts.Keeps yes st post) ∧ (¬p → ts.Keeps no st post) := by
  split <;> simp [*]

theorem Keeps.mono {prog : Prog Act Res α} {post post' : α → σ → Prop}
    (hkeeps : ts.Keeps prog st post) (hpost : ∀ value st', post value st' → post' value st') :
    ts.Keeps prog st post' := by
  induction prog generalizing st with
  | ret value => exact hpost value st hkeeps
  | act action next ih => exact ⟨hkeeps.1, fun result => ih result (hkeeps.2 result)⟩

/-- A discipline that implies another one, for typestates that are related. -/
theorem Keeps.simulates {τ : Type} {ts' : Typestate Act Res τ} {R : σ → τ → Prop}
    (hstep : ∀ {st st' action}, R st st' → ts.allowed st action → ts'.allowed st' action ∧
      ∀ result, R (ts.after st action result) (ts'.after st' action result))
    {prog : Prog Act Res α} {post : α → σ → Prop} (hkeeps : ts.Keeps prog st post) {st' : τ}
    (hrelated : R st st') : ts'.Keeps prog st' fun value st' => ∃ st, post value st ∧ R st st' := by
  induction prog generalizing st st' with
  | ret value => exact ⟨st, hkeeps, hrelated⟩
  | act action next ih =>
    obtain ⟨hallowed, hafter⟩ := hstep hrelated hkeeps.1
    exact ⟨hallowed, fun result => ih result (hkeeps.2 result) (hafter result)⟩

def GoesOn {Tid Choice Cmd Shared : Type} (tid : Tid) (_ : Config Tid Act Res Shared)
    (event : Event Tid Choice Cmd) : Prop :=
  ∀ cmd, event ≠ .start tid cmd

theorem Keeps.run {Tid Choice Cmd Shared : Type} [DecidableEq Tid]
    {sys : System Tid Act Res Choice Cmd Shared} {tid : Tid} {post : Unit → σ → Prop}
    {P : σ → Prop} (hafter : ∀ st action result, P st → P (ts.after st action result))
    {config config' : Config Tid Act Res Shared} {events : List (Event Tid Choice Cmd)}
    (hstart : ∃ st, P st ∧ ts.Keeps (config.code tid) st post)
    (hrun : Transition.Run sys.next (GoesOn tid) config events config') :
    ∃ st, P st ∧ ts.Keeps (config'.code tid) st post := by
  refine hrun.invariant (fun config => ∃ st, P st ∧ ts.Keeps (config.code tid) st post) ?_ hstart
  rintro config event config' ⟨st, hst, hkeeps⟩ hgoesOn hnext
  obtain ⟨mover, cmd, prog, rfl, -, -, hcode⟩ | ⟨mover, choice, action, next, result, rfl, hbefore,
    -, hcode⟩ := System.next_cases hnext
  · have hne : tid ≠ mover := by
      rintro rfl
      exact hgoesOn cmd rfl
    rw [hcode, Function.update_of_ne hne]
    exact ⟨st, hst, hkeeps⟩
  · by_cases heq : tid = mover
    · subst heq
      rw [hbefore] at hkeeps
      rw [hcode, Function.update_self]
      exact ⟨_, hafter st action result hst, hkeeps.2 result⟩
    · rw [hcode, Function.update_of_ne heq]
      exact ⟨st, hst, hkeeps⟩

end Typestate

namespace Contract

variable {Tid Act : Type} {Res : Act → Type} {Choice Cmd Shared σ α : Type}
  {sys : System Tid Act Res Choice Cmd Shared} {con : Contract Tid Act Choice Cmd Shared}
  {ts : Typestate Act Res σ} {tracks : σ → Shared → Prop} {tid : Tid}

/-- **Typestate soundness.** If the typestate describes the shared state in a way that the other
threads respect, and every allowed action meets the contract, then a program that keeps the
discipline meets the contract. -/
theorem Ok.of_keeps (hstable : ∀ st, con.Stable tid (tracks st))
    (hstep : ∀ st action s choice result s', ts.allowed st action → con.inv s → tracks st s →
      con.cond tid action choice s → sys.exec tid action choice s = some (result, s') →
      con.inv s' ∧ (∀ other, other ≠ tid → con.rely other s s') ∧
        con.shown tid action choice s s' ∧ tracks (ts.after st action result) s')
    {prog : Prog Act Res α} {st : σ} {post : α → σ → Prop} (hkeeps : ts.Keeps prog st post) :
    Ok sys con tid prog (tracks st) fun value s => ∃ st', post value st' ∧ tracks st' s := by
  induction prog generalizing st with
  | ret value => exact fun s _ hs => ⟨st, hkeeps, hs⟩
  | act action next ih =>
    intro s hinv hs choice result s' hcond hexec
    obtain ⟨hinv', hrely, hshown, htracks⟩ :=
      hstep st action s choice result s' hkeeps.1 hinv hs hcond hexec
    exact ⟨hinv', hrely, hshown, _, hstable _, htracks, ih result (hkeeps.2 result)⟩

end Contract

end Interleaving
