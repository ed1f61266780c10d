import ChatRoom.Lib.Runs

/-!
# Programs of atomic actions and their interleavings

A program returns, or performs one atomic action and continues with the action's result.
-/

namespace Interleaving

/-- A program over the actions `Act`, whose results have the types `Res`. -/
inductive Prog (Act : Type) (Res : Act → Type) (α : Type) : Type where
  | ret (value : α)
  | act (action : Act) (next : Res action → Prog Act Res α)

namespace Prog

variable {Act : Type} {Res : Act → Type} {α β : Type}

def bind : Prog Act Res α → (α → Prog Act Res β) → Prog Act Res β
  | .ret value, f => f value
  | .act action next, f => .act action fun result => (next result).bind f

instance : Monad (Prog Act Res) where
  pure := .ret
  bind := Prog.bind

def perform (action : Act) : Prog Act Res (Res action) := .act action .ret

@[simp]
theorem pure_eq (value : α) : (pure value : Prog Act Res α) = .ret value := rfl

@[simp]
theorem ret_bind (value : α) (f : α → Prog Act Res β) : (.ret value >>= f) = f value := rfl

@[simp]
theorem act_bind (action : Act) (next : Res action → Prog Act Res α) (f : α → Prog Act Res β) :
    (.act action next >>= f) = .act action fun result => next result >>= f := rfl

@[simp]
theorem perform_bind (action : Act) (f : Res action → Prog Act Res β) :
    (perform action >>= f) = .act action f := rfl

def ended : Prog Act Res α → Bool
  | .ret _ => true
  | .act _ _ => false

theorem eq_ret_of_ended {prog : Prog Act Res Unit} (hended : prog.ended = true) :
    prog = .ret () := by
  cases prog with
  | ret value => rfl
  | act action next => cases hended

theorem bind_assoc {γ : Type} (prog : Prog Act Res α) (f : α → Prog Act Res β)
    (g : β → Prog Act Res γ) : (prog >>= f) >>= g = prog >>= fun value => f value >>= g := by
  induction prog with
  | ret value => rfl
  | act action next ih =>
    simp only [act_bind]
    congr 1
    funext result
    exact ih result

end Prog

/-- What an action does to the shared state under an environment's choice (`none` while it is
blocked), and which program a command starts on a thread. -/
structure System (Tid Act : Type) (Res : Act → Type) (Choice Cmd Shared : Type) where
  exec : Tid → (action : Act) → Choice → Shared → Option (Res action × Shared)
  launch : Tid → Cmd → Shared → Option (Prog Act Res Unit × Shared)

structure Config (Tid Act : Type) (Res : Act → Type) (Shared : Type) where
  shared : Shared
  code : Tid → Prog Act Res Unit

inductive Event (Tid Choice Cmd : Type) where
  | start (tid : Tid) (cmd : Cmd)
  | step (tid : Tid) (choice : Choice)

namespace System

variable {Tid Act : Type} {Res : Act → Type} {Choice Cmd Shared : Type} [DecidableEq Tid]

def next (sys : System Tid Act Res Choice Cmd Shared) (config : Config Tid Act Res Shared) :
    Event Tid Choice Cmd → Option (Config Tid Act Res Shared)
  | .start tid cmd =>
    match config.code tid with
    | .ret _ => (sys.launch tid cmd config.shared).map fun (prog, shared) =>
      { shared, code := Function.update config.code tid prog }
    | .act _ _ => none
  | .step tid choice =>
    match config.code tid with
    | .ret _ => none
    | .act action next => (sys.exec tid action choice config.shared).map fun (result, shared) =>
      { shared, code := Function.update config.code tid (next result) }

theorem next_cases {sys : System Tid Act Res Choice Cmd Shared}
    {config config' : Config Tid Act Res Shared} {event : Event Tid Choice Cmd}
    (hnext : sys.next config event = some config') :
    (∃ tid cmd prog, event = .start tid cmd ∧ config.code tid = .ret () ∧
      sys.launch tid cmd config.shared = some (prog, config'.shared) ∧
      config'.code = Function.update config.code tid prog) ∨
    (∃ tid choice action next result, event = .step tid choice ∧
      config.code tid = .act action next ∧
      sys.exec tid action choice config.shared = some (result, config'.shared) ∧
      config'.code = Function.update config.code tid (next result)) := by
  cases event with
  | start tid cmd =>
    cases hcode : config.code tid with
    | ret value =>
      simp only [System.next, hcode, Option.map_eq_some_iff] at hnext
      obtain ⟨⟨prog, shared⟩, hlaunch, rfl⟩ := hnext
      exact .inl ⟨tid, cmd, prog, rfl, hcode, hlaunch, rfl⟩
    | act action next =>
      simp [System.next, hcode] at hnext
  | step tid choice =>
    cases hcode : config.code tid with
    | ret value => simp [System.next, hcode] at hnext
    | act action next =>
      simp only [System.next, hcode, Option.map_eq_some_iff] at hnext
      obtain ⟨⟨result, shared⟩, hexec, rfl⟩ := hnext
      exact .inr ⟨tid, choice, action, next, result, rfl, hcode, hexec, rfl⟩

end System

end Interleaving
