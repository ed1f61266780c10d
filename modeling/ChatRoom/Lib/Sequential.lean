import ChatRoom.Lib.Schedule
import ChatRoom.Lib.Typestate

/-!
# Programs that run alone

While a program runs and every other thread is idle, what it has found out stays true until it
changes it itself.
-/

namespace Interleaving

variable {Tid Act : Type} {Res : Act → Type} {Choice Cmd Shared σ : Type}

/-- What every allowed action keeps, a program that keeps the discipline keeps. -/
theorem Typestate.Keeps.complete {sys : System Tid Act Res Choice Cmd Shared}
    {feed : Act → List Choice → Option (Choice × List Choice)} {tid : Tid} {α : Type}
    {ts : Typestate Act Res σ} {P : Shared → Prop}
    (hstep : ∀ {st action choice s result s'}, ts.allowed st action →
      sys.exec tid action choice s = some (result, s') → P s → P s')
    {prog : Prog Act Res α} {st : σ} {post : α → σ → Prop} (hkeeps : ts.Keeps prog st post)
    {s : Shared} {answers : List Choice} {out : α × Shared × List Choice}
    (hcomplete : Interleaving.complete sys feed tid prog s answers = some out) (hs : P s) :
    P out.2.1 := by
  induction prog generalizing st s answers with
  | ret value =>
    cases hcomplete
    exact hs
  | act action next ih =>
    rw [Interleaving.complete] at hcomplete
    split at hcomplete
    · cases hcomplete
    · split at hcomplete
      · cases hcomplete
      · rename_i hexec
        exact ih _ (hkeeps.2 _) hcomplete (hstep hkeeps.1 hexec hs)

structure Describes (sys : System Tid Act Res Choice Cmd Shared) (ts : Typestate Act Res σ)
    (tracks : σ → Tid → Shared → Prop) : Prop where
  launch : ∀ tid cmd s prog s', sys.launch tid cmd s = some (prog, s') →
    ∃ st, ts.Keeps prog st (fun _ _ => True) ∧ tracks st tid s'
  exec : ∀ st action tid choice s result s', ts.allowed st action → tracks st tid s →
    sys.exec tid action choice s = some (result, s') → tracks (ts.after st action result) tid s'

def Described (ts : Typestate Act Res σ) (tracks : σ → Tid → Shared → Prop)
    (config : Config Tid Act Res Shared) : Prop :=
  ∀ tid, config.code tid = .ret () ∨
    ∃ st, ts.Keeps (config.code tid) st (fun _ _ => True) ∧ tracks st tid config.shared

variable {sys : System Tid Act Res Choice Cmd Shared} {ts : Typestate Act Res σ}
  {tracks : σ → Tid → Shared → Prop} {config config' : Config Tid Act Res Shared}
  {event : Event Tid Choice Cmd}

theorem Described.of_idle (hidle : ∀ tid, config.code tid = .ret ()) :
    Described ts tracks config := fun tid => .inl (hidle tid)

theorem Described.allowed (h : Described ts tracks config) {tid : Tid} {action : Act}
    {next : Res action → Prog Act Res Unit} (hcode : config.code tid = .act action next) :
    ∃ st, ts.allowed st action ∧ tracks st tid config.shared := by
  rcases h tid with hidle | ⟨st, hkeeps, htracks⟩
  · rw [hcode] at hidle
    cases hidle
  · rw [hcode] at hkeeps
    exact ⟨st, hkeeps.1, htracks⟩

variable [DecidableEq Tid]

theorem Described.next (hdescribes : Describes sys ts tracks) (h : Described ts tracks config)
    (halone : Alone config event) (hnext : sys.next config event = some config') :
    Described ts tracks config' := by
  intro other
  obtain ⟨tid, cmd, prog, rfl, -, hlaunch, hcode⟩ | ⟨tid, choice, action, next, result, rfl, hbefore,
    hexec, hcode⟩ := System.next_cases hnext
  · by_cases heq : other = tid
    · subst heq
      obtain ⟨st, hkeeps, htracks⟩ := hdescribes.launch other cmd _ _ _ hlaunch
      refine .inr ⟨st, ?_, htracks⟩
      rw [hcode, Function.update_self]
      exact hkeeps
    · refine .inl ?_
      rw [hcode, Function.update_of_ne heq]
      exact halone other heq
  · by_cases heq : other = tid
    · subst heq
      rcases h other with hidle | ⟨st, hkeeps, htracks⟩
      · rw [hbefore] at hidle
        cases hidle
      · rw [hbefore] at hkeeps
        refine .inr ⟨_, ?_, hdescribes.exec st action other choice _ result _ hkeeps.1 htracks hexec⟩
        rw [hcode, Function.update_self]
        exact hkeeps.2 result
    · refine .inl ?_
      rw [hcode, Function.update_of_ne heq]
      exact halone other heq

/-- **Along a run whose steps are all taken alone**, every running program keeps a typestate that
describes the shared state. -/
theorem Described.run (hdescribes : Describes sys ts tracks) {events : List (Event Tid Choice Cmd)}
    (h : Described ts tracks config)
    (hrun : Transition.Run sys.next Alone config events config') : Described ts tracks config' :=
  hrun.invariant (Described ts tracks) (fun _ _ _ hinv halone hnext =>
    hinv.next hdescribes halone hnext) h

end Interleaving
