import ChatRoom.Lib.Program

/-!
# Rely-guarantee reasoning for interleaved programs

A contract fixes an invariant of the shared state, what each thread relies on the others to do, a
condition that the steps of the runs considered meet, and what is to be shown of every step.
-/

namespace Interleaving

variable {Tid Act : Type} {Res : Act → Type} {Choice Cmd Shared : Type}
variable {config : Config Tid Act Res Shared} {pre : Shared → Prop}

structure Contract (Tid Act Choice Cmd Shared : Type) where
  inv : Shared → Prop
  rely : Tid → Shared → Shared → Prop
  cond : Tid → Act → Choice → Shared → Prop
  shown : Tid → Act → Choice → Shared → Shared → Prop
  idle : Tid → Shared → Prop

namespace Contract

variable (sys : System Tid Act Res Choice Cmd Shared) (con : Contract Tid Act Choice Cmd Shared)

/-- No step of another thread can break the assertion. -/
def Stable (tid : Tid) (pre : Shared → Prop) : Prop :=
  ∀ s s', con.inv s → con.inv s' → con.rely tid s s' → pre s → pre s'

/-- From `pre`, the program meets the contract and returns in `post`. -/
def Ok (tid : Tid) {α : Type} :
    Prog Act Res α → (Shared → Prop) → (α → Shared → Prop) → Prop
  | .ret value, pre, post => ∀ s, con.inv s → pre s → post value s
  | .act action next, pre, post =>
    ∀ s, con.inv s → pre s → ∀ choice result s', con.cond tid action choice s →
      sys.exec tid action choice s = some (result, s') →
      con.inv s' ∧ (∀ other, other ≠ tid → con.rely other s s') ∧
        con.shown tid action choice s s' ∧
        ∃ pre', con.Stable tid pre' ∧ pre' s' ∧ Ok tid (next result) pre' post

variable {sys con} {tid : Tid} {α β : Type}

theorem Ok.weaken {prog : Prog Act Res α} {pre' : Shared → Prop} {post post' : α → Shared → Prop}
    (hok : Ok sys con tid prog pre post) (hpre : ∀ s, con.inv s → pre' s → pre s)
    (hpost : ∀ value s, con.inv s → post value s → post' value s) :
    Ok sys con tid prog pre' post' := by
  induction prog generalizing pre pre' with
  | ret value => exact fun s hinv hs => hpost value s hinv (hok s hinv (hpre s hinv hs))
  | act action next ih =>
    intro s hinv hs choice result s' hcond hexec
    obtain ⟨hinv', hrely, hshown, mid, hstable, hmid, hnext⟩ :=
      hok s hinv (hpre s hinv hs) choice result s' hcond hexec
    exact ⟨hinv', hrely, hshown, mid, hstable, hmid, ih result hnext fun _ _ h => h⟩

theorem Ok.bind {prog : Prog Act Res α} {f : α → Prog Act Res β} {mid : α → Shared → Prop}
    {post : β → Shared → Prop} (hprog : Ok sys con tid prog pre mid)
    (hf : ∀ value, Ok sys con tid (f value) (mid value) post) :
    Ok sys con tid (prog >>= f) pre post := by
  induction prog generalizing pre with
  | ret value => exact (hf value).weaken hprog fun _ _ _ h => h
  | act action next ih =>
    intro s hinv hs choice result s' hcond hexec
    obtain ⟨hinv', hrely, hshown, mid', hstable, hmid, hnext⟩ :=
      hprog s hinv hs choice result s' hcond hexec
    exact ⟨hinv', hrely, hshown, mid', hstable, hmid, ih result hnext⟩

theorem Ok.perform {action : Act} {post : Res action → Shared → Prop}
    (hstable : ∀ result, con.Stable tid (post result))
    (hstep : ∀ s choice result s', con.inv s → pre s → con.cond tid action choice s →
      sys.exec tid action choice s = some (result, s') →
      con.inv s' ∧ (∀ other, other ≠ tid → con.rely other s s') ∧
        con.shown tid action choice s s' ∧ post result s') :
    Ok sys con tid (Prog.perform action) pre post := by
  intro s hinv hs choice result s' hcond hexec
  obtain ⟨hinv', hrely, hshown, hpost⟩ := hstep s choice result s' hinv hs hcond hexec
  exact ⟨hinv', hrely, hshown, post result, hstable result, hpost, fun s _ h => h⟩

def Holds (sys : System Tid Act Res Choice Cmd Shared) (con : Contract Tid Act Choice Cmd Shared)
    (config : Config Tid Act Res Shared) : Prop :=
  con.inv config.shared ∧ ∀ tid, ∃ pre, con.Stable tid pre ∧ pre config.shared ∧
    Ok sys con tid (config.code tid) pre fun _ => con.idle tid

def Meets (con : Contract Tid Act Choice Cmd Shared) (config : Config Tid Act Res Shared) :
    Event Tid Choice Cmd → Prop
  | .start _ _ => True
  | .step tid choice =>
    match config.code tid with
    | .ret _ => True
    | .act action _ => con.cond tid action choice config.shared

theorem meets_step {choice : Choice} (hcond : ∀ action next, config.code tid = .act action next →
      con.cond tid action choice config.shared) : con.Meets config (.step tid choice) := by
  rw [Meets]
  split
  · trivial
  · rename_i action next hcode
    exact hcond action next hcode

theorem Holds.shown (hholds : Holds sys con config) {choice : Choice} {action : Act}
    {next : Res action → Prog Act Res Unit} (hcode : config.code tid = .act action next)
    (hcond : con.cond tid action choice config.shared) {result : Res action} {s' : Shared}
    (hexec : sys.exec tid action choice config.shared = some (result, s')) :
    con.shown tid action choice config.shared s' := by
  obtain ⟨pre, -, hpre, hok⟩ := hholds.2 tid
  rw [hcode] at hok
  exact (hok _ hholds.1 hpre choice result _ hcond hexec).2.2.1

def LaunchOk (sys : System Tid Act Res Choice Cmd Shared)
    (con : Contract Tid Act Choice Cmd Shared) : Prop :=
  ∀ tid cmd s prog s', con.inv s → con.idle tid s → sys.launch tid cmd s = some (prog, s') →
    con.inv s' ∧ (∀ other, other ≠ tid → con.rely other s s') ∧
      ∃ pre, con.Stable tid pre ∧ pre s' ∧ Ok sys con tid prog pre fun _ => con.idle tid

variable [DecidableEq Tid]

theorem Holds.next (hlaunch : LaunchOk sys con) {config' : Config Tid Act Res Shared}
    {event : Event Tid Choice Cmd} (hholds : Holds sys con config) (hmeets : con.Meets config event)
    (hnext : sys.next config event = some config') : Holds sys con config' := by
  obtain ⟨hinv, hthreads⟩ := hholds
  -- the moving thread gets a new assertion, every other thread keeps its own by stability
  have hothers : ∀ tid prog, config'.code = Function.update config.code tid prog →
      con.inv config'.shared → (∀ other, other ≠ tid → con.rely other config.shared config'.shared) →
      (∃ pre, con.Stable tid pre ∧ pre config'.shared ∧
        Ok sys con tid prog pre fun _ => con.idle tid) → Holds sys con config' := by
    intro tid prog hcode hinv' hrely hthis
    refine ⟨hinv', fun other => ?_⟩
    by_cases heq : other = tid
    · subst heq
      simpa [hcode] using hthis
    · obtain ⟨pre, hstable, hpre, hok⟩ := hthreads other
      refine ⟨pre, hstable, hstable _ _ hinv hinv' (hrely other heq) hpre, ?_⟩
      simpa [hcode, Function.update_of_ne heq] using hok
  obtain ⟨tid, cmd, prog, rfl, hidle, hl, hcode⟩ | ⟨tid, choice, action, next, result, rfl, hcode,
    hexec, hcode'⟩ := System.next_cases hnext
  · obtain ⟨pre, -, hpre, hok⟩ := hthreads tid
    rw [hidle] at hok
    obtain ⟨hinv', hrely, hprog⟩ :=
      hlaunch tid cmd _ _ _ hinv (hok _ hinv hpre) hl
    exact hothers tid prog hcode hinv' hrely hprog
  · obtain ⟨pre, -, hpre, hok⟩ := hthreads tid
    rw [hcode] at hok
    simp only [Meets, hcode] at hmeets
    obtain ⟨hinv', hrely, -, hprog⟩ := hok _ hinv hpre choice result _ hmeets hexec
    exact hothers tid (next result) hcode' hinv' hrely hprog

/-- **Soundness.** Along a run whose steps meet the condition the invariant holds, and so does the
assertion of every thread. -/
theorem Holds.run (hlaunch : LaunchOk sys con) {config' : Config Tid Act Res Shared}
    {events : List (Event Tid Choice Cmd)} (hholds : Holds sys con config)
    (hrun : Transition.Run sys.next con.Meets config events config') : Holds sys con config' :=
  hrun.invariant (Holds sys con) (fun _ _ _ h hok hnext => h.next hlaunch hok hnext) hholds

end Contract

end Interleaving
