import ChatRoom.Lib.Program

/-! # Schedules -/

namespace Interleaving

variable {Tid Act : Type} {Res : Act → Type} {Choice Cmd Shared : Type}
variable {config config' : Config Tid Act Res Shared} {s s' : Shared} {answers rest : List Choice}

def Event.tid : Event Tid Choice Cmd → Tid
  | .start tid _ => tid
  | .step tid _ => tid

def Alone (config : Config Tid Act Res Shared) (event : Event Tid Choice Cmd) : Prop :=
  ∀ tid, tid ≠ event.tid → config.code tid = .ret ()

theorem idle_next [DecidableEq Tid] {sys : System Tid Act Res Choice Cmd Shared}
    {moving : Tid → Prop} {event : Event Tid Choice Cmd}
    (hothers : ∀ other, ¬moving other → config.code other = .ret ()) (hmoving : moving event.tid)
    (hnext : sys.next config event = some config') :
    ∀ other, ¬moving other → config'.code other = .ret () := by
  intro other hnever
  have hne : other ≠ event.tid := by
    rintro rfl
    exact hnever hmoving
  obtain ⟨tid, cmd, prog, rfl, -, -, hcode⟩ | ⟨tid, choice, action, next, result, rfl, -, -,
    hcode⟩ := System.next_cases hnext
  all_goals
    rw [hcode]
    exact (Function.update_of_ne hne _ _).trans (hothers other hnever)

/-! ### Scripts -/

inductive Move (Tid Choice Cmd : Type) where
  | start (tid : Tid) (cmd : Cmd)
  | steps (tid : Tid) (count : Nat)
  | step (tid : Tid) (choice : Choice)

section Scripts

variable [DecidableEq Tid] (sys : System Tid Act Res Choice Cmd Shared) (choose : Act → Choice)
  (check : Config Tid Act Res Shared → Event Tid Choice Cmd → Bool)

def checkedNext (config : Config Tid Act Res Shared) (event : Event Tid Choice Cmd) :
    Option (Config Tid Act Res Shared) :=
  if check config event then sys.next config event else none

def playSteps (tid : Tid) : Nat → Config Tid Act Res Shared → Option (Config Tid Act Res Shared)
  | 0, config => some config
  | count + 1, config =>
    match config.code tid with
    | .ret _ => some config
    | .act action _ =>
      (checkedNext sys check config (.step tid (choose action))).bind (playSteps tid count)

def play (config : Config Tid Act Res Shared) :
    List (Move Tid Choice Cmd) → Option (Config Tid Act Res Shared)
  | [] => some config
  | .start tid cmd :: moves =>
    (checkedNext sys check config (.start tid cmd)).bind fun config => play config moves
  | .steps tid count :: moves =>
    (playSteps sys choose check tid count config).bind fun config => play config moves
  | .step tid choice :: moves =>
    (checkedNext sys check config (.step tid choice)).bind fun config => play config moves

variable {sys choose check}

theorem checkedNext_run {event : Event Tid Choice Cmd}
    (hnext : checkedNext sys check config event = some config') :
    Transition.Run sys.next (fun config event => check config event = true) config [event]
      config' := by
  unfold checkedNext at hnext
  split at hnext
  · rename_i hcheck
    exact .snoc .nil hcheck hnext
  · cases hnext

theorem playSteps_run {tid : Tid} {count : Nat}
    (hplay : playSteps sys choose check tid count config = some config') :
    ∃ events, Transition.Run sys.next (fun config event => check config event = true) config events
      config' := by
  induction count generalizing config with
  | zero =>
    cases hplay
    exact ⟨[], .nil⟩
  | succ count ih =>
    rw [playSteps] at hplay
    split at hplay
    · cases hplay
      exact ⟨[], .nil⟩
    · obtain ⟨middle, hnext, hrest⟩ := Option.bind_eq_some_iff.mp hplay
      obtain ⟨events, hrun⟩ := ih hrest
      exact ⟨_, (checkedNext_run hnext).trans hrun⟩

theorem play_run {moves : List (Move Tid Choice Cmd)}
    (hplay : play sys choose check config moves = some config') :
    ∃ events, Transition.Run sys.next (fun config event => check config event = true) config events
      config' := by
  induction moves generalizing config with
  | nil =>
    cases hplay
    exact ⟨[], .nil⟩
  | cons move moves ih =>
    cases move with
    | start | step =>
      obtain ⟨middle, hnext, hrest⟩ := Option.bind_eq_some_iff.mp hplay
      obtain ⟨events, hrun⟩ := ih hrest
      exact ⟨_, (checkedNext_run hnext).trans hrun⟩
    | steps tid count =>
      obtain ⟨middle, hsteps, hrest⟩ := Option.bind_eq_some_iff.mp hplay
      obtain ⟨events, hfirst⟩ := playSteps_run hsteps
      obtain ⟨events', hsecond⟩ := ih hrest
      exact ⟨_, hfirst.trans hsecond⟩

theorem play_reaches {moves : List (Move Tid Choice Cmd)} {test : Config Tid Act Res Shared → Bool}
    (htest : (play sys choose check config moves).any test = true) :
    ∃ events config', Transition.Run sys.next (fun config event => check config event = true) config
      events config' ∧ test config' = true := by
  cases hplay : play sys choose check config moves with
  | none =>
    rw [hplay] at htest
    cases htest
  | some config' =>
    rw [hplay] at htest
    obtain ⟨events, hrun⟩ := play_run hplay
    exact ⟨events, config', hrun, htest⟩

end Scripts

/-! ### Serial histories -/

section Serial

variable (sys : System Tid Act Res Choice Cmd Shared)
  (feed : Act → List Choice → Option (Choice × List Choice))

def complete (tid : Tid) {α : Type} :
    Prog Act Res α → Shared → List Choice → Option (α × Shared × List Choice)
  | .ret value, s, answers => some (value, s, answers)
  | .act action next, s, answers =>
    match feed action answers with
    | none => none
    | some (choice, rest) =>
      match sys.exec tid action choice s with
      | none => none
      | some (result, s') => complete tid (next result) s' rest

structure Command (Tid Choice Cmd : Type) where
  tid : Tid
  cmd : Cmd
  answers : List Choice

def serve (s : Shared) (command : Command Tid Choice Cmd) : Option Shared :=
  match sys.launch command.tid command.cmd s with
  | none => none
  | some (prog, s') =>
    (complete sys feed command.tid prog s' command.answers).map fun (_, s', _) => s'

def serveAll (s : Shared) : List (Command Tid Choice Cmd) → Option Shared
  | [] => some s
  | command :: history =>
    match serve sys feed s command with
    | none => none
    | some s' => serveAll s' history

def SerialStep (config : Config Tid Act Res Shared) (event : Event Tid Choice Cmd) : Prop :=
  Alone config event ∧
    ∀ tid choice, event = .step tid choice →
      ∃ action next answers rest, config.code tid = .act action next ∧
        feed action answers = some (choice, rest)

variable {sys feed} {tid : Tid} {α β : Type}

theorem complete_bind (prog : Prog Act Res α) (f : α → Prog Act Res β) (s : Shared)
    (answers : List Choice) :
    complete sys feed tid (prog >>= f) s answers =
      (complete sys feed tid prog s answers).bind
        fun (value, s', rest) => complete sys feed tid (f value) s' rest := by
  induction prog generalizing s answers with
  | ret value => rfl
  | act action next ih =>
    rw [Prog.act_bind, complete, complete]
    cases feed action answers with
    | none => rfl
    | some fed =>
      cases hexec : sys.exec tid action fed.1 s with
      | none => simp [hexec]
      | some out => simpa [hexec] using ih out.1 out.2 fed.2

theorem complete_congr {sys' : System Tid Act Res Choice Cmd Shared} (hexec : sys.exec = sys'.exec)
    (prog : Prog Act Res α) (s : Shared) (answers : List Choice) :
    complete sys feed tid prog s answers = complete sys' feed tid prog s answers := by
  induction prog generalizing s answers with
  | ret value => rfl
  | act action next ih => simp only [complete, hexec, ih]

theorem complete_act {action : Act} {next : Res action → Prog Act Res α} {choice : Choice}
    {result : Res action} (hfeed : feed action answers = some (choice, rest))
    (hexec : sys.exec tid action choice s = some (result, s')) :
    complete sys feed tid (.act action next) s answers =
      complete sys feed tid (next result) s' rest := by
  simp only [complete, hfeed, hexec]

theorem exec_of_complete_perform {action : Act} {result : Res action}
    (hcomplete : complete sys feed tid (Prog.perform action) s answers =
      some (result, s', rest)) : ∃ choice, sys.exec tid action choice s = some (result, s') := by
  rw [Prog.perform, complete] at hcomplete
  split at hcomplete
  · cases hcomplete
  · rename_i choice fed hfeed
    split at hcomplete
    · cases hcomplete
    · rename_i result' middle hexec
      cases hcomplete
      exact ⟨choice, hexec⟩

variable (sys feed tid) in
def SameFrom (pre : Shared → Prop) (left right : Prog Act Res α) : Prop :=
  ∀ s answers, pre s →
    complete sys feed tid left s answers = complete sys feed tid right s answers

theorem SameFrom.refl (pre : Shared → Prop) (prog : Prog Act Res α) :
    SameFrom sys feed tid pre prog prog := fun _ _ _ => rfl

theorem SameFrom.after {pre mid : Shared → Prop} {prog : Prog Act Res α}
    {left right : α → Prog Act Res β}
    (hprog : ∀ s answers value s' rest, pre s →
      complete sys feed tid prog s answers = some (value, s', rest) → mid s')
    (hsame : ∀ value, SameFrom sys feed tid mid (left value) (right value)) :
    SameFrom sys feed tid pre (prog >>= left) (prog >>= right) := by
  intro s answers hpre
  rw [complete_bind, complete_bind]
  cases hcomplete : complete sys feed tid prog s answers with
  | none => rfl
  | some out =>
    obtain ⟨value, s', rest⟩ := out
    exact hsame value s' rest (hprog s answers value s' rest hpre hcomplete)

theorem SameFrom.before {pre : Shared → Prop} {left right : Prog Act Res α}
    (hsame : SameFrom sys feed tid pre left right) (f : α → Prog Act Res β) :
    SameFrom sys feed tid pre (left >>= f) (right >>= f) := by
  intro s answers hpre
  rw [complete_bind, complete_bind, hsame s answers hpre]

theorem serveAll_congr {sys' : System Tid Act Res Choice Cmd Shared} (Inv : Shared → Prop)
    (hstep : ∀ s command s', Inv s → serve sys feed s command = some s' → Inv s')
    (hserve : ∀ s command, Inv s → serve sys feed s command = serve sys' feed s command)
    (hinv : Inv s) (history : List (Command Tid Choice Cmd)) :
    serveAll sys feed s history = serveAll sys' feed s history := by
  induction history generalizing s with
  | nil => rfl
  | cons command history ih =>
    rw [serveAll, serveAll, ← hserve s command hinv]
    cases hone : serve sys feed s command with
    | none => rfl
    | some s' => exact ih (hstep s command s' hinv hone)

variable [DecidableEq Tid]

theorem complete_run {prog : Prog Act Res Unit} (config : Config Tid Act Res Shared)
    (hcode : config.code tid = prog) (hothers : ∀ other, other ≠ tid → config.code other = .ret ())
    (hcomplete : complete sys feed tid prog config.shared answers = some ((), s', rest)) :
    ∃ events, Transition.Run sys.next (SerialStep feed) config events ⟨s', fun _ => .ret ()⟩ := by
  induction prog generalizing config answers with
  | ret value =>
    cases hcomplete
    have hidle : config.code = fun _ => .ret () := by
      funext other
      by_cases heq : other = tid
      · rw [heq, hcode]
      · exact hothers other heq
    refine ⟨[], ?_⟩
    rw [← hidle]
    exact .nil
  | act action next ih =>
    rw [complete] at hcomplete
    split at hcomplete
    · cases hcomplete
    · rename_i choice fed hfeed
      split at hcomplete
      · cases hcomplete
      · rename_i result middle hexec
        have hstep : SerialStep feed config (.step tid choice : Event Tid Choice Cmd) := by
          refine ⟨hothers, ?_⟩
          rintro _ _ ⟨rfl, rfl⟩
          exact ⟨action, next, answers, fed, hcode, hfeed⟩
        have hnext : sys.next config (.step tid choice) =
            some ⟨middle, Function.update config.code tid (next result)⟩ := by
          simp [System.next, hcode, hexec]
        obtain ⟨events, hrun⟩ := ih result
          ⟨middle, Function.update config.code tid (next result)⟩ (Function.update_self _ _ _)
          (fun other hne => by simpa [Function.update_of_ne hne] using hothers other hne)
          hcomplete
        exact ⟨_, Transition.Run.cons hstep hnext hrun⟩

theorem serve_run {command : Command Tid Choice Cmd} (hserve : serve sys feed s command = some s') :
    ∃ events, Transition.Run sys.next (SerialStep feed) ⟨s, fun _ => .ret ()⟩ events
      ⟨s', fun _ => .ret ()⟩ := by
  rw [serve] at hserve
  split at hserve
  · cases hserve
  · rename_i prog middle hlaunch
    obtain ⟨⟨_, final, rest⟩, hcomplete, hfinal⟩ := Option.map_eq_some_iff.mp hserve
    cases hfinal
    let code : Tid → Prog Act Res Unit := Function.update (fun _ => .ret ()) command.tid prog
    have hstart : SerialStep feed (⟨s, fun _ => .ret ()⟩ : Config Tid Act Res Shared)
        (.start command.tid command.cmd) := ⟨fun _ _ => rfl, nofun⟩
    have hnext : sys.next ⟨s, fun _ => .ret ()⟩ (.start command.tid command.cmd) =
        some ⟨middle, code⟩ := by
      simp [System.next, hlaunch, code]
    have hcode : code command.tid = prog := Function.update_self _ _ _
    have hothers : ∀ other, other ≠ command.tid → code other = .ret () :=
      fun other hne => Function.update_of_ne hne _ _
    obtain ⟨events, hrun⟩ := complete_run ⟨middle, code⟩ hcode hothers hcomplete
    exact ⟨_, Transition.Run.cons hstart hnext hrun⟩

theorem serveAll_run {history : List (Command Tid Choice Cmd)}
    (hserve : serveAll sys feed s history = some s') :
    ∃ events, Transition.Run sys.next (SerialStep feed) ⟨s, fun _ => .ret ()⟩ events
      ⟨s', fun _ => .ret ()⟩ := by
  induction history generalizing s with
  | nil =>
    cases hserve
    exact ⟨[], .nil⟩
  | cons command history ih =>
    rw [serveAll] at hserve
    split at hserve
    · cases hserve
    · rename_i middle hone
      obtain ⟨events, hfirst⟩ := serve_run hone
      obtain ⟨events', hrest⟩ := ih hserve
      exact ⟨_, hfirst.trans hrest⟩

end Serial

end Interleaving
