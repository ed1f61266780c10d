import ChatRoom.FtpConfinement

/-! # What FTP transfers do -/

namespace ChatRoom.Ftp

open Filesystem Transition

section

variable {root : Location}

/-! ### Restart offsets -/

def spends (world : World root) (session : Session) (verb : Verb) (arg : Bytes) : Bool :=
  session.restOffset = 0 ||
    match verb with
    | .retr => retrDrops world session arg || retrSends world session arg
    | .stor => storDrops world session arg || storReceives world session arg
    | _ => true

theorem offset_eq_zero_iff {given : Bool} {offset : Nat} :
    (if given then 0 else offset) = 0 ↔ (offset = 0 || given) = true := by
  cases given <;> simp

theorem Ends.restart {world : World root} {session : Session} {arg : Bytes} {verb : Verb}
    {response : Response} {dropped transferred : Bool}
    (hends : Ends world session arg verb response dropped transferred)
    (hidle : (session.loggedIn && !arg.isEmpty) = false → dropped = false ∧ transferred = false)
    (hspends : (session.loggedIn && !arg.isEmpty) = true →
      (session.restOffset = 0 || (dropped || transferred)) = true) :
    response.session.restart =
      if session.loggedIn && !arg.isEmpty then { session.restart with offset := 0 }
      else session.restart := by
  obtain ⟨-, hloggedIn, hoffset⟩ := hends.kept
  rw [Session.restart, hloggedIn, hoffset]
  cases hready : session.loggedIn && !arg.isEmpty with
  | false =>
    obtain ⟨rfl, rfl⟩ := hidle hready
    rfl
  | true =>
    rw [offset_eq_zero_iff.mpr (hspends hready)]
    rfl

theorem restart_handle {world : World root} {session : Session} {verb : Verb} {arg : Bytes}
    (hspends : (session.loggedIn && !arg.isEmpty) = true → spends world session verb arg = true) :
    (handle world session verb arg).session.restart = session.restart.next verb arg := by
  cases hquiet : verb.quiet with
  | true => exact (handle_quiet hquiet).2.2
  | false =>
    cases verb with
    | cwd =>
      simp only [handle, handleCWD]
      split
      · split
        · rfl
        · split <;> rfl
      · rfl
    | list =>
      rw [handle]
      rcases session_handleLIST with hsession | hsession <;> rw [hsession] <;> rfl
    | retr =>
      refine ends_handleRETR.restart (fun hidle => ?_) hspends
      simp [retrDrops, retrSends, retrSize, hidle]
    | stor =>
      refine ends_handleSTOR.restart (fun hidle => ?_) hspends
      simp [storDrops, storReceives, storTarget, hidle]
    | _ => cases hquiet

def Event.restart (restart : Restart) (event : Event root) : Restart :=
  let command := parseCommand (trim event.line)
  restart.next (verb command.name) command.rawArguments

def spent (state : State) (event : Event root) : Bool :=
  let command := parseCommand (trim event.line)
  !(state.session.loggedIn && !command.rawArguments.isEmpty) ||
    spends event.world state.session (verb command.name) command.rawArguments

theorem restart_next {state state' : State} {event : Event root}
    (hspent : spent state event = true) (hnext : next state event = some state') :
    state'.session.restart = event.restart state.session.restart := by
  unfold next at hnext
  dsimp only at hnext
  split_ifs at hnext with hclosed hempty
  · cases hnext
    rw [Event.restart, List.isEmpty_iff.mp hempty]
    rfl
  · cases hnext
    refine restart_handle fun hready => ?_
    simpa [spent, hready] using hspent

/-- **An offset serves one transfer** in every run in which no transfer with an offset is cut short,
and after such a transfer only then. -/
theorem restart_offset_spent :
    (∀ (world : World root) (session : Session) (arg : Bytes), session.loggedIn = true → arg ≠ [] →
      ((handleRETR world session arg).session.restOffset = 0 ↔
        spends world session .retr arg = true) ∧
      ((handleSTOR world session arg).session.restOffset = 0 ↔
        spends world session .stor arg = true)) ∧
    ∀ (tree : FileTree) (events : List (Event root)) (state : State),
      Run next (fun state event => spent state event = true) (State.start tree) events state →
        state.session.restart =
          events.foldl (fun restart event => event.restart restart) ⟨false, 0⟩ := by
  refine ⟨fun world session arg _ _ => ?_, fun tree events state hrun => ?_⟩
  · rw [ends_handleRETR.kept.2.2, ends_handleSTOR.kept.2.2]
    exact ⟨offset_eq_zero_iff, offset_eq_zero_iff⟩
  · induction hrun with
    | nil => rfl
    | snoc _ hspent hnext ih => rw [restart_next hspent hnext, ih, List.foldl_concat]

end

theorem restart_offset_spent_upload :
    ∃ state : State, state.session.restart = ⟨true, 0⟩ ∧ state.session.restart =
      [exampleEvent "PASS x", exampleEvent "REST 1", exampleEvent "PASV",
        exampleEvent "STOR f"].foldl (fun restart event => event.restart restart) ⟨false, 0⟩ := by
  have htest : (replay next spent (State.start exampleTree)
      [exampleEvent "PASS x", exampleEvent "REST 1", exampleEvent "PASV", exampleEvent "STOR f"]).any
      (fun state => state.session.restart = ⟨true, 0⟩) = true := by
    decide +kernel
  obtain ⟨state, hrun, hstate⟩ := replay_reaches (fun _ _ hspent => hspent) htest
  exact ⟨state, of_decide_eq_true hstate, restart_offset_spent.2 exampleTree _ state hrun⟩

/-- The offset of a download that does not find its file is there for the next transfer. -/
theorem restart_offset_left :
    ∃ (events : List (Event [[114]])) (state : State),
      Run next anyStep (State.start exampleTree) (events ++ [exampleEvent "RETR g"]) state ∧
        state.session.restOffset = 2 := by
  have hcheck : ∀ (state : State) (event : Event [[114]]), true = true → anyStep state event :=
    fun _ _ _ => trivial
  have htest : (replay next (fun _ _ => true) (State.start exampleTree)
      [exampleEvent "PASS x", exampleEvent "REST 2", exampleEvent "RETR g"]).any
      (fun state => state.session.restOffset = 2) = true := by decide +kernel
  obtain ⟨state, hrun, hstate⟩ := replay_reaches hcheck htest
  exact ⟨[exampleEvent "PASS x", exampleEvent "REST 2"], state, hrun, of_decide_eq_true hstate⟩

/-! ### What is transferred -/

inductive CallResult where
  | count (n : Nat)
  | interrupted
  | failed
  deriving DecidableEq, Repr

def sendLoop (content : Bytes) : List CallResult → Nat → Nat → Option (Bool × Bytes)
  | [], _, remain => if remain = 0 then some (true, []) else none
  | result :: results, offset, remain =>
    if remain = 0 then none
    else
      match result with
      | .interrupted => sendLoop content results offset remain
      | .failed => if results = [] then some (false, []) else none
      | .count n =>
        if min remain (16 * 1024 * 1024) < n then none
        else if n = 0 then if results = [] then some (true, []) else none
        else
          (sendLoop content results (offset + n) (remain - n)).map fun (ok, sent) =>
            (ok, (content.drop offset).take n ++ sent)

def writeLoop : List CallResult → Bytes → Option (Bool × Bytes)
  | [], data => if data = [] then some (true, []) else none
  | result :: results, data =>
    if data = [] then none
    else
      match result with
      | .interrupted => writeLoop results data
      | .failed => if results = [] then some (false, []) else none
      | .count n =>
        if data.length < n then none
        else
          (writeLoop results (data.drop n)).map fun (ok, written) => (ok, data.take n ++ written)

inductive Round where
  | data (bytes : Bytes) (writes : List CallResult)
  | interrupted
  | failed
  | closed
  deriving DecidableEq, Repr

def recvLoop : List Round → Option (Bool × Bytes)
  | [] => none
  | .interrupted :: rounds => recvLoop rounds
  | .failed :: rounds => if rounds = [] then some (false, []) else none
  | .closed :: rounds => if rounds = [] then some (true, []) else none
  | .data bytes writes :: rounds =>
    if bytes = [] ∨ 256 * 1024 < bytes.length then none
    else
      match writeLoop writes bytes with
      | none => none
      | some (false, written) => if rounds = [] then some (false, written) else none
      | some (true, written) =>
        (recvLoop rounds).map fun (ok, later) => (ok, written ++ later)

def received (rounds : List Round) : Bytes :=
  rounds.flatMap fun
    | .data bytes _ => bytes
    | _ => []

theorem sendLoop_complete {content sent : Bytes} {results : List CallResult} {offset remain : Nat}
    {ok : Bool} (hsent : sendLoop content results offset remain = some (ok, sent))
    (hremain : content.length - offset = remain) :
    (ok = true → sent = content.drop offset) ↔ .count 0 ∉ results := by
  induction results generalizing offset remain sent with
  | nil =>
    obtain ⟨hnone, hsent⟩ := Option.ite_none_right_eq_some.mp hsent
    cases hsent
    have hdrop : content.drop offset = [] := List.drop_eq_nil_of_le (by omega)
    simp [hdrop]
  | cons result results ih =>
    obtain ⟨hmore, hsent⟩ := Option.ite_none_left_eq_some.mp hsent
    cases result with
    | interrupted => simpa using ih hsent hremain
    | failed =>
      obtain ⟨rfl, hsent⟩ := Option.ite_none_right_eq_some.mp hsent
      cases hsent
      simp
    | count n =>
      obtain ⟨hcount, hsent⟩ := Option.ite_none_left_eq_some.mp hsent
      by_cases hzero : n = 0
      · rw [if_pos hzero] at hsent
        obtain ⟨rfl, hsent⟩ := Option.ite_none_right_eq_some.mp hsent
        cases hsent
        have hdrop : content.drop offset ≠ [] := by
          rw [ne_eq, List.drop_eq_nil_iff]
          omega
        simp [hzero, hdrop.symm]
      · rw [if_neg hzero] at hsent
        obtain ⟨⟨later, rest⟩, hlater, heq⟩ := Option.map_eq_some_iff.mp hsent
        cases heq
        have hsplit : content.drop offset =
            (content.drop offset).take n ++ content.drop (offset + n) := by
          rw [← List.drop_drop, List.take_append_drop]
        have hrest : (content.drop offset).take n ++ rest = content.drop offset ↔
            rest = content.drop (offset + n) := by
          nth_rewrite 2 [hsplit]
          exact List.append_right_inj _
        rw [hrest, ih hlater (by omega), List.mem_cons, not_or]
        simp [Ne.symm hzero]

theorem writeLoop_complete {data written : Bytes} {results : List CallResult}
    (hwritten : writeLoop results data = some (true, written)) : written = data := by
  induction results generalizing data written with
  | nil =>
    obtain ⟨rfl, hwritten⟩ := Option.ite_none_right_eq_some.mp hwritten
    cases hwritten
    rfl
  | cons result results ih =>
    obtain ⟨-, hwritten⟩ := Option.ite_none_left_eq_some.mp hwritten
    cases result with
    | interrupted => exact ih hwritten
    | failed =>
      obtain ⟨-, hwritten⟩ := Option.ite_none_right_eq_some.mp hwritten
      cases hwritten
    | count n =>
      obtain ⟨-, hwritten⟩ := Option.ite_none_left_eq_some.mp hwritten
      obtain ⟨⟨ok, rest⟩, hrest, heq⟩ := Option.map_eq_some_iff.mp hwritten
      cases heq
      rw [ih hrest, List.take_append_drop]

theorem recvLoop_complete {rounds : List Round} {written : Bytes}
    (hwritten : recvLoop rounds = some (true, written)) :
    written = received rounds ∧ rounds.getLast? = some .closed := by
  induction rounds generalizing written with
  | nil => cases hwritten
  | cons round rounds ih =>
    cases round with
    | interrupted =>
      obtain ⟨hrest, hlast⟩ := ih hwritten
      exact ⟨hrest, by simp [List.getLast?_cons, hlast]⟩
    | failed =>
      obtain ⟨-, hwritten⟩ := Option.ite_none_right_eq_some.mp hwritten
      cases hwritten
    | closed =>
      obtain ⟨rfl, hwritten⟩ := Option.ite_none_right_eq_some.mp hwritten
      cases hwritten
      exact ⟨rfl, rfl⟩
    | data bytes writes =>
      obtain ⟨-, hwritten⟩ := Option.ite_none_left_eq_some.mp hwritten
      split at hwritten
      · cases hwritten
      · obtain ⟨-, hwritten⟩ := Option.ite_none_right_eq_some.mp hwritten
        cases hwritten
      · rename_i first hfirst
        obtain ⟨⟨ok, later⟩, hlater, heq⟩ := Option.map_eq_some_iff.mp hwritten
        cases heq
        obtain ⟨rfl, hlast⟩ := ih hlater
        obtain rfl := writeLoop_complete hfirst
        exact ⟨rfl, by simp [List.getLast?_cons, hlast]⟩

/-- The file after `data` is written at `offset`; what lies between is a hole. -/
def writeAt (content : Bytes) (offset : Nat) (data : Bytes) : Bytes :=
  content.take offset ++ List.replicate (offset - content.length) 0 ++ data ++
    content.drop (offset + data.length)

section

variable {root : Location} (world : World root) (session : Session) (arg : Bytes)

/-- `open` with `O_CREAT`, and with `O_TRUNC` if it truncates. -/
def Operation.apply (opened : Bool) (content : Option Bytes) (operation : Operation) :
    Option Bytes :=
  match operation.kind with
  | .openWrite truncates =>
    if opened then some (if truncates then [] else content.getD []) else content
  | _ => content

def openedContent (content : Option Bytes) : Bytes :=
  if session.restOffset = 0 then [] else content.getD []

def runRETR (content : Bytes) (results : List CallResult) : Option (Response × Bytes) :=
  if retrSends world session arg then
    if retrSize world session arg ≠ some content.length then none
    else (sendLoop content results session.restOffset (content.length - session.restOffset)).map
      fun (ok, sent) => (handleRETR { world with transferred := ok } session arg, sent)
  else if results = [] then some (handleRETR world session arg, [])
  else none

def runSTOR (content : Option Bytes) (rounds : List Round) : Option (Response × Option Bytes) :=
  if storReceives world session arg then
    (recvLoop rounds).map fun (ok, written) =>
      let response := handleSTOR { world with transferred := ok } session arg
      (response, (response.operations.foldl (Operation.apply world.opened) content).map fun opened =>
        writeAt opened session.restOffset written)
  else if rounds = [] then
    let response := handleSTOR world session arg
    some (response, response.operations.foldl (Operation.apply world.opened) content)
  else none

/-- The target of a `STOR` is opened before the data connection is accepted. -/
theorem handleSTOR_opens (content : Option Bytes) :
    (handleSTOR world session arg).operations.foldl (Operation.apply world.opened) content =
      if (storTarget world session arg).isSome && world.opened then
        some (openedContent session content)
      else content := by
  obtain ⟨what, haccept, -⟩ := acceptDataConnection_cases world session
  unfold handleSTOR storTarget
  rw [haccept]
  cases session.loggedIn with
  | false => rfl
  | true =>
    cases arg.isEmpty with
    | true => rfl
    | false =>
      cases resolvePath world session arg with
      | none => rfl
      | some file =>
        simp only [Bool.not_false, Bool.and_self, if_true, Bool.false_eq_true, if_false,
          Option.bind_eq_bind, Option.bind_some]
        match world.tree.lookup file.parentPath with
        | none | some none | some (some (.file _)) | some (some (.link _)) => rfl
        | some (some .directory) =>
          cases hopened : world.opened with
          | false => rfl
          | true =>
            have hopens : List.foldl (Operation.apply true) content [⟨.exists, file.parentPath⟩,
                ⟨.isDirectory, file.parentPath⟩, ⟨.openWrite (session.restOffset = 0), file⟩] =
                  some (openedContent session content) := by
              simp [Operation.apply, openedContent]
            simp only [if_true]
            split
            · exact hopens
            · cases what <;> exact hopens

variable {world session arg}

def Response.Complete (response : Response) : Prop := ∃ answer ∈ response.replies, answer.code = 226

/-- **226 means complete** for every upload, and for exactly those downloads of which no call sends
nothing. -/
theorem complete_means_complete :
    (∀ {content sent : Bytes} {results : List CallResult} {response : Response},
      runRETR world session arg content results = some (response, sent) →
      ((response.Complete → sent = content.drop session.restOffset) ↔ .count 0 ∉ results)) ∧
    ∀ {content stored : Option Bytes} {rounds : List Round} {response : Response},
      runSTOR world session arg content rounds = some (response, stored) → response.Complete →
        rounds.getLast? = some .closed ∧ stored =
          some (writeAt (openedContent session content) session.restOffset (received rounds)) := by
  refine ⟨fun {content sent results response} hrun => ?_,
    fun {content stored rounds response} hrun hcomplete => ?_⟩
  · unfold runRETR at hrun
    split at hrun
    · rename_i hsends
      obtain ⟨-, hrun⟩ := Option.ite_none_left_eq_some.mp hrun
      obtain ⟨⟨ok, bytes⟩, hloop, heq⟩ := Option.map_eq_some_iff.mp hrun
      cases heq
      have hcomplete : Response.Complete (handleRETR { world with transferred := ok } session arg) ↔
          ok = true := by
        rw [Response.Complete, ends_handleRETR.complete]
        exact and_iff_right hsends
      rw [hcomplete]
      exact sendLoop_complete hloop rfl
    · rename_i hsends
      obtain ⟨rfl, hrun⟩ := Option.ite_none_right_eq_some.mp hrun
      cases hrun
      refine iff_of_true (fun hcomplete => ?_) List.not_mem_nil
      exact absurd (ends_handleRETR.complete.mp hcomplete).1 hsends
  · unfold runSTOR at hrun
    split at hrun
    · rename_i hreceives
      obtain ⟨⟨ok, written⟩, hloop, heq⟩ := Option.map_eq_some_iff.mp hrun
      cases heq
      obtain rfl : ok = true := (ends_handleSTOR.complete.mp hcomplete).2
      obtain ⟨rfl, hlast⟩ := recvLoop_complete hloop
      have hopens : (handleSTOR { world with transferred := true } session arg).operations.foldl
          (Operation.apply world.opened) content = some (openedContent session content) := by
        refine (handleSTOR_opens { world with transferred := true } session arg content).trans
          (if_pos ?_)
        simp only [storReceives, Bool.and_eq_true] at hreceives
        exact Bool.and_eq_true_iff.mpr hreceives.1.1
      exact ⟨hlast, congrArg (Option.map _) hopens⟩
    · rename_i hreceives
      obtain ⟨rfl, hrun⟩ := Option.ite_none_right_eq_some.mp hrun
      cases hrun
      exact absurd (ends_handleSTOR.complete.mp hcomplete).1 hreceives

def wholeWorld : World [] :=
  { (exampleEvent "").world with rooted := by decide +kernel }

def readySession (passive : Bool) (restOffset : Nat) : Session :=
  { Session.start with loggedIn := true, passive, restOffset }

theorem complete_means_complete_in_parts :
    ∃ response sent, runRETR wholeWorld (readySession true 2) (utf8 "s") [1, 2, 3, 4, 5, 6, 7]
        [.count 3, .interrupted, .count 2] = some (response, sent) ∧
      (response.Complete → sent = [3, 4, 5, 6, 7]) := by
  have hruns : (runRETR wholeWorld (readySession true 2) (utf8 "s") [1, 2, 3, 4, 5, 6, 7]
      [.count 3, .interrupted, .count 2]).isSome = true := by
    decide +kernel
  obtain ⟨⟨response, sent⟩, hrun⟩ := Option.isSome_iff_exists.mp hruns
  exact ⟨response, sent, hrun, (complete_means_complete.1 hrun).mpr (by decide)⟩

theorem short_download_complete :
    (runRETR wholeWorld (readySession true 0) (utf8 "s") [1, 2, 3, 4, 5, 6, 7]
      [.count 3, .count 0]).map (fun (response, sent) => (response.replies.map Reply.code, sent)) =
      some ([150, 226], [1, 2, 3]) := by
  decide +kernel

/-- **`STOR` without a data connection** leaves a file alone if it does not open it. One that it opens
stays the same if it was there and is not cut. -/
theorem stor_without_connection {content stored : Option Bytes} {rounds : List Round}
    {response : Response} (hnone : storReceives world session arg = false)
    (hrun : runSTOR world session arg content rounds = some (response, stored)) :
    stored = content ↔
      ((storTarget world session arg).isSome = true → world.opened = true →
        content.isSome = true ∧ (session.restOffset = 0 → content = some [])) := by
  rw [runSTOR, hnone, if_neg Bool.false_ne_true] at hrun
  obtain ⟨-, hrun⟩ := Option.ite_none_right_eq_some.mp hrun
  cases hrun
  rw [handleSTOR_opens]
  unfold openedContent
  cases (storTarget world session arg).isSome <;> cases world.opened <;> cases content <;>
    by_cases hzero : session.restOffset = 0 <;> simp [hzero, eq_comm]

theorem stor_without_connection_offset :
    ∃ response, runSTOR wholeWorld (readySession false 2) (utf8 "s") (some [1, 2, 3]) [] =
      some (response, some [1, 2, 3]) := by
  have hruns : (runSTOR wholeWorld (readySession false 2) (utf8 "s") (some [1, 2, 3]) []).isSome =
      true := by
    decide +kernel
  obtain ⟨⟨response, stored⟩, hrun⟩ := Option.isSome_iff_exists.mp hruns
  obtain rfl := (stor_without_connection (by decide +kernel) hrun).mpr fun _ _ =>
    ⟨rfl, fun hzero => absurd hzero (by decide)⟩
  exact ⟨response, hrun⟩

theorem stor_without_connection_cuts :
    (runSTOR wholeWorld (readySession false 0) (utf8 "s") (some [1, 2, 3]) []).map Prod.snd =
      some (some []) ∧
    (runSTOR wholeWorld (readySession false 0) (utf8 "t") none []).map Prod.snd = some (some []) := by
  decide +kernel

end

end ChatRoom.Ftp
