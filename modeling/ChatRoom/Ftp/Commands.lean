import ChatRoom.Ftp.Session

/-! # How FTP commands end -/

namespace ChatRoom.Ftp

open Filesystem

section Commands

variable {root : Location} (world : World root) (session : Session) (arg : Bytes)

def connects : Bool := session.passive && world.dataConnection = .accepted

/-- The paths that a command comes to hand to file operations: the one that its argument names, the
entries of a directory that is listed, and the directory in which a file is stored. -/
def Handed (verb : Verb) (path handed : Path) : Prop :=
  handed = path
    ∨ (verb = .list ∧ connects world session = true ∧ handed ∈ directoryEntries world.tree path)
    ∨ (verb = .stor ∧ arg.isEmpty = false ∧ handed = path.parentPath)

def Touches (verb : Verb) (operations : List Operation) : Prop :=
  ∀ operation ∈ operations, session.loggedIn = true ∧
    ∃ path, resolvePath world session arg = some path ∧
      Handed world session arg verb path operation.path

def retrSize : Option Nat :=
  if session.loggedIn && !arg.isEmpty then do
    let file ← resolvePath world session arg
    match world.tree.lookup file with
    | some (some (.file size)) => some size
    | _ => none
  else
    none

def storTarget : Option Path :=
  if session.loggedIn && !arg.isEmpty then do
    let file ← resolvePath world session arg
    match world.tree.lookup file.parentPath with
    | some (some .directory) => some file
    | _ => none
  else
    none

def retrDrops : Bool := (retrSize world session arg).any fun size => size < session.restOffset

def retrSends : Bool :=
  (retrSize world session arg).any fun size =>
    session.restOffset ≤ size && world.opened && connects world session

def storDrops : Bool :=
  (storTarget world session arg).isSome && world.opened && 0 < session.restOffset && !world.seeked

def storReceives : Bool :=
  (storTarget world session arg).isSome && world.opened &&
    (session.restOffset = 0 || world.seeked) && connects world session

inductive Ends (verb : Verb) : Response → Bool → Bool → Prop where
  | refused {operations : List Operation} {answer : Reply}
      (htouches : Touches world session arg verb operations) (hcode : answer.code ≠ 226) :
      Ends verb (respond session operations [answer]) false false
  | dropped {operations : List Operation} {answer : Reply}
      (htouches : Touches world session arg verb operations) (hcode : answer.code ≠ 226) :
      Ends verb (respond { session with restOffset := 0 } operations [answer]) true false
  | unconnected {operations : List Operation} {opening : Reply} {what : Bytes}
      (htouches : Touches world session arg verb operations) (hopening : opening.code = 150) :
      Ends verb (throws { session with passive := false } operations [opening] what) false false
  | transferred {operations : List Operation} {opening : Reply}
      (htouches : Touches world session arg verb operations) (hopening : opening.code = 150) :
      Ends verb (finish world { session with passive := false } operations opening) false true

variable {world session arg} {verb : Verb} {response : Response} {dropped transferred : Bool}

theorem touches_nil : Touches world session arg verb [] :=
  fun _ hmem => absurd hmem List.not_mem_nil

theorem touches_of_path {path : Path} (hlogin : session.loggedIn = true)
    (hpath : resolvePath world session arg = some path) {operations : List Operation}
    (hhanded : ∀ operation ∈ operations, Handed world session arg verb path operation.path) :
    Touches world session arg verb operations :=
  fun operation hmem => ⟨hlogin, path, hpath, hhanded operation hmem⟩

theorem acceptDataConnection_cases (world : World root) (session : Session) :
    ∃ what, acceptDataConnection world session = ({ session with passive := false }, what) ∧
      connects world session = what.isNone := by
  obtain ⟨cwdRel, loggedIn, binaryMode, restOffset, passive⟩ := session
  unfold acceptDataConnection connects
  cases passive with
  | false => exact ⟨_, rfl, rfl⟩
  | true => cases world.dataConnection <;> exact ⟨_, rfl, rfl⟩

theorem ends_accept {operations : List Operation} {opening : Reply}
    (htouches : Touches world session arg verb operations) (hopening : opening.code = 150) :
    Ends world session arg verb
      (match acceptDataConnection world session with
      | (session, some what) => throws session operations [opening] what
      | (session, none) => finish world session operations opening)
      false (connects world session) := by
  obtain ⟨what, haccept, hconnects⟩ := acceptDataConnection_cases world session
  rw [haccept, hconnects]
  cases what with
  | none => exact .transferred htouches hopening
  | some what => exact .unconnected htouches hopening

theorem ends_handleRETR : Ends world session arg .retr (handleRETR world session arg)
    (retrDrops world session arg) (retrSends world session arg) := by
  have hfailed : (550 : Nat) ≠ 226 := by decide
  obtain ⟨cwdRel, loggedIn, binaryMode, restOffset, passive⟩ := session
  unfold handleRETR retrDrops retrSends retrSize
  cases loggedIn with
  | false => exact .refused touches_nil hfailed
  | true =>
    cases arg.isEmpty with
    | true => exact .refused touches_nil (by decide)
    | false =>
      cases hpath : resolvePath world ⟨cwdRel, true, binaryMode, restOffset, passive⟩ arg with
      | none => exact .refused touches_nil hfailed
      | some file =>
        simp only [Bool.not_false, Bool.and_self, if_true, Bool.false_eq_true, if_false,
          Option.bind_eq_bind, Option.bind_some]
        match world.tree.lookup file with
        | none | some none | some (some .directory) | some (some (.link _)) =>
          exact .refused (touches_of_path rfl hpath (by simp [Handed])) hfailed
        | some (some (.file size)) =>
          simp only [Option.any_some]
          by_cases hoffset : size < restOffset
          · simp only [hoffset, not_le.mpr hoffset, if_true, decide_true, decide_false, Bool.false_and]
            exact .dropped (touches_of_path rfl hpath (by simp [Handed])) (by decide : (554 : Nat) ≠ 226)
          · simp only [hoffset, not_lt.mp hoffset, if_false, decide_true, decide_false, Bool.true_and]
            cases world.opened with
            | false => exact .refused (touches_of_path rfl hpath (by simp [Handed])) hfailed
            | true => exact ends_accept (touches_of_path rfl hpath (by simp [Handed])) rfl

theorem ends_handleSTOR : Ends world session arg .stor (handleSTOR world session arg)
    (storDrops world session arg) (storReceives world session arg) := by
  have hfailed : (550 : Nat) ≠ 226 := by decide
  obtain ⟨cwdRel, loggedIn, binaryMode, restOffset, passive⟩ := session
  unfold handleSTOR storDrops storReceives storTarget
  cases loggedIn with
  | false => exact .refused touches_nil hfailed
  | true =>
    cases hargument : arg.isEmpty with
    | true => exact .refused touches_nil (by decide)
    | false =>
      cases hpath : resolvePath world ⟨cwdRel, true, binaryMode, restOffset, passive⟩ arg with
      | none => exact .refused touches_nil hfailed
      | some file =>
        simp only [Bool.not_false, Bool.and_self, if_true, Bool.false_eq_true, if_false,
          Option.bind_eq_bind, Option.bind_some]
        match world.tree.lookup file.parentPath with
        | none | some none | some (some (.file _)) | some (some (.link _)) =>
          exact .refused (touches_of_path rfl hpath (by simp [Handed, hargument])) hfailed
        | some (some .directory) =>
          have hdone : Touches world _ arg .stor [⟨.exists, file.parentPath⟩,
              ⟨.isDirectory, file.parentPath⟩, ⟨.openWrite (restOffset = 0), file⟩] :=
            touches_of_path rfl hpath (by simp [Handed, hargument])
          simp only [Option.isSome_some, Bool.true_and]
          cases world.opened with
          | false => exact .refused hdone hfailed
          | true =>
            cases restOffset <;> cases world.seeked
            · exact ends_accept hdone rfl
            · exact ends_accept hdone rfl
            · exact .dropped hdone hfailed
            · exact ends_accept hdone rfl

theorem Ends.touches (hends : Ends world session arg verb response dropped transferred) :
    Touches world session arg verb response.operations := by
  cases hends <;> assumption

theorem Ends.kept (hends : Ends world session arg verb response dropped transferred) :
    response.session.cwdRel = session.cwdRel ∧ response.session.loggedIn = session.loggedIn ∧
      response.session.restOffset = if dropped || transferred then 0 else session.restOffset := by
  cases hends <;> exact ⟨rfl, rfl, rfl⟩

theorem Ends.complete (hends : Ends world session arg verb response dropped transferred) :
    (∃ answer ∈ response.replies, answer.code = 226) ↔
      transferred = true ∧ world.transferred = true := by
  cases hends with
  | refused _ hcode | dropped _ hcode => simp [respond, hcode]
  | unconnected _ hopening => simp [throws, hopening]
  | transferred _ hopening =>
    cases htransferred : world.transferred <;> simp [finish, respond, reply, hopening, htransferred]

theorem session_handleLIST : (handleLIST world session arg).session = session ∨
    (handleLIST world session arg).session = { session with passive := false } := by
  obtain ⟨what, haccept, -⟩ := acceptDataConnection_cases world session
  simp only [handleLIST, haccept]
  split
  · split
    · exact .inl rfl
    · split
      · exact .inl rfl
      · exact .inl rfl
      · cases what with
        | some what => exact .inr rfl
        | none =>
          right
          split_ifs
          · cases world.iterationFails <;> rfl
          · rfl
  · exact .inl rfl

/-! ### Commands without a path -/

structure Restart where
  loggedIn : Bool
  offset : Nat
  deriving DecidableEq

def Session.restart (session : Session) : Restart := ⟨session.loggedIn, session.restOffset⟩

def Restart.next (restart : Restart) (verb : Verb) (arg : Bytes) : Restart :=
  match verb with
  | .pass => { restart with loggedIn := true }
  | .rest =>
    match stoull (trim arg) with
    | some offset => if restart.loggedIn then { restart with offset } else restart
    | none => restart
  | .retr | .stor =>
    if restart.loggedIn && !arg.isEmpty then { restart with offset := 0 } else restart
  | _ => restart

def Verb.quiet : Verb → Bool
  | .cwd | .list | .retr | .stor => false
  | _ => true

theorem handle_quiet (hquiet : verb.quiet = true) :
    (handle world session verb arg).operations = [] ∧
      (handle world session verb arg).session.cwdRel = session.cwdRel ∧
      (handle world session verb arg).session.restart = session.restart.next verb arg := by
  cases verb with
  | cwd | list | retr | stor => cases hquiet
  | user | pass | quit | other => exact ⟨rfl, rfl, rfl⟩
  | pwd =>
    simp only [handle, handlePWD]
    split <;> exact ⟨rfl, rfl, rfl⟩
  | type =>
    simp only [handle, handleTYPE]
    split_ifs <;> exact ⟨rfl, rfl, rfl⟩
  | pasv =>
    simp only [handle, handlePASV]
    split
    · split <;> exact ⟨rfl, rfl, rfl⟩
    · exact ⟨rfl, rfl, rfl⟩
  | rest =>
    obtain ⟨cwdRel, loggedIn, binaryMode, restOffset, passive⟩ := session
    simp only [handle, handleREST, Restart.next, Session.restart]
    cases stoull (trim arg) <;> cases loggedIn <;> exact ⟨rfl, rfl, rfl⟩

end Commands

end ChatRoom.Ftp
