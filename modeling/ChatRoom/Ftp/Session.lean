import ChatRoom.Lib.FileTree
import ChatRoom.Text

/-!
# The FTP session

`FtpSession` of `linux_ftp_server/ftp_server.cpp`: the commands of one control connection, one after
the other. A command runs in a file tree that stays the same until it has been answered; the next
one may find another.
-/

namespace ChatRoom.Ftp

open Filesystem

inductive OperationKind where
  | exists
  | isDirectory
  | isRegularFile
  | fileSize
  | symlinkStatus
  | iterate
  | openRead
  | openWrite (truncates : Bool)
  deriving DecidableEq, Repr

structure Operation where
  kind : OperationKind
  path : Path
  deriving DecidableEq, Repr

structure Reply where
  code : Nat
  text : Bytes
  deriving DecidableEq, Repr

structure Line where
  directory : Bool
  size : Nat
  name : Name
  deriving DecidableEq, Repr

inductive DataConnection where
  | accepted
  | timeout
  | failed
  deriving DecidableEq, Repr

/-- The system as one command finds it. The root directory of the server, which is canonical, is a
directory of the tree. -/
structure World (root : Location) where
  tree : FileTree
  rooted : tree.entry root = some .directory
  dataConnection : DataConnection
  passivePort : Option Nat
  localIp : Bytes
  /-- The number of entries after which reading a directory fails, if it does. -/
  iterationFails : Option Nat
  opened : Bool
  seeked : Bool
  transferred : Bool
  systemError : Bytes

structure Session where
  cwdRel : Path
  loggedIn : Bool
  binaryMode : Bool
  restOffset : Nat
  passive : Bool
  deriving DecidableEq, Repr

def Session.start : Session :=
  { cwdRel := ⟨false, [dot]⟩, loggedIn := false, binaryMode := true, restOffset := 0,
    passive := false }

structure Response where
  session : Session
  operations : List Operation
  listing : List Line
  replies : List Reply
  deriving DecidableEq, Repr

def reply (code : Nat) (text : String) : Reply := ⟨code, utf8 text⟩

def respond (session : Session) (operations : List Operation) (replies : List Reply) : Response :=
  ⟨session, operations, [], replies⟩

def throws (session : Session) (operations : List Operation) (replies : List Reply) (what : Bytes) :
    Response :=
  ⟨session, operations, [], replies ++ [⟨550, utf8 "Operation failed: " ++ what⟩]⟩

def notLoggedIn (session : Session) : Response :=
  throws session [] [] (utf8 "please login first")

def escapes (session : Session) : Response :=
  throws session [] [] (utf8 "path escapes FTP root")

/-! ### Paths -/

def pathInsideRoot (tree : FileTree) (root target : Path) : Bool :=
  match tree.relative target root with
  | none => false
  | some rel => if rel.elements.contains dotDot then false else !rel.absolute

section Commands

variable {root : Location}

def rootPath (root : Location) : Path := ⟨true, root⟩

def combined (root : Location) (session : Session) (ftpPath : Bytes) : Path :=
  let arg := trim ftpPath
  if arg.isEmpty then rootPath root / session.cwdRel
  else if arg.head? = some separator then rootPath root / Path.ofBytes (arg.drop 1)
  else rootPath root / session.cwdRel / Path.ofBytes arg

/-- The path that a command works on; none when it throws. The path is absolute already, so that
`absolute` has nothing to do. -/
def resolvePath (world : World root) (session : Session) (ftpPath : Bytes) : Option Path :=
  let path := combined root session ftpPath
  let normalized :=
    match world.tree.weaklyCanonical path with
    | some canonical => canonical
    | none => path.lexicallyNormal
  if pathInsideRoot world.tree (rootPath root) normalized then some normalized else none

def currentRealPath (world : World root) (session : Session) : Path :=
  match world.tree.weaklyCanonical (rootPath root / session.cwdRel) with
  | some path => path
  | none => rootPath root

def genericString (path : Path) : Bytes :=
  (if path.absolute then [separator] else []) ++ List.intercalate [separator] path.elements

def toVirtualPath (world : World root) (real : Path) : Bytes :=
  match world.tree.relative real (rootPath root) with
  | none => [separator]
  | some rel =>
    if rel.elements = [] ∨ rel = ⟨false, [dot]⟩ then [separator]
    else separator :: genericString rel

/-! ### The data connection -/

def acceptDataConnection (world : World root) (session : Session) : Session × Option Bytes :=
  if session.passive then
    match world.dataConnection with
    | .timeout => ({ session with passive := false }, some (utf8 "data connection timeout"))
    | .failed => ({ session with passive := false }, some (utf8 "accept data connection failed"))
    | .accepted => ({ session with passive := false }, none)
  else (session, some (utf8 "send PASV before data command"))

/-! ### Commands -/

def handleUSER (session : Session) : Response :=
  respond session [] [reply 331 "User name ok, need password."]

def handlePASS (session : Session) : Response :=
  respond { session with loggedIn := true } [] [reply 230 "Login successful."]

def handlePWD (world : World root) (session : Session) : Response :=
  if session.loggedIn then
    respond session [] [⟨257, utf8 "\"" ++ toVirtualPath world (currentRealPath world session)
      ++ utf8 "\" is current directory."⟩]
  else notLoggedIn session

def handleCWD (world : World root) (session : Session) (arg : Bytes) : Response :=
  if session.loggedIn then
    match resolvePath world session arg with
    | none => escapes session
    | some target =>
      match world.tree.lookup target with
      | none => throws session [⟨.exists, target⟩] [] world.systemError
      | some none => respond session [⟨.exists, target⟩] [reply 550 "Not a directory."]
      | some (some .directory) =>
        let rel :=
          match world.tree.relative target (rootPath root) with
          | some rel => if rel.elements = [] then ⟨false, [dot]⟩ else rel
          | none => ⟨false, [dot]⟩
        respond { session with cwdRel := rel } [⟨.exists, target⟩, ⟨.isDirectory, target⟩]
          [⟨250, utf8 "Directory changed to " ++ toVirtualPath world target⟩]
      | some (some _) =>
        respond session [⟨.exists, target⟩, ⟨.isDirectory, target⟩]
          [reply 550 "Not a directory."]
  else notLoggedIn session

/-- The line of one entry. `is_directory` and `file_size` look behind a link; a size that cannot be
told is the largest number. -/
def formatListLine (tree : FileTree) (path : Path) : List Operation × Line :=
  let name := path.elements.getLast?.getD []
  match tree.lookup path with
  | some (some .directory) =>
    ([⟨.symlinkStatus, path⟩, ⟨.isDirectory, path⟩], ⟨true, 0, name⟩)
  | some (some (.file size)) =>
    ([⟨.symlinkStatus, path⟩, ⟨.isDirectory, path⟩, ⟨.fileSize, path⟩], ⟨false, size, name⟩)
  | _ =>
    ([⟨.symlinkStatus, path⟩, ⟨.isDirectory, path⟩, ⟨.fileSize, path⟩],
      ⟨false, 2 ^ 64 - 1, name⟩)

def directoryEntries (tree : FileTree) (path : Path) : List Path :=
  match tree.status path with
  | .found location => (tree.children location).map fun name => path / (⟨false, [name]⟩ : Path)
  | _ => []

def list (session : Session) (operations : List Operation) (lines : List (List Operation × Line))
    (opening : Reply) : Response :=
  { session
    operations := operations ++ lines.flatMap Prod.fst
    listing := lines.map Prod.snd
    replies := [opening, reply 226 "Transfer complete."] }

def handleLIST (world : World root) (session : Session) (arg : Bytes) : Response :=
  if session.loggedIn then
    match resolvePath world session arg with
    | none => escapes session
    | some target =>
      match world.tree.lookup target with
      | none => throws session [⟨.exists, target⟩] [] world.systemError
      | some none => respond session [⟨.exists, target⟩] [reply 550 "Path not found."]
      | some (some entry) =>
        let opening := reply 150 "Opening ASCII mode data connection for file list."
        match acceptDataConnection world session with
        | (session, some what) => throws session [⟨.exists, target⟩] [opening] what
        | (session, none) =>
          let looked : List Operation := [⟨.exists, target⟩, ⟨.isDirectory, target⟩]
          if entry = .directory then
            let entries := directoryEntries world.tree target
            match world.iterationFails with
            | some count =>
              throws session (looked ++ [⟨.iterate, target⟩] ++
                (entries.take count).flatMap fun entry => (formatListLine world.tree entry).1)
                [opening] world.systemError
            | none =>
              list session (looked ++ [⟨.iterate, target⟩])
                (entries.map (formatListLine world.tree)) opening
          else list session looked [formatListLine world.tree target] opening
  else notLoggedIn session

def handleTYPE (session : Session) (arg : Bytes) : Response :=
  if session.loggedIn then
    if toUpperAscii (trim arg) = utf8 "I" then
      respond { session with binaryMode := true } [] [reply 200 "Type set to I."]
    else if toUpperAscii (trim arg) = utf8 "A" then
      respond { session with binaryMode := false } [] [reply 200 "Type set to A."]
    else respond session [] [reply 504 "Only TYPE I and TYPE A are supported."]
  else notLoggedIn session

def handlePASV (world : World root) (session : Session) : Response :=
  if session.loggedIn then
    match world.passivePort with
    | none =>
      respond { session with passive := false } [] [reply 421 "Cannot open passive port."]
    | some port =>
      let ip := world.localIp.map fun c => if c = 46 then 44 else c
      respond { session with passive := true } []
        [⟨227, utf8 "Entering Passive Mode (" ++ ip ++ utf8 "," ++ decimal (port / 256)
          ++ utf8 "," ++ decimal (port % 256) ++ utf8 ")."⟩]
  else notLoggedIn session

def finish (world : World root) (session : Session) (operations : List Operation)
    (opening : Reply) : Response :=
  respond { session with restOffset := 0 } operations
    [opening, if world.transferred then reply 226 "Transfer complete."
      else reply 426 "Connection closed; transfer aborted."]

def handleRETR (world : World root) (session : Session) (arg : Bytes) : Response :=
  if session.loggedIn then
    if arg.isEmpty then respond session [] [reply 501 "Missing file name."]
    else
      match resolvePath world session arg with
      | none => escapes session
      | some file =>
        match world.tree.lookup file with
        | none => throws session [⟨.exists, file⟩] [] world.systemError
        | some none => respond session [⟨.exists, file⟩] [reply 550 "File not found."]
        | some (some (.file size)) =>
          let looked : List Operation :=
            [⟨.exists, file⟩, ⟨.isRegularFile, file⟩, ⟨.fileSize, file⟩]
          if size < session.restOffset then
            respond { session with restOffset := 0 } looked
              [reply 554 "REST offset is larger than file size."]
          else if world.opened then
            let opening := reply 150 "Opening BINARY mode data connection for download."
            match acceptDataConnection world session with
            | (session, some what) =>
              throws session (looked ++ [⟨.openRead, file⟩]) [opening] what
            | (session, none) => finish world session (looked ++ [⟨.openRead, file⟩]) opening
          else
            respond session (looked ++ [⟨.openRead, file⟩]) [reply 550 "Cannot open file."]
        | some (some _) =>
          respond session [⟨.exists, file⟩, ⟨.isRegularFile, file⟩]
            [reply 550 "File not found."]
  else notLoggedIn session

def handleSTOR (world : World root) (session : Session) (arg : Bytes) : Response :=
  if session.loggedIn then
    if arg.isEmpty then respond session [] [reply 501 "Missing file name."]
    else
      match resolvePath world session arg with
      | none => escapes session
      | some file =>
        let parent := file.parentPath
        match world.tree.lookup parent with
        | none => throws session [⟨.exists, parent⟩] [] world.systemError
        | some none =>
          respond session [⟨.exists, parent⟩] [reply 550 "Parent directory does not exist."]
        | some (some .directory) =>
          let done : List Operation :=
            [⟨.exists, parent⟩, ⟨.isDirectory, parent⟩,
              ⟨.openWrite (session.restOffset = 0), file⟩]
          if world.opened then
            if 0 < session.restOffset ∧ world.seeked = false then
              respond { session with restOffset := 0 } done [reply 550 "Cannot seek file."]
            else
              let opening := reply 150 "Opening BINARY mode data connection for upload."
              match acceptDataConnection world session with
              | (session, some what) => throws session done [opening] what
              | (session, none) => finish world session done opening
          else respond session done [reply 550 "Cannot create file."]
        | some (some _) =>
          respond session [⟨.exists, parent⟩, ⟨.isDirectory, parent⟩]
            [reply 550 "Parent directory does not exist."]
  else notLoggedIn session

/-- `std::stoull` of a trimmed text that it has to consume. A minus sign negates modulo `2 ^ 64`. -/
def stoull (text : Bytes) : Option Nat :=
  match text with
  | 43 :: digits => parseUint64Value digits
  | 45 :: digits => (parseUint64Value digits).map fun value => (2 ^ 64 - value) % 2 ^ 64
  | digits => parseUint64Value digits

def handleREST (session : Session) (arg : Bytes) : Response :=
  if session.loggedIn then
    match stoull (trim arg) with
    | some offset =>
      respond { session with restOffset := offset } [] [reply 350 "Restart position accepted."]
    | none => respond session [] [reply 501 "Bad REST offset."]
  else notLoggedIn session

/-! ### The control connection -/

def parseCommand (line : Bytes) : Command :=
  { name := toUpperAscii (line.takeWhile fun c => c ≠ space)
    rawArguments := trim ((line.dropWhile fun c => c ≠ space).drop 1) }

inductive Verb where
  | user | pass | pwd | cwd | type | pasv | list | retr | stor | rest | quit | other
  deriving DecidableEq, Repr

def verbs : List (String × Verb) :=
  [("USER", .user), ("PASS", .pass), ("PWD", .pwd), ("XPWD", .pwd), ("CWD", .cwd), ("TYPE", .type),
    ("PASV", .pasv), ("LIST", .list), ("RETR", .retr), ("STOR", .stor), ("REST", .rest),
    ("QUIT", .quit)]

def verb (name : Bytes) : Verb :=
  match verbs.find? fun known => utf8 known.1 = name with
  | some known => known.2
  | none => .other

def handle (world : World root) (session : Session) (verb : Verb) (arg : Bytes) : Response :=
  match verb with
  | .user => handleUSER session
  | .pass => handlePASS session
  | .pwd => handlePWD world session
  | .cwd => handleCWD world session arg
  | .type => handleTYPE session arg
  | .pasv => handlePASV world session
  | .list => handleLIST world session arg
  | .retr => handleRETR world session arg
  | .stor => handleSTOR world session arg
  | .rest => handleREST session arg
  | .quit => respond session [] [reply 221 "Goodbye."]
  | .other => respond session [] [reply 502 "Command not implemented."]

end Commands

structure Event (root : Location) where
  line : Bytes
  world : World root

/-- The session between two commands, the tree that the last one has seen, and every path that was
handed to a file operation, with the tree in which it was. -/
structure State where
  session : Session
  closed : Bool
  tree : FileTree
  passed : List (FileTree × Path)

def State.start (tree : FileTree) : State := ⟨Session.start, false, tree, []⟩

def next {root : Location} (state : State) (event : Event root) : Option State :=
  let line := trim event.line
  if state.closed then none
  else if line.isEmpty then some { state with tree := event.world.tree }
  else
    let command := parseCommand line
    let response := handle event.world state.session (verb command.name) command.rawArguments
    some
      { session := response.session
        closed := verb command.name = .quit
        tree := event.world.tree
        passed := state.passed
          ++ response.operations.map fun operation => (event.world.tree, operation.path) }

end ChatRoom.Ftp
