import ChatRoom.Lib.MixedStream
import ChatRoom.Lib.Schedule
import ChatRoom.Server.System

/-!
# The input of a connection

`on_message` takes text lines and binary frames out of the input buffer of its connection, one after
another, and runs the handler of each before it takes the next. The session says which of the two
comes next: it has a pending binary frame, or it has none.
-/

namespace ChatRoom

open Handler Interleaving MixedStream

abbrev Octet := MixedStream.Octet UInt8

/-- The command routes of `configure_command_routes`. -/
def commandRoutes : List (String × (Bytes → Request)) :=
  [("REGISTER", .register), ("LOGIN", .login), ("LOGOUT", fun _ => .logout),
    ("DELETE_ACCOUNT", .deleteAccount), ("SAY", .publicMessage), ("MSG", .privateMessage),
    ("ENTER_PRIVATE", .enterPrivate), ("ENTER_GROUP", .enterGroup), ("ADD_FRIEND", .addFriend),
    ("ACCEPT_FRIEND", .acceptFriend), ("REJECT_FRIEND", .rejectFriend),
    ("REMOVE_FRIEND", .removeFriend), ("BLOCK_FRIEND", .blockFriend),
    ("UNBLOCK_FRIEND", .unblockFriend), ("CREATE_GROUP", .createGroup),
    ("DISSOLVE_GROUP", .dissolveGroup), ("APPLY_GROUP", .applyGroup),
    ("LEAVE_GROUP", .leaveGroup), ("ADD_GROUP_ADMIN", .addGroupAdmin),
    ("REMOVE_GROUP_ADMIN", .removeGroupAdmin), ("APPROVE_GROUP", .approveGroup),
    ("REJECT_GROUP", .rejectGroup), ("REMOVE_GROUP_MEMBER", .removeGroupMember),
    ("GROUP_MSG", .groupMessage), ("HISTORY_PUBLIC", .historyPublic),
    ("HISTORY_PRIVATE", .historyPrivate), ("HISTORY_GROUP", .historyGroup),
    ("FILE_BEGIN_PRIVATE", .fileBeginPrivate),
    ("FILE_BEGIN_GROUP", .fileBeginGroup), ("FILE_CHUNK", .fileChunk), ("FILE_END", .fileEnd),
    ("FILE_ABORT", .fileAbort), ("FILE_RESUME_REQUEST", .fileResumeRequest),
    ("FILE_RECEIVED", .fileReceived), ("FILE_RECEIVE_FAILED", .fileReceiveFailed),
    ("PENDING", fun _ => .pending), ("QUIT", fun _ => .quit),
    ("HELP", fun _ => .lookup .help), ("WHO", fun _ => .lookup .who),
    ("FRIENDS", fun _ => .lookup .friends), ("FRIEND_REQUESTS", fun _ => .lookup .friendRequests),
    ("BLOCKED_FRIENDS", fun _ => .lookup .blockedFriends), ("MY_GROUPS", fun _ => .lookup .myGroups),
    ("GROUP_MEMBERS", fun arguments => .lookup (.groupMembers arguments)),
    ("GROUP_REQUESTS", fun arguments => .lookup (.groupRequests arguments)),
    ("GROUP_REQUESTS_ALL", fun _ => .lookup .groupRequestsAll),
    ("PING", fun arguments => .lookup (.ping arguments))]

def commandRequest (command : Command) : Option Request :=
  (commandRoutes.find? fun route => utf8 route.1 = command.name).map fun route =>
    route.2 command.rawArguments

def kMaxInputBuffer : Nat := 8192

def kRealtimeCommandBatch : Nat := 32

/-- What `on_message` has done: a command has been dispatched, a frame has been appended to the
upload. -/
inductive Dispatch where
  | command (command : Command)
  | append (offset : Nat) (bytes : Bytes) (accepted : Bool)
  deriving DecidableEq, Repr

def Dispatch.stored : Dispatch → Bool
  | .command _ => true
  | .append _ _ accepted => accepted

/-- What comes from outside the connection: what the other connections do to the state before a
command is dispatched, how the file operations of `append_upload_bytes` at an offset end, and the
outcome of every other call that can have several. -/
structure Environment where
  others : List Dispatch → Shared → Shared
  append : Nat → FileOutcome
  answer : List Dispatch → Act → Choice

def Environment.choice (env : Environment) (history : List Dispatch) : Act → Choice
  | .appendUploadBytes _ offset _ => .file (env.append offset)
  | .query q => env.answer history (.query q)
  | .update u => env.answer history (.update u)
  | .now => env.answer history .now
  | .hashPassword password => env.answer history (.hashPassword password)
  | .redis call => env.answer history (.redis call)
  | .beginOrResumeUpload requested => env.answer history (.beginOrResumeUpload requested)
  | .finalizeUpload upload => env.answer history (.finalizeUpload upload)
  | .cancelUpload token => env.answer history (.cancelUpload token)
  | .removeStored path => env.answer history (.removeStored path)
  | _ => .proceed

def Environment.feed (env : Environment) (history : List Dispatch) (action : Act)
    (answers : List Choice) : Option (Choice × List Choice) :=
  some (env.choice history action, answers)

def lineCommand (line : List Octet) : Command :=
  let line := (values line).dropLast
  parseCommand (if line.getLast? = some carriageReturn then line.dropLast else line)

def ClientSession.pendingFrame (session : ClientSession) : Option PendingBinaryUploadFrame :=
  session.binaryUpload.filter fun frame => 0 < frame.remainingBytes

def ClientSession.uploadOf (session : ClientSession) (frame : PendingBinaryUploadFrame) :
    Option IncomingFileUpload :=
  session.upload.filter fun upload => upload.token = frame.token

/-- The server as seen from the loop of a connection. -/
structure Host where
  shared : Option Shared
  lines : List (List Octet) := []
  history : List Dispatch := []

namespace Host

variable (config : ServerConfig) (env : Environment) (conn : ConnId)

def session (host : Host) : Option ClientSession := host.shared.map fun s => s.sessions conn

def uploading (host : Host) : Bool := (host.session conn).any fun session => session.upload.isSome

def serve (request : Request) (host : Host) : Host :=
  { host with shared := host.shared.bind fun s =>
      Interleaving.serve (server config true) (env.feed host.history) s ⟨conn, request, []⟩ }

def handleCommand (command : Command) (host : Host) : Host :=
  let arrived := { host with shared := host.shared.map (env.others host.history) }
  let served :=
    match commandRequest command with
    | some request => arrived.serve config env conn request
    | none => arrived.serve config env conn (.lookup .unknown)
  { served with history := host.history ++ [.command command] }

def handleLine (line : List Octet) (host : Host) : Host :=
  let host := { host with lines := host.lines ++ [line] }
  let command := lineCommand line
  if command.name.isEmpty then host else host.handleCommand config env conn command

def handleFrameBytes (taken : List Octet) (host : Host) : Host :=
  let served := host.serve config env conn (.fileFrame (values taken))
  match (host.session conn).bind ClientSession.pendingFrame with
  | none => served
  | some frame =>
    let frame := frame.take (values taken)
    if frame.remainingBytes = 0 then
      { served with history :=
          host.history ++ [.append frame.startOffset frame.bytes (served.uploading conn)] }
    else
      served

end Host

structure Input where
  host : Host
  buffer : List Octet := []
  queued : Nat := 0

/-- The connection is told that a line is too long, and is shut down. -/
def Shared.closeTooLong (s : Shared) (conn : ConnId) : Shared :=
  let told := s.sendText conn (utf8 "[error] 输入行过长；connection will close.\n")
  { told with phase := Function.update told.phase conn .disconnecting }

namespace Input

variable (config : ServerConfig) (env : Environment) (conn : ConnId)

def checkLength (s : Shared) (input : Input) : Input :=
  if (s.sessions conn).binaryUpload.isNone && kMaxInputBuffer < input.buffer.length &&
      s.connected conn then
    { input with host := { input.host with shared := some (s.closeTooLong conn) } }
  else
    input

/-- The loop of `on_message`. Every round but the last takes something from the buffer. -/
def onMessage : Nat → Nat → Input → Input
  | 0, _, input => input
  | fuel + 1, processed, input =>
    match input.host.shared with
    | none => input
    | some s =>
      if !s.connected conn then
        input.checkLength conn s
      else
        match (s.sessions conn).pendingFrame with
        | some frame =>
          if ((s.sessions conn).uploadOf frame).isNone then
            { input with host := input.host.serve config env conn (.fileFrame []) }
          else if input.buffer.isEmpty then
            input
          else
            let host := input.host.handleFrameBytes config env conn
              (input.buffer.take frame.remainingBytes)
            let input :=
              { input with host, buffer := input.buffer.drop frame.remainingBytes }
            -- a frame that could not be stored has ended the upload
            if host.uploading conn then onMessage fuel processed input else input
        | none =>
          match takeLine newline input.buffer with
          | none => input.checkLength conn s
          | some (line, rest) =>
            let host := input.host.handleLine config env conn line
            let input := { input with host, buffer := rest }
            let processed :=
              if (lineCommand line).name.isEmpty then processed else processed + 1
            if kRealtimeCommandBatch ≤ processed &&
                (host.session conn).any (fun session => session.binaryUpload.isNone) &&
                (takeLine newline rest).isSome then
              { input with queued := input.queued + 1 }
            else
              onMessage fuel processed input

inductive Event where
  | read (chunk : List Octet)
  | resume

def step (input : Input) : Event → Input
  | .read chunk =>
    let input := { input with buffer := input.buffer ++ chunk }
    input.onMessage config env conn (input.buffer.length + 1) 0
  | .resume =>
    match input.queued with
    | 0 => input
    | queued + 1 => { input with queued }.onMessage config env conn (input.buffer.length + 1) 0

def receive (input : Input) (events : List Event) : Input :=
  events.foldl (step config env conn) input

def arriving : List Event → List Octet
  | [] => []
  | .read chunk :: events => chunk ++ arriving events
  | .resume :: events => arriving events

end Input

end ChatRoom
