import ChatRoom.Text
import ChatRoom.Lib.OutputLedger
import ChatRoom.Lib.Runs

/-!
# The output of `TcpConnection`

`minimuduo/net/TcpConnection.cpp` as a machine that works off a stack of code. Every member function
is a case of `exec`: it runs up to its next system call, its next call of another member function or
its next callback, and leaves what remains to be done as further code. The outcomes of the system
calls, the readiness events and what the callbacks do are inputs of the machine. All of it runs in
the thread of the connection's `EventLoop`; what other threads do is queue work there.
-/

namespace ChatRoom.Net

open OutputLedger

inductive State where
  | connecting
  | connected
  | disconnecting
  | disconnected
  deriving DecidableEq, Repr

structure TextSend (Callback : Type) where
  message : Bytes
  completion : Option Callback
  deriving DecidableEq, Repr

structure FileFrame (Callback : Type) where
  header : Bytes
  path : Bytes
  offset : Nat
  byteCount : Nat
  completion : Option Callback
  deriving DecidableEq, Repr

/-- What an accepted call of `send` or `sendFileFrame` asks for. -/
inductive Output (Callback : Type) where
  | text (send : TextSend Callback)
  | frame (file : FileFrame Callback)
  deriving DecidableEq, Repr

namespace Output

variable {Callback : Type}

def completion : Output Callback → Option Callback
  | .text send => send.completion
  | .frame file => file.completion

end Output

def fileBytes (files : Bytes → Bytes) (path : Bytes) (offset count : Nat) : Bytes :=
  ((files path).drop offset).take count

def Output.bytes {Callback : Type} (files : Bytes → Bytes) : Output Callback → Bytes
  | .text send => send.message
  | .frame file => file.header ++ fileBytes files file.path file.offset file.byteCount

def textUnit {Callback : Type} (text : Numbered (TextSend Callback)) : Numbered (Output Callback) :=
  text.map .text

def frameUnit {Callback : Type} (frame : Numbered (FileFrame Callback)) :
    Numbered (Output Callback) :=
  frame.map .frame

/-- `PendingFileSend` of the frame being sent; `offset` and `remaining` are what is left of it. -/
structure PendingFileSend (Callback : Type) where
  frame : Numbered (FileFrame Callback)
  offset : Nat
  remaining : Nat
  deriving DecidableEq, Repr

inductive Call (Callback : Type) where
  | send (message : Bytes) (completion : Option Callback)
  | sendFileFrame (header path : Bytes) (offset byteCount : Nat) (completion : Option Callback)
  | shutdown
  | forceClose
  deriving DecidableEq, Repr

inductive Functor (Callback : Type) where
  | sendInLoop (message : Bytes) (completion : Option Callback)
  | sendFileFrameInLoop (header path : Bytes) (offset byteCount : Nat) (completion : Option Callback)
  | shutdownInLoop
  | forceCloseInLoop
  | completion (unit : Numbered (Output Callback))
  deriving DecidableEq, Repr

/-- A place in the code. The member functions keep their names; the others are the places to which
one of them returns from a call. -/
inductive Code (Callback : Type) where
  | sendInLoop (text : Numbered (TextSend Callback))
  | startFileFrame (frame : Numbered (FileFrame Callback))
  /-- `startFileFrame` with the file open, at `sendInLoop(pending.header, {})`. -/
  | sendHeader (frame : Numbered (FileFrame Callback))
  /-- `startFileFrame` at the assignment of `activeFileSend_`. -/
  | activate (frame : Numbered (FileFrame Callback))
  | flushFileSend
  /-- `flushFileSend` after it has flushed the output buffer. -/
  | outputFlushed
  /-- The loop of `flushFileSend`. -/
  | sendFileBytes
  | finishActiveFileSend
  | drainDeferredSends
  | completion (unit : Numbered (Output Callback))
  | startNextQueuedFileFrame
  /-- The end of `finishActiveFileSend`. -/
  | settleWriting
  | forceClose
  | flushTlsOutput
  | handlePlainWrite
  | handlePlainRead
  | handleTlsRead (received : Bool)
  /-- `handleRead` after `handleTlsRead`. -/
  | afterRead
  /-- `handleWrite` after `handleTlsRead`. -/
  | afterBlockedRead
  | driveTlsHandshake
  /-- `driveTlsHandshake` after `notifyApplicationEstablished`. -/
  | afterEstablished
  /-- `driveTlsHandshake` at `SSL_pending`. -/
  | readPending
  | handleClose
  | messageCallback
  | connectionCallback
  /-- A callback with the calls it has still to make. -/
  | user (calls : List (Call Callback))
  deriving DecidableEq, Repr

inductive Input (Callback Outcome Task : Type) where
  | run
  | wrote (count : Nat)
  /-- `EAGAIN` of a write, `SSL_ERROR_WANT_WRITE`. -/
  | wantWrite
  /-- `EAGAIN` of a read, `SSL_ERROR_WANT_READ`. -/
  | wantRead
  | interrupted
  /-- `EPIPE` or `ECONNRESET` of `::send`. -/
  | fault
  | failed
  | opened
  | openFailed
  | received
  | endOfStream
  | handshaken
  | sslPending (more : Bool)
  /-- What the message or the connection callback does. -/
  | calls (calls : List (Call Callback))
  | completed (outcome : Outcome)
  | call (call : Call Callback)
  | post (call : Call Callback)
  /-- What the owner of the completions does in another thread. -/
  | background (task : Task)
  | functor
  | readable
  | writable
  | hangup
  | connectEstablished

variable {Callback Owner Outcome Task : Type}

def Input.proceed {α : Type} (value : α) : Input Callback Outcome Task → Option α
  | .run => some value
  | _ => none

structure TcpConnection (Callback : Type) where
  state : State := .connecting
  tls : Bool
  /-- Whether the kernel encrypts, so that `SSL_sendfile` is used. -/
  ktls : Bool := false
  tlsHandshakeComplete : Bool := false
  applicationEstablished : Bool := false
  tlsWriteBlockedOnRead : Bool := false
  tlsReadBlockedOnWrite : Bool := false
  /-- `channel_->isWriting()`. -/
  writing : Bool := false
  outputBuffer : Bytes := []
  pendingSendCompletions : List (Numbered (TextSend Callback)) := []
  activeFileSend : Option (PendingFileSend Callback) := none
  queuedFileFrames : List (Numbered (FileFrame Callback)) := []
  deferredSends : List (Numbered (TextSend Callback)) := []
  functors : List (Functor Callback) := []
  /-- The socket has refused a write with `EPIPE` or `ECONNRESET`; it takes nothing any more. -/
  broken : Bool := false
  emitted : Bytes := []
  accepted : List (Numbered (Output Callback)) := []
  started : List (Numbered (Output Callback)) := []
  dropped : List (Numbered (Output Callback)) := []
  deriving DecidableEq, Repr

namespace TcpConnection

variable (c : TcpConnection Callback)

def connected : Bool := c.state = .connected

def start (unit : Numbered (Output Callback)) : TcpConnection Callback :=
  { c with started := c.started ++ [unit] }

def drop (unit : Numbered (Output Callback)) : TcpConnection Callback :=
  { c with dropped := c.dropped ++ [unit] }

def emit (count : Nat) : TcpConnection Callback :=
  { c with
    emitted := c.emitted ++ c.outputBuffer.take count
    outputBuffer := c.outputBuffer.drop count }

def takes (count limit : Nat) : Bool := decide (0 < count ∧ count ≤ limit) && !c.broken

/-! ### Sending text -/

def append (message : Bytes) (text : Numbered (TextSend Callback)) : TcpConnection Callback :=
  { c with
    outputBuffer := c.outputBuffer ++ message
    pendingSendCompletions :=
      c.pendingSendCompletions ++ if text.request.completion.isSome then [text] else [] }

def keepRest (rest : Bytes) (text : Numbered (TextSend Callback)) : TcpConnection Callback :=
  if rest = [] then c else { c.append rest text with writing := true }

def queueCompletion (text : Numbered (TextSend Callback)) : TcpConnection Callback :=
  { c with
    functors := c.functors ++
      if text.request.completion.isSome then [.completion (textUnit text)] else [] }

/-- `sendInLoop` where it calls `::send`. -/
def directSend (unit : Numbered (Output Callback)) (text : Numbered (TextSend Callback)) :
    Input Callback Outcome Task → Option (TcpConnection Callback)
  | .wrote count =>
    let message := text.request.message
    if count ≤ message.length ∧ c.broken = false then
      let c := { c.start unit with emitted := c.emitted ++ message.take count }
      some (if count = message.length then c.queueCompletion text
        else c.keepRest (message.drop count) text)
    else none
  | .wantWrite | .interrupted | .failed =>
    if c.broken then none else some ((c.start unit).keepRest text.request.message text)
  | .fault => some { c.drop unit with broken := true }
  | _ => none

/-- `sendInLoop`. The text is the whole unit, or the header of a frame. -/
def sendInLoop (unit : Numbered (Output Callback)) (text : Numbered (TextSend Callback))
    (input : Input Callback Outcome Task) :
    Option (TcpConnection Callback × List (Code Callback)) :=
  if c.state = .disconnected then
    input.proceed (c.drop unit, [])
  else if c.activeFileSend.isSome then
    input.proceed ({ c with deferredSends := c.deferredSends ++ [text] }, [])
  else if c.tls then
    input.proceed ((c.start unit).append text.request.message text,
      if c.tlsHandshakeComplete then [.flushTlsOutput] else [])
  else if c.writing = false ∧ c.outputBuffer = [] then
    (c.directSend unit text input).map fun c => (c, [])
  else
    input.proceed ((c.start unit).keepRest text.request.message text, [])

def finishOutputCompletions : TcpConnection Callback :=
  { c with
    functors := c.functors ++ c.pendingSendCompletions.map fun text => .completion (textUnit text)
    pendingSendCompletions := [] }

/-- `flushTlsOutput`, one turn of its loop at a time. -/
def flushTlsOutput (input : Input Callback Outcome Task) :
    Option (TcpConnection Callback × List (Code Callback)) :=
  if c.tls = false ∨ c.tlsHandshakeComplete = false ∨ c.state = .disconnected then
    input.proceed (c, [])
  else if c.outputBuffer = [] then
    input.proceed
      ({ c with
          tlsWriteBlockedOnRead := false
          writing := c.writing && c.tlsReadBlockedOnWrite }.finishOutputCompletions, [])
  else
    match input with
    | .wrote count =>
      if c.takes count c.outputBuffer.length then some (c.emit count, [.flushTlsOutput]) else none
    | .wantWrite => some ({ c with writing := true }, [])
    | .wantRead => some ({ c with tlsWriteBlockedOnRead := true, writing := false }, [])
    | .interrupted => some (c, [.flushTlsOutput])
    | .failed => some (c, [.handleClose])
    | _ => none

def handlePlainWrite (input : Input Callback Outcome Task) :
    Option (TcpConnection Callback × List (Code Callback)) :=
  if c.writing = false then
    input.proceed (c, [])
  else
    match input with
    | .wrote count =>
      if c.takes count c.outputBuffer.length then
        let c := c.emit count
        some (if c.outputBuffer = [] then { c with writing := false }.finishOutputCompletions
          else c, [])
      else none
    | .wantWrite | .interrupted | .failed => some (c, [])
    | _ => none

/-! ### Sending files -/

def startFileFrame (frame : Numbered (FileFrame Callback)) (input : Input Callback Outcome Task) :
    Option (TcpConnection Callback × List (Code Callback)) :=
  if c.state = .disconnected then
    input.proceed (c.drop (frameUnit frame), [])
  else
    match input with
    | .opened => some (c, [.sendHeader frame])
    -- The completion is called although nothing of the frame has been sent.
    | .openFailed =>
      some (c.drop (frameUnit frame), [.completion (frameUnit frame), .forceClose])
    | _ => none

def sendHeader (frame : Numbered (FileFrame Callback)) (input : Input Callback Outcome Task) :
    Option (TcpConnection Callback × List (Code Callback)) :=
  (c.sendInLoop (frameUnit frame) ⟨frame.id, ⟨frame.request.header, none⟩⟩ input).map
    fun (c, code) => (c, code ++ [.activate frame])

def activate (frame : Numbered (FileFrame Callback)) : TcpConnection Callback :=
  { c with activeFileSend := some ⟨frame, frame.request.offset, frame.request.byteCount⟩ }

def flushFileSend : List (Code Callback) :=
  if c.activeFileSend = none ∨ c.state = .disconnected then []
  else if c.outputBuffer = [] then [.sendFileBytes]
  else [if c.tls then .flushTlsOutput else .handlePlainWrite, .outputFlushed]

def outputFlushed : List (Code Callback) :=
  if c.state = .disconnected ∨ c.outputBuffer ≠ [] then [] else [.sendFileBytes]

/-- The most a turn of the loop asks for: `SSL_sendfile` and `sendfile` 1 GiB, `pread` 16 KiB. -/
def sendLimit : Nat := if c.tls && !c.ktls then 16 * 1024 else 1024 * 1024 * 1024

/-- The loop of `flushFileSend`, one turn at a time. -/
def sendFileBytes (files : Bytes → Bytes) (input : Input Callback Outcome Task) :
    Option (TcpConnection Callback × List (Code Callback)) :=
  match c.activeFileSend with
  | none => input.proceed (c, [])
  | some file =>
    let path := file.frame.request.path
    if file.remaining = 0 then
      input.proceed (c, [.finishActiveFileSend])
    else if c.tls = true ∧ c.tlsHandshakeComplete = false then
      input.proceed (c, [])
    else
      match input with
      | .wrote count =>
        if c.takes count (min file.remaining c.sendLimit) ∧
            file.offset + count ≤ (files path).length then
          some ({ c with
            emitted := c.emitted ++ fileBytes files path file.offset count
            activeFileSend := some { file with
              offset := file.offset + count
              remaining := file.remaining - count } }, [.sendFileBytes])
        else none
      | .wantWrite => if c.broken then none else some ({ c with writing := true }, [])
      | .wantRead => if c.tls then some ({ c with tlsWriteBlockedOnRead := true }, []) else none
      | .interrupted => if c.tls then none else some (c, [.sendFileBytes])
      | .failed => some (c, [.handleClose])
      | _ => none

def finishActiveFileSend : TcpConnection Callback × List (Code Callback) :=
  match c.activeFileSend with
  | none => (c, [])
  | some file =>
    ({ c with activeFileSend := none },
      [.drainDeferredSends, .completion (frameUnit file.frame), .startNextQueuedFileFrame,
        .settleWriting])

def drainDeferredSends : TcpConnection Callback × List (Code Callback) :=
  match c.activeFileSend, c.deferredSends with
  | none, text :: rest => ({ c with deferredSends := rest }, [.sendInLoop text, .drainDeferredSends])
  | _, _ => (c, [])

def startNextQueuedFileFrame : TcpConnection Callback × List (Code Callback) :=
  match c.activeFileSend, c.queuedFileFrames with
  | none, frame :: rest =>
    if c.state = .disconnected then (c, [])
    else ({ c with queuedFileFrames := rest }, [.startFileFrame frame])
  | _, _ => (c, [])

def settleWriting : TcpConnection Callback :=
  if c.activeFileSend = none ∧ c.outputBuffer = [] then { c with writing := false } else c

/-! ### Calls -/

def acceptText (message : Bytes) (completion : Option Callback) :
    TcpConnection Callback × List (Code Callback) :=
  let text : Numbered (TextSend Callback) := ⟨c.accepted.length, ⟨message, completion⟩⟩
  ({ c with accepted := c.accepted ++ [textUnit text] }, [.sendInLoop text])

def sendFileFrameInLoop (frame : FileFrame Callback) :
    TcpConnection Callback × List (Code Callback) :=
  let unit : Numbered (FileFrame Callback) := ⟨c.accepted.length, frame⟩
  let c := { c with accepted := c.accepted ++ [frameUnit unit] }
  if c.activeFileSend.isSome then
    ({ c with queuedFileFrames := c.queuedFileFrames ++ [unit] }, [])
  else
    (c, [.startFileFrame unit])

def forceClose : TcpConnection Callback :=
  if c.state = .connected ∨ c.state = .disconnecting then
    { c with state := .disconnecting, functors := c.functors ++ [.forceCloseInLoop] }
  else c

/-- A public member function called in the loop's thread. -/
def call : Call Callback → TcpConnection Callback × List (Code Callback)
  | .send message completion => if c.connected then c.acceptText message completion else (c, [])
  | .sendFileFrame header path offset byteCount completion =>
    if c.connected then c.sendFileFrameInLoop ⟨header, path, offset, byteCount, completion⟩
    else (c, [])
  | .shutdown => (if c.connected then { c with state := .disconnecting } else c, [])
  | .forceClose => (c.forceClose, [])

/-- A public member function called in another thread. -/
def post : Call Callback → TcpConnection Callback
  | .send message completion =>
    if c.connected then { c with functors := c.functors ++ [.sendInLoop message completion] }
    else c
  | .sendFileFrame header path offset byteCount completion =>
    if c.connected then
      { c with
        functors := c.functors ++ [.sendFileFrameInLoop header path offset byteCount completion] }
    else c
  | .shutdown =>
    if c.connected then
      { c with state := .disconnecting, functors := c.functors ++ [.shutdownInLoop] }
    else c
  | .forceClose => c.forceClose

def runFunctor : Functor Callback → TcpConnection Callback × List (Code Callback)
  | .sendInLoop message completion =>
    if c.state = .disconnected then (c, []) else c.acceptText message completion
  | .sendFileFrameInLoop header path offset byteCount completion =>
    if c.state = .disconnected then (c, [])
    else c.sendFileFrameInLoop ⟨header, path, offset, byteCount, completion⟩
  | .shutdownInLoop => (c, [])
  | .forceCloseInLoop =>
    (c, if c.state = .connected ∨ c.state = .disconnecting then [.handleClose] else [])
  | .completion unit => (c, [.completion unit])

/-! ### Reading, the handshake and the end -/

def resumeOutput : Code Callback :=
  if c.activeFileSend.isSome then .flushFileSend
  else if c.tls then .flushTlsOutput
  else .handlePlainWrite

def handleRead : List (Code Callback) :=
  if c.tls then
    if c.tlsHandshakeComplete then [.handleTlsRead false, .afterRead] else [.driveTlsHandshake]
  else [.handlePlainRead]

def afterRead : TcpConnection Callback × List (Code Callback) :=
  if c.tlsWriteBlockedOnRead && c.connected then
    ({ c with tlsWriteBlockedOnRead := false }, [c.resumeOutput])
  else (c, [])

def handleWrite : TcpConnection Callback × List (Code Callback) :=
  if c.tls then
    if c.tlsHandshakeComplete = false then (c, [.driveTlsHandshake])
    else if c.tlsReadBlockedOnWrite then
      ({ c with tlsReadBlockedOnWrite := false }, [.handleTlsRead false, .afterBlockedRead])
    else (c, [c.resumeOutput])
  else (c, [c.resumeOutput])

def afterBlockedRead : List (Code Callback) := if c.connected then [c.resumeOutput] else []

def handlePlainRead : Input Callback Outcome Task → Option (List (Code Callback))
  | .received => some [.messageCallback]
  | .wantRead | .interrupted => some []
  | .endOfStream | .failed => some [.handleClose]
  | _ => none

/-- `handleTlsRead`, one turn of its loop at a time. -/
def handleTlsRead (received : Bool) (input : Input Callback Outcome Task) :
    Option (TcpConnection Callback × List (Code Callback)) :=
  let deliver : List (Code Callback) := if received && c.connected then [.messageCallback] else []
  if c.tls = false ∨ c.tlsHandshakeComplete = false then
    input.proceed (c, [])
  else
    match input with
    | .received => some (c, [.handleTlsRead true])
    | .wantRead => some (c, deliver)
    | .wantWrite => some ({ c with tlsReadBlockedOnWrite := true, writing := true }, deliver)
    | .interrupted => some (c, [.handleTlsRead received])
    | .endOfStream | .failed => some (c, [.handleClose])
    | _ => none

def notifyApplicationEstablished : TcpConnection Callback × List (Code Callback) :=
  if c.applicationEstablished then (c, [])
  else ({ c with applicationEstablished := true }, [.connectionCallback])

def stopWritingIfIdle : TcpConnection Callback :=
  if c.outputBuffer = [] then { c with writing := false } else c

def driveTlsHandshake (input : Input Callback Outcome Task) :
    Option (TcpConnection Callback × List (Code Callback)) :=
  if c.tls = false ∨ c.tlsHandshakeComplete = true ∨ c.state = .disconnected then
    input.proceed (c, [])
  else
    match input with
    | .handshaken =>
      let (c, code) := { c.stopWritingIfIdle with
        tlsHandshakeComplete := true
        tlsWriteBlockedOnRead := false
        tlsReadBlockedOnWrite := false }.notifyApplicationEstablished
      some (c, code ++ [.afterEstablished])
    | .wantRead => some (c.stopWritingIfIdle, [])
    | .wantWrite => some ({ c with writing := true }, [])
    | .endOfStream | .interrupted | .failed => some (c, [.handleClose])
    | _ => none

def afterEstablished : List (Code Callback) :=
  (if c.outputBuffer = [] then [] else [.flushTlsOutput]) ++ [.readPending]

def readPending : Input Callback Outcome Task → Option (List (Code Callback))
  | .sslPending more => some (if more && c.connected then [.handleTlsRead false] else [])
  | _ => none

def handleClose : TcpConnection Callback × List (Code Callback) :=
  if c.state = .disconnected then (c, [])
  else
    ({ c with state := .disconnected, writing := false },
      if c.applicationEstablished then [.connectionCallback] else [])

def connectEstablished : TcpConnection Callback × List (Code Callback) :=
  let c := { c with state := .connected }
  if c.tls then (c, [.driveTlsHandshake]) else c.notifyApplicationEstablished

end TcpConnection

/-! ### The machine -/

/-- What the owner of the completions does when one is called and on its own. It sees whether the
connection is connected. -/
structure User (Callback Owner Outcome Task : Type) where
  completed : Callback → Bool → Outcome → Owner → Owner × List (Call Callback)
  background : Task → Bool → Owner → Owner × List (Call Callback)

def passive : User Unit Unit Unit Unit where
  completed _ _ _ owner := (owner, [])
  background _ _ owner := (owner, [])

structure Machine (Callback Owner : Type) where
  conn : TcpConnection Callback
  owner : Owner
  stack : List (Code Callback) := []
  fired : List (Numbered (Output Callback)) := []

def exec (files : Bytes → Bytes) (c : TcpConnection Callback) (code : Code Callback)
    (input : Input Callback Outcome Task) :
    Option (TcpConnection Callback × List (Code Callback)) :=
  match code with
  | .sendInLoop text => c.sendInLoop (textUnit text) text input
  | .startFileFrame frame => c.startFileFrame frame input
  | .sendHeader frame => c.sendHeader frame input
  | .activate frame => input.proceed (c.activate frame, [.flushFileSend])
  | .flushFileSend => input.proceed (c, c.flushFileSend)
  | .outputFlushed => input.proceed (c, c.outputFlushed)
  | .sendFileBytes => c.sendFileBytes files input
  | .finishActiveFileSend => input.proceed c.finishActiveFileSend
  | .drainDeferredSends => input.proceed c.drainDeferredSends
  | .startNextQueuedFileFrame => input.proceed c.startNextQueuedFileFrame
  | .settleWriting => input.proceed (c.settleWriting, [])
  | .forceClose => input.proceed (c.forceClose, [])
  | .flushTlsOutput => c.flushTlsOutput input
  | .handlePlainWrite => c.handlePlainWrite input
  | .handlePlainRead => (TcpConnection.handlePlainRead input).map fun code => (c, code)
  | .handleTlsRead received => c.handleTlsRead received input
  | .afterRead => input.proceed c.afterRead
  | .afterBlockedRead => input.proceed (c, c.afterBlockedRead)
  | .driveTlsHandshake => c.driveTlsHandshake input
  | .afterEstablished => input.proceed (c, c.afterEstablished)
  | .readPending => (c.readPending input).map fun code => (c, code)
  | .handleClose => input.proceed c.handleClose
  | .messageCallback | .connectionCallback =>
    match input with
    | .calls calls => some (c, [.user calls])
    | _ => none
  | .user [] => input.proceed (c, [])
  | .user (call :: calls) =>
    input.proceed ((c.call call).1, (c.call call).2 ++ [.user calls])
  | .completion _ => none

def wake (c : TcpConnection Callback) :
    Input Callback Outcome Task → Option (TcpConnection Callback × List (Code Callback))
  | .call call => some (c.call call)
  | .functor =>
    match c.functors with
    | [] => none
    | functor :: rest => some ({ c with functors := rest }.runFunctor functor)
  | .readable => some (c, c.handleRead)
  | .writable => some c.handleWrite
  | .hangup => some (c, [.handleClose])
  | .connectEstablished => if c.state = .connecting then some c.connectEstablished else none
  | _ => none

namespace Machine

variable (m : Machine Callback Owner)

def complete (user : User Callback Owner Outcome Task) (unit : Numbered (Output Callback))
    (rest : List (Code Callback)) (input : Input Callback Outcome Task) :
    Option (Machine Callback Owner) :=
  match unit.request.completion with
  | none => input.proceed { m with stack := rest }
  | some callback =>
    match input with
    | .completed outcome =>
      let (owner, calls) := user.completed callback m.conn.connected outcome m.owner
      some { m with
        owner := owner
        stack := .user calls :: rest
        fired := m.fired ++ [unit] }
    | _ => none

def next (files : Bytes → Bytes) (user : User Callback Owner Outcome Task)
    (input : Input Callback Outcome Task) : Option (Machine Callback Owner) :=
  match input with
  | .post call => some { m with conn := m.conn.post call }
  | .background task =>
    let (owner, calls) := user.background task m.conn.connected m.owner
    some { m with owner := owner, conn := calls.foldl TcpConnection.post m.conn }
  | input =>
    match m.stack with
    | [] => (wake m.conn input).map fun (c, code) => { m with conn := c, stack := code }
    | .completion unit :: rest => m.complete user unit rest input
    | code :: rest =>
      (exec files m.conn code input).map fun (c, code) =>
        { m with conn := c, stack := code ++ rest }

def fresh (tls ktls : Bool) (owner : Owner) : Machine Callback Owner :=
  { conn := { tls := tls, ktls := ktls }, owner := owner }

end Machine

end ChatRoom.Net
