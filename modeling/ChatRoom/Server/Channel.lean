import ChatRoom.Server.Connection

/-!
# The channel of a connection

`minimuduo/net/Channel.cpp` and the parts of `TcpConnection.cpp` and `Poller.cpp` that decide which
callbacks are called when. This module adds to the connection the read interest of its channel, the
callbacks that are left of the event being handled, `connectDestroyed`, and a record of what the
application was told.
-/

namespace ChatRoom.Net

variable {Callback Owner Outcome Task : Type}

inductive Notice where
  /-- The connection callback, and what `connected()` returns in it. -/
  | connection (connected : Bool)
  | message
  deriving DecidableEq, Repr

inductive Readiness where
  | close
  | error
  | read
  | write
  deriving DecidableEq, Repr

structure Revents where
  hup : Bool := false
  err : Bool := false
  /-- `EPOLLIN`. -/
  input : Bool := false
  rdhup : Bool := false
  output : Bool := false
  deriving DecidableEq, Repr

/-- `Channel::handleEventWithGuard`. -/
def Revents.callbacks (r : Revents) : List Readiness :=
  if r.hup && !r.input then [.close]
  else (if r.err then [.error] else []) ++ (if r.input || r.rdhup then [.read] else []) ++
    if r.output then [.write] else []

structure Life (Callback Owner : Type) where
  machine : Machine Callback Owner
  reading : Bool := false
  ready : List Readiness := []
  destroyed : Bool := false
  told : List Notice := []
  /-- How often `closeCallback_` was called. `handleClose` calls it each time it gets past its test of
  the state; it is counted there. -/
  closeCallbacks : Nat := 0

inductive LifeEvent (Callback Outcome Task : Type) where
  | connectEstablished
  | poll (revents : Revents)
  | handleEvent
  | functor
  | go (input : Input Callback Outcome Task)
  | call (call : Call Callback)
  | post (call : Call Callback)
  | background (task : Task)
  | connectDestroyed

def Code.asksToRead : Code Callback → Input Callback Outcome Task → Bool
  | .driveTlsHandshake, .wantRead | .flushTlsOutput, .wantRead | .sendFileBytes, .wantRead => true
  | _, _ => false

def Input.internal : Input Callback Outcome Task → Bool
  | .post _ | .background _ => false
  | _ => true

namespace Life

variable (s : Life Callback Owner)

def idle : Bool := s.machine.stack.isEmpty && s.ready.isEmpty

def observe (code : Code Callback) : Life Callback Owner :=
  match code with
  | .connectionCallback => { s with told := s.told ++ [.connection s.machine.conn.connected] }
  | .messageCallback => { s with told := s.told ++ [.message] }
  | .handleClose =>
    if s.machine.conn.state = .disconnected then s
    else { s with reading := false, closeCallbacks := s.closeCallbacks + 1 }
  | _ => s

/-- The poller reports what the channel is registered for, and hang-ups and errors in any case. -/
def Reports (revents : Revents) : Prop :=
  (revents.input || revents.rdhup → s.reading) ∧ (revents.output → s.machine.conn.writing) ∧
    (s.reading || s.machine.conn.writing)

instance (revents : Revents) : Decidable (s.Reports revents) :=
  inferInstanceAs (Decidable (_ ∧ _ ∧ _))

def connectDestroyed : Life Callback Owner :=
  let c := s.machine.conn
  if c.state = .connected ∨ c.state = .disconnecting then
    { s with
      machine := { s.machine with
        conn := { c with state := .disconnected, writing := false }
        stack := if c.applicationEstablished then [.connectionCallback] else [] }
      reading := false
      destroyed := true }
  else { s with destroyed := true }

def readyInput : Readiness → Option (Input Callback Outcome Task)
  | .close => some .hangup
  | .error => none
  | .read => some .readable
  | .write => some .writable

variable (files : Bytes → Bytes) (user : User Callback Owner Outcome Task)

def next : LifeEvent Callback Outcome Task → Option (Life Callback Owner)
  | .connectEstablished =>
    if s.idle && !s.destroyed then
      (s.machine.next files user .connectEstablished).map fun machine =>
        { s with machine, reading := true }
    else none
  | .poll revents =>
    if s.idle && !s.destroyed && decide (s.Reports revents) then
      some { s with ready := revents.callbacks }
    else none
  | .handleEvent =>
    match s.machine.stack, s.ready with
    | [], callback :: ready =>
      match (readyInput callback : Option (Input Callback Outcome Task)) with
      -- `handleError` only asks the socket for its error
      | none => some { s with ready }
      | some input =>
        (s.machine.next files user input).map fun machine => { s with machine, ready }
    | _, _ => none
  | .functor =>
    if s.idle then (s.machine.next files user .functor).map fun machine => { s with machine } else none
  | .go input =>
    match s.machine.stack with
    | [] => none
    | code :: _ =>
      if input.internal then
        (s.machine.next files user input).map fun machine =>
          let s := s.observe code
          { s with machine, reading := s.reading || code.asksToRead input }
      else none
  | .call call =>
    if s.idle && !s.told.isEmpty then
      (s.machine.next files user (.call call)).map fun machine => { s with machine }
    else none
  | .post call =>
    if s.told.isEmpty then none
    else (s.machine.next files user (.post call)).map fun machine => { s with machine }
  | .background task =>
    if s.told.isEmpty then none
    else (s.machine.next files user (.background task)).map fun machine => { s with machine }
  | .connectDestroyed => if s.idle && !s.destroyed then some s.connectDestroyed else none

end Life

end ChatRoom.Net
