import ChatRoom.Server.Store

/-!
# Sessions and the state of the server

`ClientSession` follows `client_session.hpp`. `Shared` is everything the handlers of different
connections share: the tables, the upload store, the two mutexes and generation counters, the
registry of online users, the sessions and the running file deliveries.
-/

namespace ChatRoom

abbrev ConnId := Nat

/-- The fields of the source's record that are not listed are copies of fields of the resume state,
made when the upload is set up and never assigned afterwards. -/
structure IncomingFileUpload where
  token : Bytes
  receivedSize : Nat
  resumeState : FileUploadResumeState
  deriving DecidableEq, Repr

namespace IncomingFileUpload

variable (upload : IncomingFileUpload)

def scope : FileTransferScope := upload.resumeState.metadata.scope

def target : Bytes :=
  match upload.scope with
  | .privateFile => upload.resumeState.metadata.recipientUsername
  | .groupFile => upload.resumeState.metadata.groupName

def fileName : Bytes := upload.resumeState.metadata.fileName

def expectedSize : Nat := upload.resumeState.metadata.fileSize

def sha256Hex : Bytes := upload.resumeState.metadata.sha256Hex

def recipients : List Bytes := upload.resumeState.recipientUsernames

end IncomingFileUpload

structure PendingBinaryUploadFrame where
  token : Bytes
  startOffset : Nat
  nextOffset : Nat
  remainingBytes : Nat
  bytes : Bytes
  deriving DecidableEq, Repr

def PendingBinaryUploadFrame.take (frame : PendingBinaryUploadFrame) (bytes : Bytes) :
    PendingBinaryUploadFrame :=
  let consumed := bytes.take frame.remainingBytes
  { frame with
    nextOffset := frame.nextOffset + consumed.length
    remainingBytes := frame.remainingBytes - consumed.length
    bytes := frame.bytes ++ consumed }

structure ClientSession where
  loggedIn : Bool := false
  username : Bytes := []
  realtimePrivateTarget : Bytes := []
  realtimePrivateGeneration : Nat := 0
  realtimeGroupName : Bytes := []
  realtimeGroupId : Nat := 0
  realtimeGroupRecipients : List Bytes := []
  realtimeGroupGeneration : Nat := 0
  upload : Option IncomingFileUpload := none
  binaryUpload : Option PendingBinaryUploadFrame := none
  fileDeliveriesInProgress : List Nat := []
  offeredFiles : List StoredFileTransfer := []
  /-- Transfer identifiers with the position of their flag in `Shared.cancelFlags`. -/
  fileDeliveryCancelFlags : List (Nat × Nat) := []
  deriving DecidableEq, Repr

/-- Where a `FileDeliveryPump` is: its task is queued, its first line is on its way, a frame is
handed to the connection, that frame is being sent, the last line is on its way, it has ended. -/
inductive PumpStage where
  | submitted
  | starting
  | waiting
  | sending
  | finishing
  | ended
  deriving DecidableEq, Repr

structure Pump where
  connection : ConnId
  transfer : StoredFileTransfer
  offset : Nat
  flag : Nat
  stage : PumpStage
  deriving DecidableEq, Repr

/-- Work queued in the loop of a connection. -/
inductive LoopCall where
  | deliverFileToUser (transfer : StoredFileTransfer) (recipient : Bytes)
  | deliveryFailed (transferId : Nat) (error : Bytes)
  deriving DecidableEq, Repr

inductive ConnPhase where
  | fresh
  | connected
  | disconnecting
  | closed
  deriving DecidableEq, Repr

inductive DeliveryPersistKind where
  | privateMessage
  | groupMessage
  deriving DecidableEq, Repr

structure DeliveryPersistTask where
  kind : DeliveryPersistKind
  messageId : Nat
  recipient : Bytes
  decrementUnread : Bool
  deriving DecidableEq, Repr

/-- The commands that only read and answer, and a command that has no route. -/
inductive Lookup where
  | help
  | who
  | friends
  | friendRequests
  | blockedFriends
  | myGroups
  | groupMembers (arguments : Bytes)
  | groupRequests (arguments : Bytes)
  | groupRequestsAll
  | ping (arguments : Bytes)
  | unknown
  deriving DecidableEq, Repr

/-- What makes a connection run a handler: a routed command with its raw arguments, a complete
binary frame, the end of the connection, or work queued in its loop. The deliveries of files and the
background marking of delivered messages are requests too; they run on threads of their own. -/
inductive Request where
  | connect
  | disconnect
  | register (arguments : Bytes)
  | login (arguments : Bytes)
  | logout
  | quit
  | deleteAccount (arguments : Bytes)
  | publicMessage (message : Bytes)
  | privateMessage (arguments : Bytes)
  | enterPrivate (arguments : Bytes)
  | enterGroup (arguments : Bytes)
  | addFriend (arguments : Bytes)
  | acceptFriend (arguments : Bytes)
  | rejectFriend (arguments : Bytes)
  | removeFriend (arguments : Bytes)
  | blockFriend (arguments : Bytes)
  | unblockFriend (arguments : Bytes)
  | createGroup (arguments : Bytes)
  | dissolveGroup (arguments : Bytes)
  | applyGroup (arguments : Bytes)
  | leaveGroup (arguments : Bytes)
  | addGroupAdmin (arguments : Bytes)
  | removeGroupAdmin (arguments : Bytes)
  | approveGroup (arguments : Bytes)
  | rejectGroup (arguments : Bytes)
  | removeGroupMember (arguments : Bytes)
  | groupMessage (arguments : Bytes)
  | historyPublic (arguments : Bytes)
  | historyPrivate (arguments : Bytes)
  | historyGroup (arguments : Bytes)
  | fileBeginPrivate (arguments : Bytes)
  | fileBeginGroup (arguments : Bytes)
  | fileChunk (arguments : Bytes)
  | fileFrame (bytes : Bytes)
  | fileEnd (arguments : Bytes)
  | fileAbort (arguments : Bytes)
  | fileResumeRequest (arguments : Bytes)
  | fileReceived (arguments : Bytes)
  | fileReceiveFailed (arguments : Bytes)
  | pending
  | lookup (lookup : Lookup)
  | loopCall
  | pumpStep (pump : Nat)
  | persistDelivery (kind : DeliveryPersistKind) (messageId : Nat) (recipient : Bytes)
      (decrementUnread : Bool)
  deriving DecidableEq, Repr

/-- A request with the connection and the session its handler was called with, and with the queued
work it runs. -/
structure Task where
  conn : ConnId
  request : Request
  session : ClientSession
  call : Option LoopCall := none
  deriving DecidableEq, Repr

structure Shared where
  db : Database := {}
  store : Store := {}
  friendMutex : Option ConnId := none
  groupMutex : Option ConnId := none
  directPolicyGeneration : Nat := 1
  groupPolicyGeneration : Nat := 1
  sessions : ConnId → ClientSession := fun _ => {}
  phase : ConnId → ConnPhase := fun _ => .fresh
  onlineUsers : List (Bytes × ConnId) := []
  cancelFlags : List Bool := []
  pumps : List Pump := []
  loopCalls : List (ConnId × LoopCall) := []
  sent : ConnId → List Bytes := fun _ => []
  running : ConnId → Option Task := fun _ => none
  unpublishedDirect : ConnId → Option Update := fun _ => none
  unpublishedGroup : ConnId → Option Update := fun _ => none

namespace Shared

variable (s : Shared)

def connected (conn : ConnId) : Bool := s.phase conn = .connected

def setSession (conn : ConnId) (session : ClientSession) : Shared :=
  { s with sessions := Function.update s.sessions conn session }

def sendInLoop (conn : ConnId) (text : Bytes) : Shared :=
  { s with sent := Function.update s.sent conn (s.sent conn ++ [text]) }

/-- `TcpConnection::send`, which ignores text for a connection that is not connected. -/
def sendText (conn : ConnId) (text : Bytes) : Shared :=
  if s.connected conn then s.sendInLoop conn text else s

end Shared

end ChatRoom
