import ChatRoom.Lib.Program
import ChatRoom.Server.State
import ChatRoom.Server.Wire

/-!
# The atomic steps of the handlers

A handler is a program over `Act`: database calls, mutex operations, loads and increments of the
generation counters, accesses to its own session, sends, and operations of the registry and of the
file service.
-/

namespace ChatRoom

inductive Mutex where
  | friend
  | group
  deriving DecidableEq, Repr

inductive Policy where
  | direct
  | group
  deriving DecidableEq, Repr

inductive RedisCall where
  | claimPresence (username : Bytes)
  | presenceOwner (username : Bytes)
  | refreshPresenceIfOwned (username : Bytes)
  | removePresenceIfOwned (username : Bytes)
  | adjustUnread (username kind : Bytes) (delta : Int)
  | unreadCounts (username : Bytes)
  | clearUnread (username : Bytes)
  deriving DecidableEq, Repr

structure RedisUnreadCounts where
  privateMessages : Int
  groupMessages : Int
  privateFiles : Int
  groupFiles : Int
  deriving DecidableEq, Repr

inductive RedisReply where
  | failed (error : Bytes)
  | flag (value : Bool)
  | owner (server : Option Bytes)
  | counts (value : RedisUnreadCounts)
  deriving DecidableEq, Repr

/-- The assignments a handler makes to its own session between two other steps. -/
inductive Assign where
  | login (username : Bytes)
  | logout
  | accountDeleted
  | privateTarget (target : Bytes)
  | privateGeneration (generation : Nat)
  | privateCache (target : Bytes) (generation : Nat)
  | enteredPrivate (generation : Nat)
  | groupEntry (name : Bytes) (id : Nat) (recipients : List Bytes)
  | enteredGroup (generation : Nat)
  | groupCache (name : Bytes) (id : Nat) (recipients : List Bytes) (generation : Nat)
  | detachUpload
  | upload (upload : IncomingFileUpload)
  | takeUpload
  | binaryUpload (frame : PendingBinaryUploadFrame)
  | dropBinaryUpload
  | frameStored (acceptedOffset : Nat)
  | offer (transfer : StoredFileTransfer)
  | eraseOffer (transferId : Nat)
  | eraseDelivery (transferId : Nat)
  deriving DecidableEq, Repr

namespace ClientSession

variable (session : ClientSession)

def clearGroupCache : ClientSession :=
  { session with
    realtimeGroupName := []
    realtimeGroupId := 0
    realtimeGroupRecipients := []
    realtimeGroupGeneration := 0 }

def clearPrivateCache : ClientSession :=
  { session with realtimePrivateTarget := [], realtimePrivateGeneration := 0 }

def eraseOffer (transferId : Nat) : ClientSession :=
  { session with offeredFiles := session.offeredFiles.filter fun offer => offer.id ≠ transferId }

def eraseDelivery (transferId : Nat) : ClientSession :=
  { session with
    fileDeliveriesInProgress := session.fileDeliveriesInProgress.filter fun id => id ≠ transferId
    fileDeliveryCancelFlags :=
      session.fileDeliveryCancelFlags.filter fun entry => entry.1 ≠ transferId }

def beginDelivery (transferId flag : Nat) : ClientSession :=
  { session with
    fileDeliveriesInProgress := session.fileDeliveriesInProgress ++ [transferId]
    fileDeliveryCancelFlags := (session.fileDeliveryCancelFlags.filter fun entry =>
      entry.1 ≠ transferId) ++ [(transferId, flag)] }

def withdrawOffers (revoked : List Nat) : ClientSession :=
  { session with offeredFiles := session.offeredFiles.filter fun offer =>
      !revoked.contains offer.id || session.fileDeliveriesInProgress.contains offer.id }

def assign : Assign → ClientSession
  | .login username => { session with loggedIn := true, username }
  | .logout =>
    { session.clearPrivateCache.clearGroupCache with loggedIn := false, username := [] }
  | .accountDeleted =>
    { session with
      loggedIn := false
      username := []
      offeredFiles := []
      fileDeliveriesInProgress := [] }
  | .privateTarget target => { session with realtimePrivateTarget := target }
  | .privateGeneration generation => { session with realtimePrivateGeneration := generation }
  | .privateCache target generation =>
    { session with realtimePrivateTarget := target, realtimePrivateGeneration := generation }
  | .enteredPrivate generation =>
    { session.clearGroupCache with realtimePrivateGeneration := generation }
  | .groupEntry name id recipients =>
    { session with
      realtimeGroupName := name, realtimeGroupId := id, realtimeGroupRecipients := recipients }
  | .enteredGroup generation =>
    { session.clearPrivateCache with realtimeGroupGeneration := generation }
  | .groupCache name id recipients generation =>
    { session with
      realtimeGroupName := name
      realtimeGroupId := id
      realtimeGroupRecipients := recipients
      realtimeGroupGeneration := generation }
  | .detachUpload => { session with upload := none, binaryUpload := none }
  | .upload upload => { session with upload := some upload }
  | .takeUpload => { session with upload := none }
  | .binaryUpload frame => { session with binaryUpload := some frame }
  | .dropBinaryUpload => { session with binaryUpload := none }
  | .frameStored acceptedOffset =>
    { session with
      upload := session.upload.map fun upload => { upload with receivedSize := acceptedOffset }
      binaryUpload := none }
  | .offer transfer =>
    { session with offeredFiles :=
        (session.offeredFiles.filter fun offer => offer.id ≠ transfer.id) ++ [transfer] }
  | .eraseOffer transferId => session.eraseOffer transferId
  | .eraseDelivery transferId => session.eraseDelivery transferId

end ClientSession

inductive Act where
  | query (query : Query)
  | update (update : Update)
  | lock (mutex : Mutex)
  | unlock (mutex : Mutex)
  | loadGeneration (policy : Policy)
  | bumpGeneration (policy : Policy)
  | now
  | hashPassword (password : Bytes)
  | redis (call : RedisCall)
  | session
  | assign (assign : Assign)
  | send (conn : ConnId) (text : WireText) (completion : Option DeliveryPersistTask)
  | setPhase (phase : ConnPhase)
  | addOnline (username : Bytes)
  | removeOnline (username : Bytes)
  | findOnline (username : Bytes)
  | onlineConnections
  | onlineUsernames
  | beginOrResumeUpload (requested : FileUploadResumeState)
  | appendUploadBytes (token : Bytes) (expectedOffset : Nat) (bytes : Bytes)
  | finalizeUpload (upload : IncomingFileUpload)
  | cancelUpload (token : Bytes)
  | removeStored (path : Bytes)
  | revokeGroupOffers (conn : ConnId) (groupName : Bytes)
  | deliverAsync (transfer : StoredFileTransfer) (startOffset : Nat)
  | queueInLoop (conn : ConnId) (call : LoopCall)
  | advancePump (pump : Nat)
  | finish

@[reducible]
def Act.Result : Act → Type
  | .query q => Except Bytes q.Answer
  | .update u => Except Bytes u.Result
  | .loadGeneration _ => Nat
  | .now => Int
  | .hashPassword _ => Option Bytes
  | .redis _ => RedisReply
  | .session => ClientSession
  | .addOnline _ => Bool
  | .findOnline _ => Option ConnId
  | .onlineConnections => List ConnId
  | .onlineUsernames => List Bytes
  | .beginOrResumeUpload _ => Except Bytes (FileUploadResumeState × Nat)
  | .appendUploadBytes _ _ _ => Except Bytes Nat
  | .finalizeUpload _ => Except Bytes Bytes
  | .revokeGroupOffers _ _ => List Nat
  | .lock _ | .unlock _ | .bumpGeneration _ | .assign _ | .send _ _ _ | .setPhase _
  | .removeOnline _ | .cancelUpload _ | .removeStored _ | .deliverAsync _ _ | .queueInLoop _ _
  | .advancePump _ | .finish => Unit

/-- What the environment decides about one step. -/
inductive Choice where
  | proceed
  | fail (error : Bytes)
  /-- A database call takes effect and is reported as failed all the same. -/
  | failLate (error : Bytes)
  | time (unixMs : Int)
  | hashed (encoded : Option Bytes)
  | reply (reply : RedisReply)
  | file (outcome : FileOutcome)
  deriving DecidableEq, Repr

/-- The primitives of OpenSSL that the server computes with. -/
structure Crypto where
  verifyPassword : Bytes → Bytes → Bool
  sha256Hex : Bytes → Bytes

/-- The updates after which the handlers increment a generation counter. -/
def Update.published (policy : Policy) : (u : Update) → u.Result → Bool
  | .deleteUser _, removed => removed
  | .acceptFriendRequest _ _, _ => policy = .direct
  | .removeFriendship _ _, removed => policy = .direct && removed
  | .addFriendBlock _ _, created => policy = .direct && created
  | .removeFriendBlock _ _, removed => policy = .direct && removed
  | .createGroup _ _, _ => policy = .group
  | .dissolveGroup _ _, removed => policy = .group && removed
  | .approveGroupJoinRequest _ _, _ => policy = .group
  | .removeGroupMember _ _, removed => policy = .group && removed
  | _, _ => false

def kBinaryFileFrameBytes : Nat := 4 * 1024 * 1024

namespace Pump

variable (pump : Pump)

def frameSize : Nat := min (pump.transfer.metadata.fileSize - pump.offset) kBinaryFileFrameBytes

def header : Bytes :=
  utf8 "FILE_DATA " ++ decimal pump.transfer.id ++ utf8 " " ++ decimal pump.offset ++ utf8 " " ++
    decimal pump.frameSize ++ utf8 "\n"

end Pump

namespace Shared

variable (s : Shared)

def setPump (index : Nat) (pump : Pump) : Shared := { s with pumps := s.pumps.set index pump }

/-- `FileDeliveryPump::finish` with an error: the completion queues its work in the loop. -/
def failPump (index : Nat) (pump : Pump) (error : String) : Shared :=
  { s.setPump index { pump with stage := .ended } with
    loopCalls := s.loopCalls ++
      [(pump.connection, .deliveryFailed pump.transfer.id (utf8 error))] }

def sendNext (index : Nat) (pump : Pump) : Shared :=
  if s.cancelFlags.getD pump.flag false then
    s.failPump index pump "delivery permission revoked"
  else if !s.connected pump.connection then
    s.failPump index pump "recipient connection closed during file delivery"
  else if pump.transfer.metadata.fileSize ≤ pump.offset then
    (s.sendText pump.connection
      (utf8 "FILE_DONE " ++ decimal pump.transfer.id ++ utf8 "\n")).setPump index
        { pump with stage := .finishing }
  else
    s.setPump index { pump with stage := .waiting }

/-- `FileTransferService::deliver_file`, which ends with `FileDeliveryPump::start`. -/
def deliverFile (index : Nat) (pump : Pump) : Shared :=
  if !s.connected pump.connection then
    s.failPump index pump "recipient connection is closed"
  else if pump.transfer.metadata.fileSize < pump.offset then
    s.failPump index pump "resume offset exceeds file size"
  else
    match s.store.files pump.transfer.metadata.storedRelativePath with
    | none => s.failPump index pump "stored file is missing"
    | some content =>
      if content.length ≠ pump.transfer.metadata.fileSize then
        s.failPump index pump "stored file size no longer matches metadata"
      else
        (s.sendText pump.connection (utf8 "FILE_RESUME_START " ++ decimal pump.transfer.id ++
          utf8 " " ++ decimal pump.offset ++ utf8 "\n")).setPump index
            { pump with stage := .starting }

/-- One step of a delivery: its task runs, a line has been flushed, the connection starts a frame,
or a frame is complete. -/
def advancePump (index : Nat) : Option Shared :=
  match s.pumps[index]? with
  | none => none
  | some pump =>
    match pump.stage with
    | .submitted => some (s.deliverFile index pump)
    | .starting => some (s.sendNext index pump)
    | .waiting =>
      -- a connection that is only disconnecting still starts a frame
      if s.phase pump.connection = .closed then
        none
      else
        some ((s.sendInLoop pump.connection pump.header).setPump index
          { pump with stage := .sending })
    | .sending =>
      if s.connected pump.connection then
        some (s.sendNext index { pump with offset := pump.offset + pump.frameSize })
      else
        some (s.failPump index pump "recipient connection closed during raw file frame")
    | .finishing => some (s.setPump index { pump with stage := .ended })
    | .ended => none

/-- `deliver_async` with the bookkeeping of its caller. -/
def deliverAsync (conn : ConnId) (transfer : StoredFileTransfer) (startOffset : Nat) : Shared :=
  let flag := s.cancelFlags.length
  { s.setSession conn ((s.sessions conn).beginDelivery transfer.id flag) with
    cancelFlags := s.cancelFlags ++ [false]
    pumps := s.pumps ++ [⟨conn, transfer, startOffset, flag, .submitted⟩] }

def groupOffers (conn : ConnId) (groupName : Bytes) : List StoredFileTransfer :=
  (s.sessions conn).offeredFiles.filter fun offer =>
    offer.metadata.scope = .groupFile && offer.metadata.groupName = groupName

def revokeGroupOffers (conn : ConnId) (groupName : Bytes) : Shared :=
  let session := s.sessions conn
  let revoked := (s.groupOffers conn groupName).map StoredFileTransfer.id
  let flags := (session.fileDeliveryCancelFlags.filter fun entry => revoked.contains entry.1).map
    Prod.snd
  { s.setSession conn (session.withdrawOffers revoked) with
    cancelFlags := s.cancelFlags.mapIdx fun index flag => flag || flags.contains index }

/-! ### The registry of online users

An entry whose connection is not connected any more is treated as missing and is erased when it is
met. -/

def findOnline (username : Bytes) : Option ConnId :=
  match s.onlineUsers.find? fun entry => entry.1 = username with
  | some entry => if s.connected entry.2 then some entry.2 else none
  | none => none

def eraseOnline (username : Bytes) : Shared :=
  { s with onlineUsers := s.onlineUsers.filter fun entry => entry.1 ≠ username }

def addOnline (conn : ConnId) (username : Bytes) : Bool × Shared :=
  match s.findOnline username with
  | some _ => (false, s)
  | none =>
    (true, { s.eraseOnline username with
      onlineUsers := (s.eraseOnline username).onlineUsers ++ [(username, conn)] })

def removeOnline (conn : ConnId) (username : Bytes) : Shared :=
  { s with onlineUsers := s.onlineUsers.filter fun entry => entry ≠ (username, conn) }

def pruneOnline : Shared :=
  { s with onlineUsers := s.onlineUsers.filter fun entry => s.connected entry.2 }

end Shared

/-! ### Execution -/

namespace Shared

variable (s : Shared)

def mutexOwner : Mutex → Option ConnId
  | .friend => s.friendMutex
  | .group => s.groupMutex

def setMutex (owner : Option ConnId) : Mutex → Shared
  | .friend => { s with friendMutex := owner }
  | .group => { s with groupMutex := owner }

def generation : Policy → Nat
  | .direct => s.directPolicyGeneration
  | .group => s.groupPolicyGeneration

/-- Increment a counter; the increment publishes what the thread has committed. -/
def bump (conn : ConnId) : Policy → Shared
  | .direct => { s with
      directPolicyGeneration := s.directPolicyGeneration + 1
      unpublishedDirect := Function.update s.unpublishedDirect conn none }
  | .group => { s with
      groupPolicyGeneration := s.groupPolicyGeneration + 1
      unpublishedGroup := Function.update s.unpublishedGroup conn none }

def commit (conn : ConnId) (update : Update) (result : update.Result) (db : Database) : Shared :=
  { s with
    db
    unpublishedDirect :=
      if update.published .direct result then
        Function.update s.unpublishedDirect conn (some update)
      else
        s.unpublishedDirect
    unpublishedGroup :=
      if update.published .group result then
        Function.update s.unpublishedGroup conn (some update)
      else
        s.unpublishedGroup }

def execQuery (query : Query) : Choice → Option (Except Bytes query.Answer × Shared)
  | .proceed => some (s.db.read query, s)
  | .fail error => some (.error error, s)
  | _ => none

def execUpdate (conn : ConnId) (update : Update) :
    Choice → Option (Except Bytes update.Result × Shared)
  | .proceed =>
    match s.db.apply update with
    | .ok (result, db) => some (.ok result, s.commit conn update result db)
    | .error (.reported error) => some (.error error, s)
    | .error .refused => none
  | .fail error => some (.error error, s)
  | .failLate error =>
    match s.db.apply update with
    | .ok (_, db) => some (.error error, { s with db })
    | .error _ => none
  | _ => none

def withStore {α : Type} : Option (α × Store) → Option (α × Shared)
  | some (result, store) => some (result, { s with store })
  | none => none

end Shared

def exec (crypto : Crypto) (conn : ConnId) :
    (act : Act) → Choice → Shared → Option (act.Result × Shared)
  | .query q, choice, s => s.execQuery q choice
  | .update u, choice, s => s.execUpdate conn u choice
  | .lock mutex, .proceed, s =>
    if s.mutexOwner mutex = none then some ((), s.setMutex (some conn) mutex) else none
  | .unlock mutex, .proceed, s =>
    if s.mutexOwner mutex = some conn then some ((), s.setMutex none mutex) else none
  | .loadGeneration policy, .proceed, s => some (s.generation policy, s)
  | .bumpGeneration policy, .proceed, s => some ((), s.bump conn policy)
  | .now, .time unixMs, s => some (unixMs, s)
  | .hashPassword _, .hashed encoded, s => some (encoded, s)
  | .redis _, .reply reply, s => some (reply, s)
  | .session, .proceed, s => some (s.sessions conn, s)
  | .assign assign, .proceed, s => some ((), s.setSession conn ((s.sessions conn).assign assign))
  | .send target text _, .proceed, s => some ((), s.sendText target text.bytes)
  | .setPhase phase, .proceed, s =>
    some ((), { s with phase := Function.update s.phase conn phase })
  | .addOnline username, .proceed, s => some (s.addOnline conn username)
  | .removeOnline username, .proceed, s => some ((), s.removeOnline conn username)
  | .findOnline username, .proceed, s =>
    match s.findOnline username with
    | some target => some (some target, s)
    | none => some (none, s.eraseOnline username)
  | .onlineConnections, .proceed, s => some (s.pruneOnline.onlineUsers.map Prod.snd, s.pruneOnline)
  | .onlineUsernames, .proceed, s =>
    some (orderNames (s.pruneOnline.onlineUsers.map Prod.fst), s.pruneOnline)
  | .beginOrResumeUpload requested, .file outcome, s =>
    s.withStore (s.store.beginOrResumeUpload requested outcome)
  | .appendUploadBytes token expectedOffset bytes, .file outcome, s =>
    s.withStore (s.store.appendUploadBytes token expectedOffset bytes outcome)
  | .finalizeUpload upload, .file outcome, s =>
    s.withStore (s.store.finalizeUpload crypto.sha256Hex upload.token upload.fileName
      upload.expectedSize upload.sha256Hex outcome)
  | .cancelUpload token, .file outcome, s => s.withStore (s.store.cancelUpload token outcome)
  | .removeStored path, .file outcome, s => s.withStore (s.store.removeStored path outcome)
  | .revokeGroupOffers target groupName, .proceed, s =>
    some ((s.groupOffers target groupName).map StoredFileTransfer.id,
      s.revokeGroupOffers target groupName)
  | .deliverAsync transfer startOffset, .proceed, s =>
    some ((), s.deliverAsync conn transfer startOffset)
  | .queueInLoop target call, .proceed, s =>
    some ((), { s with loopCalls := s.loopCalls ++ [(target, call)] })
  | .advancePump index, .proceed, s => (s.advancePump index).map fun s' => ((), s')
  | .finish, .proceed, s => some ((), { s with running := Function.update s.running conn none })
  | _, _, _ => none

end ChatRoom
