import ChatRoom.Server.Accounts
import ChatRoom.Server.Friends
import ChatRoom.Server.Groups
import ChatRoom.Server.Lookups
import ChatRoom.Server.Messages

/-!
# The server as a system of interleaved handlers

Each connection runs one handler at a time, in its event loop; handlers of different connections
interleave between any two of their steps. A serial history is one in which every handler runs to
its end before the next one starts.
-/

namespace ChatRoom

open Handler Interleaving

/-- A body of the loop of `delivery_persist_loop`. -/
def persistDelivery (kind : DeliveryPersistKind) (messageId : Nat) (recipient : Bytes)
    (decrementUnread : Bool) : Handler Unit := do
  let now ← nowUnixMs
  match kind with
  | .privateMessage =>
    match ← update (.markPrivateMessageDelivered messageId recipient now) with
    | .error _ => pure ()
    | .ok () =>
      if decrementUnread then adjustRedisUnreadBestEffort recipient "private" (-1) else pure ()
  | .groupMessage =>
    match ← update (.markGroupMessageDelivered messageId recipient now) with
    | .error _ => pure ()
    | .ok () =>
      if decrementUnread then adjustRedisUnreadBestEffort recipient "group" (-1) else pure ()

def runLoopCall (conn : ConnId) (session : ClientSession) : LoopCall → Handler Unit
  | .deliverFileToUser transfer recipient => deliverFileToUser conn session transfer recipient
  | .deliveryFailed transferId error => deliveryFailed transferId error

structure ServerConfig where
  crypto : Crypto
  serverInstanceId : Bytes
  /-- `format_unix_ms` in the time zone of the host. -/
  formatUnixMs : Int → Bytes

variable (config : ServerConfig)

/-- The handler of a request, for a connection with the given session. Work queued in the loop is
not routed here. -/
def route (useCache : Bool) (conn : ConnId) (session : ClientSession) : Request → Handler Unit
  | .connect => onConnect conn
  | .disconnect => onDisconnect conn session
  | .register arguments => handleRegister conn session arguments
  | .login arguments => handleLogin config.crypto config.serverInstanceId conn session arguments
  | .logout => handleLogout conn session
  | .quit => handleQuit conn
  | .deleteAccount arguments => handleDeleteAccount config.crypto conn session arguments
  | .publicMessage message => handlePublicMessage conn session message
  | .privateMessage arguments => handlePrivateMessage useCache conn session arguments
  | .enterPrivate arguments => handleEnterPrivate conn session arguments
  | .enterGroup arguments => handleEnterGroup conn session arguments
  | .addFriend arguments => handleAddFriend conn session arguments
  | .acceptFriend arguments => handleAcceptFriend conn session arguments
  | .rejectFriend arguments => handleRejectFriend conn session arguments
  | .removeFriend arguments => handleRemoveFriend conn session arguments
  | .blockFriend arguments => handleBlockFriend conn session arguments
  | .unblockFriend arguments => handleUnblockFriend conn session arguments
  | .createGroup arguments => handleCreateGroup conn session arguments
  | .dissolveGroup arguments => handleDissolveGroup conn session arguments
  | .applyGroup arguments => handleApplyGroup conn session arguments
  | .leaveGroup arguments => handleLeaveGroup conn session arguments
  | .addGroupAdmin arguments => handleAddGroupAdmin conn session arguments
  | .removeGroupAdmin arguments => handleRemoveGroupAdmin conn session arguments
  | .approveGroup arguments => handleApproveGroup conn session arguments
  | .rejectGroup arguments => handleRejectGroup conn session arguments
  | .removeGroupMember arguments => handleRemoveGroupMember conn session arguments
  | .groupMessage arguments => handleGroupMessage useCache conn session arguments
  | .historyPublic arguments => handleHistoryPublic config.formatUnixMs conn session arguments
  | .historyPrivate arguments => handleHistoryPrivate config.formatUnixMs conn session arguments
  | .historyGroup arguments => handleHistoryGroup config.formatUnixMs conn session arguments
  | .fileBeginPrivate arguments => handleFileBeginPrivate conn session arguments
  | .fileBeginGroup arguments => handleFileBeginGroup conn session arguments
  | .fileChunk arguments => handleFileChunk conn session arguments
  | .fileFrame bytes => onFrameBytes conn session bytes
  | .fileEnd arguments => handleFileEnd conn session arguments
  | .fileAbort arguments => handleFileAbort conn session arguments
  | .fileResumeRequest arguments => handleFileResumeRequest conn session arguments
  | .fileReceived arguments => handleFileReceived conn session arguments
  | .fileReceiveFailed arguments => handleFileReceiveFailed conn arguments
  | .pending => handlePending conn session
  | .lookup lookup => handleLookup conn session lookup
  | .loopCall => pure ()
  | .pumpStep pump => act (.advancePump pump)
  | .persistDelivery kind messageId recipient decrementUnread =>
    persistDelivery kind messageId recipient decrementUnread

def admissible (s : Shared) (conn : ConnId) : Request → Bool
  | .connect => s.phase conn = .fresh
  | .disconnect => s.phase conn = .connected || s.phase conn = .disconnecting
  | .loopCall | .pumpStep _ | .persistDelivery _ _ _ _ => true
  | _ => s.connected conn

def thenFinish (handler : Handler Unit) : Handler Unit := do
  handler
  act .finish

def takeLoopCall (conn : ConnId) : List (ConnId × LoopCall) →
    Option (LoopCall × List (ConnId × LoopCall))
  | [] => none
  | entry :: rest =>
    if entry.1 = conn then
      some (entry.2, rest)
    else
      (takeLoopCall conn rest).map fun (call, rest) => (call, entry :: rest)

def Shared.start (s : Shared) (conn : ConnId) (task : Task) : Shared :=
  { s with running := Function.update s.running conn (some task) }

def launch (useCache : Bool) (conn : ConnId) (request : Request) (s : Shared) :
    Option (Handler Unit × Shared) :=
  let session := s.sessions conn
  if admissible s conn request then
    match request with
    | .loopCall => (takeLoopCall conn s.loopCalls).map fun (call, loopCalls) =>
      (thenFinish (runLoopCall conn session call),
        { s.start conn ⟨conn, request, session, some call⟩ with loopCalls })
    | _ =>
      some (thenFinish (route config useCache conn session request),
        s.start conn ⟨conn, request, session, none⟩)
  else
    none

abbrev ServerConfiguration := Interleaving.Config ConnId Act Act.Result Shared

abbrev ServerEvent := Interleaving.Event ConnId Choice Request

/-- The server. With `useCache = false` it is the server whose message handlers never consult the
realtime caches. -/
def server (useCache : Bool) : System ConnId Act Act.Result Choice Request Shared where
  exec := exec config.crypto
  launch := launch config useCache

/-- The server before any client has connected, over some tables and an upload store. -/
def initial (db : Database) (store : Store) : ServerConfiguration where
  shared := { db, store }
  code := fun _ => .ret ()

end ChatRoom
