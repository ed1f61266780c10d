import ChatRoom.Lib.Utf8
import ChatRoom.Text
import Mathlib.Data.List.Sort

/-!
# The MySQL tables and the calls of `MySqlDatabase`

Every call is taken as one atomic step on the tables. A query is a function of the tables; a reader
of messages parses the payloads it finds and fails at one that is not valid UTF-8.
-/

namespace ChatRoom

inductive GroupRole where
  | owner
  | admin
  | member
  deriving DecidableEq, Repr

inductive FriendEventType where
  | requestSent
  | requestAccepted
  | requestRejected
  | removed
  deriving DecidableEq, Repr

inductive ChatMessageType where
  | publicMessage
  | privateMessage
  deriving DecidableEq, Repr

inductive FileTransferScope where
  | privateFile
  | groupFile
  deriving DecidableEq, Repr

structure GroupInfo where
  id : Nat
  name : Bytes
  ownerUsername : Bytes
  deriving DecidableEq, Repr

structure GroupMember where
  groupId : Nat
  username : Bytes
  role : GroupRole
  deriving DecidableEq, Repr

structure FriendEventPayload where
  type : FriendEventType
  actorUsername : Bytes
  targetUsername : Bytes
  occurredAtUnixMs : Int
  deriving DecidableEq, Repr

structure ChatMessagePayload where
  type : ChatMessageType
  senderUsername : Bytes
  recipientUsername : Bytes
  content : Bytes
  createdAtUnixMs : Int
  deriving DecidableEq, Repr

/-- `ParseFromArray` accepts the serialized payload: every string field is valid UTF-8. The serializer
accepts any bytes. -/
def ChatMessagePayload.parses (payload : ChatMessagePayload) : Bool :=
  Utf8.isValid payload.senderUsername && Utf8.isValid payload.recipientUsername &&
    Utf8.isValid payload.content

structure StoredMessage where
  id : Nat
  payload : ChatMessagePayload
  deriving DecidableEq, Repr

structure GroupMessagePayload where
  groupId : Nat
  groupName : Bytes
  senderUsername : Bytes
  content : Bytes
  createdAtUnixMs : Int
  deriving DecidableEq, Repr

def GroupMessagePayload.parses (payload : GroupMessagePayload) : Bool :=
  Utf8.isValid payload.groupName && Utf8.isValid payload.senderUsername &&
    Utf8.isValid payload.content

structure StoredGroupMessage where
  id : Nat
  payload : GroupMessagePayload
  deriving DecidableEq, Repr

structure FileTransferMetadata where
  transferToken : Bytes
  scope : FileTransferScope
  senderUsername : Bytes
  recipientUsername : Bytes
  groupId : Nat
  groupName : Bytes
  fileName : Bytes
  fileSize : Nat
  sha256Hex : Bytes
  createdAtUnixMs : Int
  storedRelativePath : Bytes
  deriving DecidableEq, Repr

structure StoredFileTransfer where
  id : Nat
  metadata : FileTransferMetadata
  deriving DecidableEq, Repr

structure Delivery where
  item : Nat
  recipientUsername : Bytes
  deliveredAtUnixMs : Option Int
  deriving DecidableEq, Repr

structure ManagedGroupRequestCount where
  groupName : Bytes
  pendingCount : Nat
  deriving DecidableEq, Repr

structure GroupMembership where
  group : GroupInfo
  role : GroupRole
  deriving DecidableEq, Repr

structure Database where
  users : List (Bytes × Bytes) := []
  friendRequests : List (Bytes × Bytes) := []
  friendships : List (Bytes × Bytes) := []
  friendBlocks : List (Bytes × Bytes) := []
  friendEvents : List FriendEventPayload := []
  messages : List StoredMessage := []
  privateDeliveries : List Delivery := []
  groups : List GroupInfo := []
  members : List GroupMember := []
  joinRequests : List (Nat × Bytes) := []
  groupMessages : List StoredGroupMessage := []
  groupDeliveries : List Delivery := []
  fileTransfers : List StoredFileTransfer := []
  fileDeliveries : List Delivery := []
  nextMessageId : Nat := 1
  nextGroupId : Nat := 1
  nextGroupMessageId : Nat := 1
  nextTransferId : Nat := 1
  deriving DecidableEq, Repr

/-- Why an update leaves the tables alone: the source itself reports the text, or a key, check or
foreign key of the schema makes MySQL refuse a statement. -/
inductive Failure where
  | reported (error : Bytes)
  | refused
  deriving DecidableEq, Repr

def normalizePair (left right : Bytes) : Bytes × Bytes :=
  if left ≤ right then (left, right) else (right, left)

def orderNames (names : List Bytes) : List Bytes := names.insertionSort (· ≤ ·)

namespace Database

variable (db : Database)

/-! ### Accounts and friends -/

def userExists (username : Bytes) : Bool := db.users.any fun row => row.1 = username

def getPasswordHash (username : Bytes) : Option Bytes :=
  (db.users.find? fun row => row.1 = username).map Prod.snd

def areFriends (left right : Bytes) : Bool := db.friendships.contains (normalizePair left right)

def isFriendBlocked (blocker blocked : Bytes) : Bool := db.friendBlocks.contains (blocker, blocked)

def hasFriendRequest (requester target : Bytes) : Bool :=
  db.friendRequests.contains (requester, target)

def listIncomingRequests (username : Bytes) : List Bytes :=
  orderNames ((db.friendRequests.filter fun row => row.2 = username).map Prod.fst)

def listOutgoingRequests (username : Bytes) : List Bytes :=
  orderNames ((db.friendRequests.filter fun row => row.1 = username).map Prod.snd)

def listFriends (username : Bytes) : List Bytes :=
  orderNames ((db.friendships.filter fun row => row.1 = username || row.2 = username).map fun row =>
    if row.1 = username then row.2 else row.1)

def listBlockedFriends (blocker : Bytes) : List Bytes :=
  orderNames ((db.friendBlocks.filter fun row => row.1 = blocker).map Prod.snd)

def createUser (username passwordHash : Bytes) : Except Failure (Unit × Database) :=
  if db.userExists username then
    .error .refused
  else
    .ok ((), { db with users := db.users ++ [(username, passwordHash)] })

def addFriendRequest (requester target : Bytes) : Except Failure (Unit × Database) :=
  if db.hasFriendRequest requester target || !db.userExists requester || !db.userExists target ||
      requester = target then
    .error .refused
  else
    .ok ((), { db with friendRequests := db.friendRequests ++ [(requester, target)] })

def acceptFriendRequest (requester target : Bytes) : Except Failure (Unit × Database) :=
  if !db.hasFriendRequest requester target then
    .error (.reported (utf8 "好友申请不存在"))
  else if db.areFriends requester target || !db.userExists requester || !db.userExists target ||
      requester = target then
    .error .refused
  else
    .ok ((), { db with
      friendRequests := db.friendRequests.filter fun row => row ≠ (requester, target)
      friendships := db.friendships ++ [normalizePair requester target] })

def rejectFriendRequest (requester target : Bytes) : Except Failure (Bool × Database) :=
  .ok (db.hasFriendRequest requester target, { db with
    friendRequests := db.friendRequests.filter fun row => row ≠ (requester, target) })

def removeFriendship (left right : Bytes) : Except Failure (Bool × Database) :=
  if db.areFriends left right then
    .ok (true, { db with
      friendships := db.friendships.filter fun row => row ≠ normalizePair left right
      friendBlocks := db.friendBlocks.filter fun row =>
        row ≠ (left, right) ∧ row ≠ (right, left) })
  else
    .ok (false, db)

/-- `INSERT IGNORE`: a row that a key, the check or a foreign key refuses is skipped. -/
def addFriendBlock (blocker blocked : Bytes) : Except Failure (Bool × Database) :=
  if db.isFriendBlocked blocker blocked || !db.userExists blocker || !db.userExists blocked ||
      blocker = blocked then
    .ok (false, db)
  else
    .ok (true, { db with friendBlocks := db.friendBlocks ++ [(blocker, blocked)] })

def removeFriendBlock (blocker blocked : Bytes) : Except Failure (Bool × Database) :=
  .ok (db.isFriendBlocked blocker blocked, { db with
    friendBlocks := db.friendBlocks.filter fun row => row ≠ (blocker, blocked) })

def addFriendEvent (event : FriendEventPayload) : Except Failure (Unit × Database) :=
  if db.userExists event.actorUsername && db.userExists event.targetUsername then
    .ok ((), { db with friendEvents := db.friendEvents ++ [event] })
  else
    .error .refused

/-! ### Groups -/

def getGroup (groupName : Bytes) : Option GroupInfo :=
  db.groups.find? fun group => group.name = groupName

def groupIdByName (groupName : Bytes) : Option Nat := (db.getGroup groupName).map GroupInfo.id

def groupMembers (groupName : Bytes) : List GroupMember :=
  match db.groupIdByName groupName with
  | some id => db.members.filter fun row => row.groupId = id
  | none => []

def getGroupRole (groupName username : Bytes) : Option GroupRole :=
  ((db.groupMembers groupName).find? fun row => row.username = username).map GroupMember.role

def listGroupMemberUsernames (groupName : Bytes) : List Bytes :=
  orderNames ((db.groupMembers groupName).map GroupMember.username)

def listGroupManagers (groupName : Bytes) : List Bytes :=
  let named := fun role =>
    orderNames (((db.groupMembers groupName).filter fun row => row.role = role).map
      GroupMember.username)
  named .owner ++ named .admin

def listGroupMembers (groupName : Bytes) : List (Bytes × GroupRole) :=
  let named := fun role =>
    (orderNames (((db.groupMembers groupName).filter fun row => row.role = role).map
      GroupMember.username)).map fun username => (username, role)
  named .owner ++ named .admin ++ named .member

def listUserGroups (username : Bytes) : List GroupMembership :=
  (db.groups.filterMap fun group =>
    (db.members.find? fun row => row.groupId = group.id && row.username = username).map fun row =>
      ⟨group, row.role⟩).insertionSort fun left right => left.group.name ≤ right.group.name

/-- In the order of the rows, which is that of `created_at`; the rows of one second, which the statement
orders by name, are not told apart. -/
def listGroupJoinRequests (groupName : Bytes) : List Bytes :=
  match db.groupIdByName groupName with
  | some id => (db.joinRequests.filter fun row => row.1 = id).map Prod.snd
  | none => []

def hasGroupJoinRequest (groupName username : Bytes) : Bool :=
  match db.groupIdByName groupName with
  | some id => db.joinRequests.contains (id, username)
  | none => false

def listManagedGroupRequestCounts (username : Bytes) : List ManagedGroupRequestCount :=
  let managed := db.groups.filter fun group => db.members.any fun row =>
    row.groupId = group.id && row.username = username && (row.role = .owner || row.role = .admin)
  let counts := managed.map fun group => ManagedGroupRequestCount.mk group.name
    (db.joinRequests.countP fun row => row.1 = group.id)
  (counts.filter fun item => 0 < item.pendingCount).insertionSort fun left right =>
    left.groupName ≤ right.groupName

def createGroup (groupName ownerUsername : Bytes) : Except Failure (Nat × Database) :=
  if (db.getGroup groupName).isSome || !db.userExists ownerUsername then
    .error .refused
  else
    .ok (db.nextGroupId, { db with
      groups := db.groups ++ [⟨db.nextGroupId, groupName, ownerUsername⟩]
      members := db.members ++ [⟨db.nextGroupId, ownerUsername, .owner⟩]
      nextGroupId := db.nextGroupId + 1 })

def addGroupJoinRequest (groupName username : Bytes) : Except Failure (Unit × Database) :=
  match db.groupIdByName groupName with
  | none => .error (.reported (utf8 "群不存在"))
  | some id =>
    if db.joinRequests.contains (id, username) || !db.userExists username then
      .error .refused
    else
      .ok ((), { db with joinRequests := db.joinRequests ++ [(id, username)] })

def approveGroupJoinRequest (groupName username : Bytes) : Except Failure (Unit × Database) :=
  match db.groupIdByName groupName with
  | none => .error (.reported (utf8 "群不存在"))
  | some id =>
    if !db.joinRequests.contains (id, username) then
      .error (.reported (utf8 "入群申请不存在"))
    else if (db.members.any fun row => row.groupId = id && row.username = username) ||
        !db.userExists username then
      .error .refused
    else
      .ok ((), { db with
        joinRequests := db.joinRequests.filter fun row => row ≠ (id, username)
        members := db.members ++ [⟨id, username, .member⟩] })

def rejectGroupJoinRequest (groupName username : Bytes) : Except Failure (Bool × Database) :=
  match db.groupIdByName groupName with
  | none => .error (.reported (utf8 "群不存在"))
  | some id => .ok (db.joinRequests.contains (id, username), { db with
      joinRequests := db.joinRequests.filter fun row => row ≠ (id, username) })

/-- The affected rows are those whose role really changes. -/
def setGroupMemberRole (groupName username : Bytes) (role : GroupRole) :
    Except Failure (Bool × Database) :=
  match db.groupIdByName groupName with
  | none => .error (.reported (utf8 "群不存在"))
  | some id =>
    .ok (db.members.any fun row => row.groupId = id && row.username = username && row.role ≠ role,
      { db with members := db.members.map fun row =>
          if row.groupId = id ∧ row.username = username then { row with role } else row })

def removeGroupMember (groupName username : Bytes) : Except Failure (Bool × Database) :=
  match db.groupIdByName groupName with
  | none => .error (.reported (utf8 "群不存在"))
  | some id =>
    .ok (db.members.any fun row => row.groupId = id && row.username = username,
      { db with members := db.members.filter fun row =>
          ¬(row.groupId = id ∧ row.username = username) })

def deleteGroups (gone : GroupInfo → Bool) : Database :=
  let goneId := fun id => db.groups.any fun group => gone group && group.id = id
  let goneMessage := fun id => db.groupMessages.any fun message =>
    goneId message.payload.groupId && message.id = id
  { db with
    groups := db.groups.filter fun group => !gone group
    members := db.members.filter fun row => !goneId row.groupId
    joinRequests := db.joinRequests.filter fun row => !goneId row.1
    groupMessages := db.groupMessages.filter fun message => !goneId message.payload.groupId
    groupDeliveries := db.groupDeliveries.filter fun row => !goneMessage row.item }

def dissolveGroup (groupName ownerUsername : Bytes) : Except Failure (Bool × Database) :=
  let gone := fun group : GroupInfo => group.name = groupName ∧ group.ownerUsername = ownerUsername
  .ok (db.groups.any gone, db.deleteGroups gone)

/-! ### Messages and files -/

def addMessage (payload : ChatMessagePayload) : Except Failure (Nat × Database) :=
  if !db.userExists payload.senderUsername then
    .error .refused
  else
    .ok (db.nextMessageId, { db with
      messages := db.messages ++ [⟨db.nextMessageId, payload⟩]
      nextMessageId := db.nextMessageId + 1 })

def addPrivateMessageWithDelivery (payload : ChatMessagePayload) :
    Except Failure (Nat × Database) :=
  if payload.type ≠ .privateMessage || payload.recipientUsername.isEmpty then
    .error (.reported (utf8 "私聊投递要求：a private message recipient"))
  else if !db.userExists payload.senderUsername || !db.userExists payload.recipientUsername then
    .error .refused
  else
    .ok (db.nextMessageId, { db with
      messages := db.messages ++ [⟨db.nextMessageId, payload⟩]
      privateDeliveries :=
        db.privateDeliveries ++ [⟨db.nextMessageId, payload.recipientUsername, none⟩]
      nextMessageId := db.nextMessageId + 1 })

def addGroupMessage (payload : GroupMessagePayload) (recipients : List Bytes) :
    Except Failure (Nat × Database) :=
  if !(db.groups.any fun group => group.id = payload.groupId) ||
      !db.userExists payload.senderUsername || !recipients.all db.userExists ||
      ¬recipients.Nodup then
    .error .refused
  else
    .ok (db.nextGroupMessageId, { db with
      groupMessages := db.groupMessages ++ [⟨db.nextGroupMessageId, payload⟩]
      groupDeliveries := db.groupDeliveries ++
        recipients.map fun recipient => ⟨db.nextGroupMessageId, recipient, none⟩
      nextGroupMessageId := db.nextGroupMessageId + 1 })

def addFileTransfer (metadata : FileTransferMetadata) (recipients : List Bytes) :
    Except Failure (Nat × Database) :=
  if recipients.isEmpty then
    .error (.reported (utf8 "文件传输要求：at least one recipient"))
  else if (db.fileTransfers.any fun row => row.metadata.transferToken = metadata.transferToken) ||
      !db.userExists metadata.senderUsername ||
      (!metadata.recipientUsername.isEmpty && !db.userExists metadata.recipientUsername) ||
      (metadata.groupId ≠ 0 && !db.groups.any fun group => group.id = metadata.groupId) ||
      !recipients.all db.userExists || ¬recipients.Nodup then
    .error .refused
  else
    .ok (db.nextTransferId, { db with
      fileTransfers := db.fileTransfers ++ [⟨db.nextTransferId, metadata⟩]
      fileDeliveries := db.fileDeliveries ++
        recipients.map fun recipient => ⟨db.nextTransferId, recipient, none⟩
      nextTransferId := db.nextTransferId + 1 })

def markDelivered (rows : List Delivery) (item : Nat) (recipient : Bytes) (now : Int) :
    List Delivery :=
  rows.map fun row =>
    if row.item = item ∧ row.recipientUsername = recipient ∧ row.deliveredAtUnixMs = none then
      { row with deliveredAtUnixMs := some now }
    else
      row

def markPrivateMessageDelivered (messageId : Nat) (recipient : Bytes) (now : Int) :
    Except Failure (Unit × Database) :=
  .ok ((), { db with
    privateDeliveries := markDelivered db.privateDeliveries messageId recipient now })

def markGroupMessageDelivered (messageId : Nat) (recipient : Bytes) (now : Int) :
    Except Failure (Unit × Database) :=
  .ok ((), { db with
    groupDeliveries := markDelivered db.groupDeliveries messageId recipient now })

def markFileTransferDelivered (transferId : Nat) (recipient : Bytes) (now : Int) :
    Except Failure (Unit × Database) :=
  .ok ((), { db with
    fileDeliveries := markDelivered db.fileDeliveries transferId recipient now })

def isPending (rows : List Delivery) (item : Nat) (recipient : Bytes) : Bool :=
  rows.any fun row =>
    row.item = item && row.recipientUsername = recipient && row.deliveredAtUnixMs = none

def pendingPrivateMessages (recipient : Bytes) (count : Nat) : List StoredMessage :=
  (db.messages.filter fun message =>
    isPending db.privateDeliveries message.id recipient &&
      !db.isFriendBlocked recipient message.payload.senderUsername).take count

def pendingGroupMessages (recipient : Bytes) (count : Nat) : List StoredGroupMessage :=
  (db.groupMessages.filter fun message =>
    isPending db.groupDeliveries message.id recipient).take count

def recentPublicMessages (count : Nat) : List StoredMessage :=
  (db.messages.filter fun message => message.payload.type = .publicMessage).rtake count

def recentPrivateMessages (userA userB : Bytes) (count : Nat) : List StoredMessage :=
  (db.messages.filter fun message => message.payload.type = .privateMessage &&
    ((message.payload.senderUsername = userA && message.payload.recipientUsername = userB) ||
      (message.payload.senderUsername = userB && message.payload.recipientUsername = userA))).rtake
    count

def recentGroupMessages (groupName : Bytes) (count : Nat) : List StoredGroupMessage :=
  (db.groupMessages.filter fun message => db.groups.any fun group =>
    group.id = message.payload.groupId && group.name = groupName).rtake count

def pendingFileTransfers (recipient : Bytes) (count : Nat) : List StoredFileTransfer :=
  (db.fileTransfers.filter fun transfer =>
    isPending db.fileDeliveries transfer.id recipient &&
      (transfer.metadata.scope ≠ .privateFile ||
        !db.isFriendBlocked recipient transfer.metadata.senderUsername)).take count

def fileTransferForRecipient (transferId : Nat) (recipient : Bytes) : Option StoredFileTransfer :=
  db.fileTransfers.find? fun transfer =>
    transfer.id = transferId && isPending db.fileDeliveries transferId recipient

/-! ### Deleting an account -/

def deleteUser (username : Bytes) : Except Failure (Bool × Database) :=
  let db' := db.deleteGroups fun group => group.ownerUsername = username
  let goneMessage := fun id => db'.messages.any fun message => message.id = id &&
    (message.payload.senderUsername = username || message.payload.recipientUsername = username)
  let goneGroupMessage := fun id => db'.groupMessages.any fun message => message.id = id &&
    message.payload.senderUsername = username
  let goneTransfer := fun id => db'.fileTransfers.any fun transfer => transfer.id = id &&
    (transfer.metadata.senderUsername = username ||
      transfer.metadata.recipientUsername = username)
  if !db.userExists username then
    .ok (false, db)
  else
    .ok (true, { db' with
      users := db'.users.filter fun row => row.1 ≠ username
      friendRequests := db'.friendRequests.filter fun row => row.1 ≠ username ∧ row.2 ≠ username
      friendships := db'.friendships.filter fun row => row.1 ≠ username ∧ row.2 ≠ username
      friendBlocks := db'.friendBlocks.filter fun row => row.1 ≠ username ∧ row.2 ≠ username
      friendEvents := db'.friendEvents.filter fun event =>
        event.actorUsername ≠ username ∧ event.targetUsername ≠ username
      messages := db'.messages.filter fun message => !goneMessage message.id
      privateDeliveries := db'.privateDeliveries.filter fun row =>
        !goneMessage row.item && row.recipientUsername ≠ username
      members := db'.members.filter fun row => row.username ≠ username
      joinRequests := db'.joinRequests.filter fun row => row.2 ≠ username
      groupMessages := db'.groupMessages.filter fun message => !goneGroupMessage message.id
      groupDeliveries := db'.groupDeliveries.filter fun row =>
        !goneGroupMessage row.item && row.recipientUsername ≠ username
      fileTransfers := db'.fileTransfers.filter fun transfer => !goneTransfer transfer.id
      fileDeliveries := db'.fileDeliveries.filter fun row =>
        !goneTransfer row.item && row.recipientUsername ≠ username })

end Database

/-! ### The calls as data -/

inductive Query where
  | userExists (username : Bytes)
  | getPasswordHash (username : Bytes)
  | areFriends (left right : Bytes)
  | isFriendBlocked (blocker blocked : Bytes)
  | hasFriendRequest (requester target : Bytes)
  | listIncomingRequests (username : Bytes)
  | listOutgoingRequests (username : Bytes)
  | listFriends (username : Bytes)
  | listBlockedFriends (blocker : Bytes)
  | getGroup (groupName : Bytes)
  | getGroupRole (groupName username : Bytes)
  | listGroupMemberUsernames (groupName : Bytes)
  | listGroupManagers (groupName : Bytes)
  | listGroupMembers (groupName : Bytes)
  | listUserGroups (username : Bytes)
  | listGroupJoinRequests (groupName : Bytes)
  | hasGroupJoinRequest (groupName username : Bytes)
  | listManagedGroupRequestCounts (username : Bytes)
  | pendingPrivateMessages (recipient : Bytes) (count : Nat)
  | pendingGroupMessages (recipient : Bytes) (count : Nat)
  | recentPublicMessages (count : Nat)
  | recentPrivateMessages (userA userB : Bytes) (count : Nat)
  | recentGroupMessages (groupName : Bytes) (count : Nat)
  | pendingFileTransfers (recipient : Bytes) (count : Nat)
  | fileTransferForRecipient (transferId : Nat) (recipient : Bytes)

@[reducible]
def Query.Answer : Query → Type
  | .userExists _ => Bool
  | .getPasswordHash _ => Option Bytes
  | .areFriends _ _ => Bool
  | .isFriendBlocked _ _ => Bool
  | .hasFriendRequest _ _ => Bool
  | .listIncomingRequests _ => List Bytes
  | .listOutgoingRequests _ => List Bytes
  | .listFriends _ => List Bytes
  | .listBlockedFriends _ => List Bytes
  | .getGroup _ => Option GroupInfo
  | .getGroupRole _ _ => Option GroupRole
  | .listGroupMemberUsernames _ => List Bytes
  | .listGroupManagers _ => List Bytes
  | .listGroupMembers _ => List (Bytes × GroupRole)
  | .listUserGroups _ => List GroupMembership
  | .listGroupJoinRequests _ => List Bytes
  | .hasGroupJoinRequest _ _ => Bool
  | .listManagedGroupRequestCounts _ => List ManagedGroupRequestCount
  | .pendingPrivateMessages _ _ => List StoredMessage
  | .pendingGroupMessages _ _ => List StoredGroupMessage
  | .recentPublicMessages _ => List StoredMessage
  | .recentPrivateMessages _ _ _ => List StoredMessage
  | .recentGroupMessages _ _ => List StoredGroupMessage
  | .pendingFileTransfers _ _ => List StoredFileTransfer
  | .fileTransferForRecipient _ _ => Option StoredFileTransfer

def Database.answer (db : Database) : (query : Query) → query.Answer
  | .userExists username => db.userExists username
  | .getPasswordHash username => db.getPasswordHash username
  | .areFriends left right => db.areFriends left right
  | .isFriendBlocked blocker blocked => db.isFriendBlocked blocker blocked
  | .hasFriendRequest requester target => db.hasFriendRequest requester target
  | .listIncomingRequests username => db.listIncomingRequests username
  | .listOutgoingRequests username => db.listOutgoingRequests username
  | .listFriends username => db.listFriends username
  | .listBlockedFriends blocker => db.listBlockedFriends blocker
  | .getGroup groupName => db.getGroup groupName
  | .getGroupRole groupName username => db.getGroupRole groupName username
  | .listGroupMemberUsernames groupName => db.listGroupMemberUsernames groupName
  | .listGroupManagers groupName => db.listGroupManagers groupName
  | .listGroupMembers groupName => db.listGroupMembers groupName
  | .listUserGroups username => db.listUserGroups username
  | .listGroupJoinRequests groupName => db.listGroupJoinRequests groupName
  | .hasGroupJoinRequest groupName username => db.hasGroupJoinRequest groupName username
  | .listManagedGroupRequestCounts username => db.listManagedGroupRequestCounts username
  | .pendingPrivateMessages recipient count => db.pendingPrivateMessages recipient count
  | .pendingGroupMessages recipient count => db.pendingGroupMessages recipient count
  | .recentPublicMessages count => db.recentPublicMessages count
  | .recentPrivateMessages userA userB count => db.recentPrivateMessages userA userB count
  | .recentGroupMessages groupName count => db.recentGroupMessages groupName count
  | .pendingFileTransfers recipient count => db.pendingFileTransfers recipient count
  | .fileTransferForRecipient transferId recipient =>
    db.fileTransferForRecipient transferId recipient

/-- The error with which a reader of messages stops at the first payload that is not parsed. -/
def Database.readError (db : Database) : Query → Option Bytes
  | .pendingPrivateMessages recipient count =>
    if (db.pendingPrivateMessages recipient count).all fun message => message.payload.parses then
      none
    else
      some (utf8 "离线消息解码失败：private message")
  | .pendingGroupMessages recipient count =>
    if (db.pendingGroupMessages recipient count).all fun message => message.payload.parses then
      none
    else
      some (utf8 "离线消息解码失败：group message")
  | .recentPublicMessages count =>
    if (db.recentPublicMessages count).all fun message => message.payload.parses then
      none
    else
      some (utf8 "公共消息解码失败：message payload")
  | .recentPrivateMessages userA userB count =>
    if (db.recentPrivateMessages userA userB count).all fun message => message.payload.parses then
      none
    else
      some (utf8 "私聊消息解码失败：message payload")
  | .recentGroupMessages groupName count =>
    if (db.recentGroupMessages groupName count).all fun message => message.payload.parses then
      none
    else
      some (utf8 "群消息解码失败：message payload")
  | _ => none

def Database.read (db : Database) (query : Query) : Except Bytes query.Answer :=
  match db.readError query with
  | some error => .error error
  | none => .ok (db.answer query)

inductive Update where
  | createUser (username passwordHash : Bytes)
  | deleteUser (username : Bytes)
  | addFriendRequest (requester target : Bytes)
  | acceptFriendRequest (requester target : Bytes)
  | rejectFriendRequest (requester target : Bytes)
  | removeFriendship (left right : Bytes)
  | addFriendBlock (blocker blocked : Bytes)
  | removeFriendBlock (blocker blocked : Bytes)
  | addFriendEvent (event : FriendEventPayload)
  | createGroup (groupName ownerUsername : Bytes)
  | dissolveGroup (groupName ownerUsername : Bytes)
  | addGroupJoinRequest (groupName username : Bytes)
  | approveGroupJoinRequest (groupName username : Bytes)
  | rejectGroupJoinRequest (groupName username : Bytes)
  | setGroupMemberRole (groupName username : Bytes) (role : GroupRole)
  | removeGroupMember (groupName username : Bytes)
  | addMessage (payload : ChatMessagePayload)
  | addPrivateMessageWithDelivery (payload : ChatMessagePayload)
  | addGroupMessage (payload : GroupMessagePayload) (recipients : List Bytes)
  | addFileTransfer (metadata : FileTransferMetadata) (recipients : List Bytes)
  | markPrivateMessageDelivered (messageId : Nat) (recipient : Bytes) (now : Int)
  | markGroupMessageDelivered (messageId : Nat) (recipient : Bytes) (now : Int)
  | markFileTransferDelivered (transferId : Nat) (recipient : Bytes) (now : Int)
  deriving DecidableEq

@[reducible]
def Update.Result : Update → Type
  | .deleteUser _ | .rejectFriendRequest _ _ | .removeFriendship _ _ | .addFriendBlock _ _
  | .removeFriendBlock _ _ | .dissolveGroup _ _ | .rejectGroupJoinRequest _ _
  | .setGroupMemberRole _ _ _ | .removeGroupMember _ _ => Bool
  | .createGroup _ _ | .addMessage _ | .addPrivateMessageWithDelivery _ | .addGroupMessage _ _
  | .addFileTransfer _ _ => Nat
  | .createUser _ _ | .addFriendRequest _ _ | .acceptFriendRequest _ _ | .addFriendEvent _
  | .addGroupJoinRequest _ _ | .approveGroupJoinRequest _ _ | .markPrivateMessageDelivered _ _ _
  | .markGroupMessageDelivered _ _ _ | .markFileTransferDelivered _ _ _ => Unit

def Database.apply (db : Database) : (update : Update) → Except Failure (update.Result × Database)
  | .createUser username passwordHash => db.createUser username passwordHash
  | .deleteUser username => db.deleteUser username
  | .addFriendRequest requester target => db.addFriendRequest requester target
  | .acceptFriendRequest requester target => db.acceptFriendRequest requester target
  | .rejectFriendRequest requester target => db.rejectFriendRequest requester target
  | .removeFriendship left right => db.removeFriendship left right
  | .addFriendBlock blocker blocked => db.addFriendBlock blocker blocked
  | .removeFriendBlock blocker blocked => db.removeFriendBlock blocker blocked
  | .addFriendEvent event => db.addFriendEvent event
  | .createGroup groupName ownerUsername => db.createGroup groupName ownerUsername
  | .dissolveGroup groupName ownerUsername => db.dissolveGroup groupName ownerUsername
  | .addGroupJoinRequest groupName username => db.addGroupJoinRequest groupName username
  | .approveGroupJoinRequest groupName username => db.approveGroupJoinRequest groupName username
  | .rejectGroupJoinRequest groupName username => db.rejectGroupJoinRequest groupName username
  | .setGroupMemberRole groupName username role => db.setGroupMemberRole groupName username role
  | .removeGroupMember groupName username => db.removeGroupMember groupName username
  | .addMessage payload => db.addMessage payload
  | .addPrivateMessageWithDelivery payload => db.addPrivateMessageWithDelivery payload
  | .addGroupMessage payload recipients => db.addGroupMessage payload recipients
  | .addFileTransfer metadata recipients => db.addFileTransfer metadata recipients
  | .markPrivateMessageDelivered messageId recipient now =>
    db.markPrivateMessageDelivered messageId recipient now
  | .markGroupMessageDelivered messageId recipient now =>
    db.markGroupMessageDelivered messageId recipient now
  | .markFileTransferDelivered transferId recipient now =>
    db.markFileTransferDelivered transferId recipient now

end ChatRoom
