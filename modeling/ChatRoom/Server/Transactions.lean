import ChatRoom.Database
import ChatRoom.Lib.SqlConnection

/-!
# The transactions of `MySqlDatabase`

Seven calls of `MySqlDatabase` take several statements. Each of them switches autocommit off,
executes its statements one by one and commits; every failure on the way leads to `rollback`. Here
they are modelled call by call, with an outcome for each call to MySQL, while `Database` takes each of them
as one step.
-/

namespace ChatRoom

namespace MySql

open Sql

/-! ### Statements -/

structure StatementResult where
  insertId : Nat := 0
  affected : Nat := 1
  deriving DecidableEq, Repr

inductive Statement where
  | deleteFriendRequest (requester target : Bytes)
  | insertFriendship (pair : Bytes × Bytes)
  | deleteFriendship (pair : Bytes × Bytes)
  | deleteFriendBlocks (left right : Bytes)
  | insertMessage (payload : ChatMessagePayload)
  | insertPrivateDelivery (messageId : Nat) (recipient : Bytes)
  | insertGroup (groupName ownerUsername : Bytes)
  | insertGroupMember (groupId : Nat) (username : Bytes) (role : GroupRole)
  | deleteGroupJoinRequest (groupId : Nat) (username : Bytes)
  | insertGroupMessage (payload : GroupMessagePayload)
  | insertGroupDelivery (messageId : Nat) (recipient : Bytes)
  | insertFileTransfer (metadata : FileTransferMetadata)
  | insertFileDelivery (transferId : Nat) (recipient : Bytes)
  deriving DecidableEq, Repr

def affectedBy {α : Type} [DecidableEq α] (rows : List α) (key : α) : StatementResult :=
  { affected := if key ∈ rows then 1 else 0 }

def inserted (refused : Bool) (insertId : Nat) (db : Database) :
    Option (Database × StatementResult) :=
  if refused then none else some (db, { insertId })

def Statement.apply (db : Database) : Statement → Option (Database × StatementResult)
  | .deleteFriendRequest requester target =>
    some ({ db with friendRequests := db.friendRequests.filter fun row => row ≠ (requester, target) },
      affectedBy db.friendRequests (requester, target))
  | .insertFriendship pair =>
    inserted (db.friendships.contains pair || !db.userExists pair.1 || !db.userExists pair.2 ||
      !decide (pair.1 < pair.2)) 0 { db with friendships := db.friendships ++ [pair] }
  | .deleteFriendship pair =>
    some ({ db with friendships := db.friendships.filter fun row => row ≠ pair },
      affectedBy db.friendships pair)
  | .deleteFriendBlocks left right =>
    some ({ db with friendBlocks := db.friendBlocks.filter fun row =>
        row ≠ (left, right) ∧ row ≠ (right, left) },
      { affected := db.friendBlocks.countP fun row => row = (left, right) || row = (right, left) })
  | .insertMessage payload =>
    inserted (!db.userExists payload.senderUsername ||
        match payload.type with
        | .publicMessage => !payload.recipientUsername.isEmpty
        | .privateMessage => payload.recipientUsername.isEmpty ||
            !db.userExists payload.recipientUsername) db.nextMessageId
      { db with
        messages := db.messages ++ [⟨db.nextMessageId, payload⟩]
        nextMessageId := db.nextMessageId + 1 }
  | .insertPrivateDelivery messageId recipient =>
    inserted ((db.privateDeliveries.any fun row => row.item = messageId) ||
        !(db.messages.any fun message => message.id = messageId) || !db.userExists recipient) 0
      { db with privateDeliveries := db.privateDeliveries ++ [⟨messageId, recipient, none⟩] }
  | .insertGroup groupName ownerUsername =>
    inserted ((db.getGroup groupName).isSome || !db.userExists ownerUsername) db.nextGroupId
      { db with
        groups := db.groups ++ [⟨db.nextGroupId, groupName, ownerUsername⟩]
        nextGroupId := db.nextGroupId + 1 }
  | .insertGroupMember groupId username role =>
    inserted ((db.members.any fun row => row.groupId = groupId && row.username = username) ||
        !(db.groups.any fun group => group.id = groupId) || !db.userExists username) 0
      { db with members := db.members ++ [⟨groupId, username, role⟩] }
  | .deleteGroupJoinRequest groupId username =>
    some ({ db with joinRequests := db.joinRequests.filter fun row => row ≠ (groupId, username) },
      affectedBy db.joinRequests (groupId, username))
  | .insertGroupMessage payload =>
    inserted (!(db.groups.any fun group => group.id = payload.groupId) ||
        !db.userExists payload.senderUsername) db.nextGroupMessageId
      { db with
        groupMessages := db.groupMessages ++ [⟨db.nextGroupMessageId, payload⟩]
        nextGroupMessageId := db.nextGroupMessageId + 1 }
  | .insertGroupDelivery messageId recipient =>
    inserted ((db.groupDeliveries.any fun row =>
          row.item = messageId && row.recipientUsername = recipient) ||
        !(db.groupMessages.any fun message => message.id = messageId) || !db.userExists recipient) 0
      { db with groupDeliveries := db.groupDeliveries ++ [⟨messageId, recipient, none⟩] }
  | .insertFileTransfer metadata =>
    inserted ((db.fileTransfers.any fun row =>
          row.metadata.transferToken = metadata.transferToken) ||
        !db.userExists metadata.senderUsername ||
        (!metadata.recipientUsername.isEmpty && !db.userExists metadata.recipientUsername) ||
        (metadata.groupId ≠ 0 && !db.groups.any fun group => group.id = metadata.groupId)) db.nextTransferId
      { db with
        fileTransfers := db.fileTransfers ++ [⟨db.nextTransferId, metadata⟩]
        nextTransferId := db.nextTransferId + 1 }
  | .insertFileDelivery transferId recipient =>
    inserted ((db.fileDeliveries.any fun row =>
          row.item = transferId && row.recipientUsername = recipient) ||
        !(db.fileTransfers.any fun transfer => transfer.id = transferId) || !db.userExists recipient) 0
      { db with fileDeliveries := db.fileDeliveries ++ [⟨transferId, recipient, none⟩] }

/-! ### The calls to MySQL -/

/-- Which of the calls of one operation succeed; an operation makes each of these calls at most
once. -/
structure Outcomes where
  /-- `MySqlConnectionPool::acquire`. -/
  lease : Bool := true
  /-- `SerializeToString` of the payload. -/
  serialize : Bool := true
  /-- The query of `group_id_by_name`. -/
  query : Bool := true
  /-- `mysql_autocommit(connection, 0)` in `begin`. -/
  switchOff : Bool := true
  statement : Nat → Bool := fun _ => true
  /-- A statement that fails takes the whole transaction back with it, as a deadlock does. -/
  undoes : Bool := false
  commit : CommitOutcome := .done
  /-- `mysql_autocommit(connection, 1)` in `commit`. -/
  switchOn : Bool := true
  rollback : Bool := true
  /-- `mysql_autocommit(connection, 1)` in `rollback`. -/
  switchBack : Bool := true
  errorText : Bytes := []

structure Session where
  connection : Connection Database
  executed : Nat := 0
  /-- A call that should have cleaned the connection up has failed. -/
  uncleaned : Bool := false

variable (o : Outcomes)

def switchOn (succeeds : Bool) (s : Session) : Session :=
  if succeeds then { s with connection := s.connection.setAutocommit true }
  else { s with uncleaned := true }

def begin (s : Session) : Bool × Session :=
  if o.switchOff then (true, { s with connection := s.connection.setAutocommit false })
  else (false, s)

def commit (s : Session) : Bool × Session :=
  match o.commit with
  | .done => (o.switchOn, switchOn o.switchOn { s with connection := s.connection.commit })
  | .undone => (false, switchOn o.switchOn { s with connection := s.connection.rollback })
  | .stillOpen => (false, switchOn o.switchOn s)

def rollback (s : Session) : Session :=
  switchOn o.switchBack <|
    if o.rollback then { s with connection := s.connection.rollback }
    else { s with uncleaned := true }

def executePrepared (statement : Statement) (s : Session) : Option StatementResult × Session :=
  let failed : Session :=
    { s with
      connection := if o.undoes then s.connection.rollback else s.connection
      executed := s.executed + 1 }
  if !o.statement s.executed then
    (none, failed)
  else
    match statement.apply s.connection.view with
    | none => (none, failed)
    | some (db, result) =>
      (some result, { s with connection := s.connection.write db, executed := s.executed + 1 })

/-! ### The operations -/

/-- What an operation does after `begin`: it executes statements, each one chosen after the results
of those before it, and ends with `commit` or, when it gives up by itself, with `rollback`. A
statement that fails also leads to `rollback`; the error is then the text of MySQL or, if that is
empty, a text of the operation. -/
inductive Plan (α : Type) where
  | finish (value : α)
  | abort (error : Bytes)
  | execute (statement : Statement) (unexplained : Bytes) (next : StatementResult → Plan α)

def Plan.run {α : Type} : Plan α → Session → Except Bytes α × Session
  | .finish value, s =>
    match commit o s with
    | (true, s') => (.ok value, s')
    | (false, s') => (.error o.errorText, rollback o s')
  | .abort error, s => (.error error, rollback o s)
  | .execute statement unexplained next, s =>
    match executePrepared o statement s with
    | (none, s') =>
      (.error (if o.errorText.isEmpty then unexplained else o.errorText), rollback o s')
    | (some result, s') => (next result).run s'

/-- The common frame of the operations, around a plan that is prepared before the transaction. -/
def transaction {α : Type} (plan : Except Bytes (Plan α)) (s : Session) :
    Except Bytes α × Session :=
  if !o.lease then
    (.error o.errorText, s)
  else
    match plan with
    | .error error => (.error error, s)
    | .ok plan =>
      match begin o s with
      | (false, s') => (.error o.errorText, s')
      | (true, s') => plan.run o s'

def acceptFriendRequest (requester target : Bytes) : Plan Unit :=
  .execute (.deleteFriendRequest requester target) (utf8 "好友申请不存在") fun result =>
    if result.affected ≠ 1 then
      .abort (utf8 "好友申请不存在")
    else
      .execute (.insertFriendship (normalizePair requester target)) [] fun _ => .finish ()

def removeFriendship (left right : Bytes) : Plan Bool :=
  .execute (.deleteFriendship (normalizePair left right)) [] fun result =>
    if result.affected ≠ 1 then
      .finish false
    else
      .execute (.deleteFriendBlocks left right) [] fun _ => .finish true

def addPrivateMessageWithDelivery (payload : ChatMessagePayload) : Except Bytes (Plan Nat) :=
  if payload.type ≠ .privateMessage || payload.recipientUsername.isEmpty then
    .error (utf8 "私聊投递要求：a private message recipient")
  else
    .ok <|
      if !o.serialize then
        .abort (utf8 "Protobuf 序列化失败：ChatMessagePayload")
      else
        .execute (.insertMessage payload) [] fun message =>
          .execute (.insertPrivateDelivery message.insertId payload.recipientUsername) [] fun _ =>
            .finish message.insertId

def createGroup (groupName ownerUsername : Bytes) : Plan Nat :=
  .execute (.insertGroup groupName ownerUsername) [] fun group =>
    .execute (.insertGroupMember group.insertId ownerUsername .owner) [] fun _ =>
      .finish group.insertId

/-- The group is looked up before the transaction begins. -/
def approveGroupJoinRequest (db : Database) (groupName username : Bytes) :
    Except Bytes (Plan Unit) :=
  if !o.query then
    .error o.errorText
  else
    match db.groupIdByName groupName with
    | none => .error (utf8 "群不存在")
    | some groupId =>
      .ok <| .execute (.deleteGroupJoinRequest groupId username) (utf8 "入群申请不存在") fun result =>
        if result.affected ≠ 1 then
          .abort (utf8 "入群申请不存在")
        else
          .execute (.insertGroupMember groupId username .member) [] fun _ => .finish ()

def insertDeliveries (insertDelivery : Bytes → Statement) (id : Nat) : List Bytes → Plan Nat
  | [] => .finish id
  | recipient :: recipients =>
    .execute (insertDelivery recipient) [] fun _ => insertDeliveries insertDelivery id recipients

def addGroupMessage (payload : GroupMessagePayload) (recipients : List Bytes) : Plan Nat :=
  if !o.serialize then
    .abort (utf8 "Protobuf 序列化失败：GroupMessagePayload")
  else
    .execute (.insertGroupMessage payload) [] fun message =>
      insertDeliveries (.insertGroupDelivery message.insertId) message.insertId recipients

def addFileTransfer (metadata : FileTransferMetadata) (recipients : List Bytes) :
    Except Bytes (Plan Nat) :=
  if recipients.isEmpty then
    .error (utf8 "文件传输要求：at least one recipient")
  else if !o.serialize then
    .error (utf8 "Protobuf 序列化失败：FileTransferMetadata")
  else
    .ok <| .execute (.insertFileTransfer metadata) [] fun transfer =>
      insertDeliveries (.insertFileDelivery transfer.insertId) transfer.insertId recipients

inductive Operation where
  | acceptFriendRequest (requester target : Bytes)
  | removeFriendship (left right : Bytes)
  | addPrivateMessageWithDelivery (payload : ChatMessagePayload)
  | createGroup (groupName ownerUsername : Bytes)
  | approveGroupJoinRequest (groupName username : Bytes)
  | addGroupMessage (payload : GroupMessagePayload) (recipients : List Bytes)
  | addFileTransfer (metadata : FileTransferMetadata) (recipients : List Bytes)
  deriving DecidableEq, Repr

/-- The operation taken as one step on the tables. -/
def Operation.update : Operation → Update
  | .acceptFriendRequest requester target => .acceptFriendRequest requester target
  | .removeFriendship left right => .removeFriendship left right
  | .addPrivateMessageWithDelivery payload => .addPrivateMessageWithDelivery payload
  | .createGroup groupName ownerUsername => .createGroup groupName ownerUsername
  | .approveGroupJoinRequest groupName username => .approveGroupJoinRequest groupName username
  | .addGroupMessage payload recipients => .addGroupMessage payload recipients
  | .addFileTransfer metadata recipients => .addFileTransfer metadata recipients

def Operation.plan (db : Database) : (op : Operation) → Except Bytes (Plan op.update.Result)
  | .acceptFriendRequest requester target => .ok (MySql.acceptFriendRequest requester target)
  | .removeFriendship left right => .ok (MySql.removeFriendship left right)
  | .addPrivateMessageWithDelivery payload => MySql.addPrivateMessageWithDelivery o payload
  | .createGroup groupName ownerUsername => .ok (MySql.createGroup groupName ownerUsername)
  | .approveGroupJoinRequest groupName username =>
    MySql.approveGroupJoinRequest o db groupName username
  | .addGroupMessage payload recipients => .ok (MySql.addGroupMessage o payload recipients)
  | .addFileTransfer metadata recipients => MySql.addFileTransfer o metadata recipients

/-- An operation on a connection from the pool, with what it reports and what it leaves behind. -/
def Operation.run (op : Operation) (db : Database) : Except Bytes op.update.Result × Session :=
  transaction o (op.plan o db) { connection := { committed := db } }

end MySql

end ChatRoom
