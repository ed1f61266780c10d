import ChatRoom.Lib.Typestate
import ChatRoom.Proof.Policy
import ChatRoom.Proof.View

/-!
# The discipline of the handlers

`Progress` records what a handler has done so far: the mutexes it holds, the committed changes it
has not published yet, the facts its queries reported and the counter values it loaded.
-/

namespace ChatRoom

open Interleaving

namespace Request

variable {username : Bytes}

def enteredTarget : Request → Option Bytes
  | .enterPrivate arguments =>
    match splitWords arguments with
    | [target] => some target
    | _ => none
  | _ => none

def enteredGroup : Request → Option Bytes
  | .enterGroup arguments =>
    match splitWords arguments with
    | [groupName] => some groupName
    | _ => none
  | _ => none

def delivers : Request → Bool
  | .privateMessage _ | .groupMessage _ => true
  | _ => false

def fromClient : Request → Bool
  | .persistDelivery _ _ _ _ => false
  | _ => true

def registers : Request → Bool
  | .register _ => true
  | _ => false

def logsIn : Request → Bool
  | .login _ => true
  | _ => false

def messageTarget : Request → Option Bytes
  | .privateMessage arguments => (splitFirstToken arguments).map Prod.fst
  | _ => none

end Request

def Task.endedUpload (task : Task) : Option IncomingFileUpload :=
  match task.request with
  | .fileEnd _ => task.session.upload
  | _ => none

def Task.ActsFor (task : Task) (username : Bytes) : Prop :=
  task.session.loggedIn = true ∧ task.session.username = username

def Task.Runs (task : Task) (command : Bytes → Request) : Prop :=
  ∃ arguments, task.request = command arguments

def Task.deletesAccount (task : Task) : Bool :=
  match task.request with
  | .deleteAccount _ => true
  | _ => false

/-- The session of the task has a user, or an upload that is to be ended. -/
def Task.Signed (task : Task) : Prop :=
  task.session.loggedIn = true ∨ task.session.upload.isSome = true ∨
    task.session.binaryUpload.isSome = true

def Task.leaves (task : Task) : Bool :=
  match task.request with
  | .logout | .deleteAccount _ => true
  | _ => false

/-- The updates that neither change the social graph or a group nor delete an account. -/
@[simp, grind]
def Update.routine : Update → Bool
  | .createUser _ _ | .addFriendEvent _ | .addMessage _ | .addPrivateMessageWithDelivery _
  | .addGroupMessage _ _ | .addFileTransfer _ _ | .markPrivateMessageDelivered _ _ _
  | .markGroupMessageDelivered _ _ _ | .markFileTransferDelivered _ _ _ => true
  | _ => false

def Task.GaveItsPassword (crypto : Crypto) (db : Database) (task : Task) : Prop :=
  ∃ arguments password confirmation encoded, task.request = .deleteAccount arguments ∧
    splitWords arguments = [password, confirmation] ∧
    db.getPasswordHash task.session.username = some encoded ∧
    crypto.verifyPassword password encoded = true

def Entitled (crypto : Crypto) (db : Database) (task : Task) : Update → Prop
  | .deleteUser username => task.ActsFor username ∧ task.GaveItsPassword crypto db
  | .addFriendRequest requester target =>
    task.Runs .addFriend ∧ task.ActsFor requester ∧ db.areFriends requester target = false ∧
      db.hasFriendRequest target requester = false
  | .acceptFriendRequest _ target => task.Runs .acceptFriend ∧ task.ActsFor target
  | .rejectFriendRequest _ target => task.Runs .rejectFriend ∧ task.ActsFor target
  | .removeFriendship left _ => task.Runs .removeFriend ∧ task.ActsFor left
  | .addFriendBlock blocker blocked =>
    task.Runs .blockFriend ∧ task.ActsFor blocker ∧ db.areFriends blocker blocked = true
  | .removeFriendBlock blocker _ => task.Runs .unblockFriend ∧ task.ActsFor blocker
  | .createGroup _ owner => task.Runs .createGroup ∧ task.ActsFor owner
  | .dissolveGroup groupName owner =>
    task.Runs .dissolveGroup ∧ task.ActsFor owner ∧
      db.getGroupRole groupName owner = some .owner
  | .addGroupJoinRequest groupName username =>
    task.Runs .applyGroup ∧ task.ActsFor username ∧ db.getGroupRole groupName username = none
  | .approveGroupJoinRequest groupName _ =>
    task.Runs .approveGroup ∧ ∃ manager role, task.ActsFor manager ∧
      db.getGroupRole groupName manager = some role ∧ isGroupManager role = true
  | .rejectGroupJoinRequest groupName _ =>
    task.Runs .rejectGroup ∧ ∃ manager role, task.ActsFor manager ∧
      db.getGroupRole groupName manager = some role ∧ isGroupManager role = true
  | .setGroupMemberRole groupName target role =>
    ∃ owner, task.ActsFor owner ∧ db.getGroupRole groupName owner = some .owner ∧
      (task.Runs .addGroupAdmin ∧ role = .admin ∧
          db.getGroupRole groupName target = some .member ∨
        task.Runs .removeGroupAdmin ∧ role = .member ∧
          db.getGroupRole groupName target = some .admin)
  | .removeGroupMember groupName target =>
    ∃ role, db.getGroupRole groupName target = some role ∧ role ≠ .owner ∧
      (task.Runs .leaveGroup ∧ task.ActsFor target ∨
        task.Runs .removeGroupMember ∧ ∃ manager managerRole, task.ActsFor manager ∧
          db.getGroupRole groupName manager = some managerRole ∧
          (managerRole = .owner ∨ managerRole = .admin ∧ role = .member))
  | _ => True

structure Aside where
  stored : Option Bytes := none
  begun : Option FileUploadResumeState := none
  noUpload : Bool := false
  noBinary : Bool := false
  offered : List Nat := []
  inProgress : Option (List Nat) := none
  found : List (Bytes × ConnId) := []
  joined : Option Bytes := none
  claimed : Option Bytes := none
  down : Bool := false
  registered : Bool := true

structure Progress extends Aside where
  crypto : Crypto
  task : Task
  core : ClientSession
  friend : Bool := false
  group : Bool := false
  owedDirect : Option Update := none
  owedGroup : Option Update := none
  staleDirect : Bool := false
  staleGroup : Bool := false
  known : List Fact := []
  guarded : List Fact := []
  fresh : List Fact := []
  seenDirect : Option Nat := none
  guardedDirect : Option Nat := none
  seenGroup : Option Nat := none
  deleted : Bool := false

@[simp]
def Assign.renames : Assign → Bool
  | .login _ | .logout | .accountDeleted => true
  | _ => false

@[simp]
def Assign.noBinary (before : Bool) : Assign → Bool
  | .detachUpload | .dropBinaryUpload | .frameStored _ => true
  | .binaryUpload _ => false
  | _ => before

@[simp]
def Update.records : Update → Bool
  | .addFileTransfer _ _ => true
  | _ => false

@[simp]
def Update.deletesUser : (u : Update) → u.Result → Bool
  | .deleteUser _, removed => removed
  | _, _ => false

namespace Progress

def Permitted (facts : List Fact) (sender recipient : Bytes) : Prop :=
  ∀ fact ∈ permitFacts sender recipient, fact ∈ facts

def GroupKnown (facts : List Fact) (name : Bytes) (id : Nat) (recipients : List Bytes)
    (username : Bytes) : Prop :=
  ∃ info members, .group name info ∈ facts ∧ info.id = id ∧ .member name username ∈ facts ∧
    .members name members ∈ facts ∧ recipients = members.filter fun member => member ≠ username

variable (st : Progress)

def UploadPermitted (upload : IncomingFileUpload) (recipients : List Bytes) : Prop :=
  match upload.scope with
  | .privateFile => Permitted st.known st.task.session.username upload.target
  | .groupFile => .member upload.target st.task.session.username ∈ st.known ∧
      ∀ recipient ∈ recipients, .member upload.target recipient ∈ st.known

def MayRecord (metadata : FileTransferMetadata) (recipients : List Bytes) : Prop :=
  ∃ upload path, st.task.endedUpload = some upload ∧ st.stored = some path ∧
    metadata = { upload.resumeState.metadata with storedRelativePath := path } ∧
    st.UploadPermitted upload recipients

def MayStoreMessage (payload : ChatMessagePayload) : Prop :=
  st.friend = true ∧ payload.senderUsername = st.core.username ∧
    (Permitted st.guarded st.core.username payload.recipientUsername ∨
      (st.task.request.messageTarget = some payload.recipientUsername ∧
        st.core.realtimePrivateTarget = payload.recipientUsername ∧
        st.guardedDirect = some st.core.realtimePrivateGeneration))

def Sends (sender : Bytes) : Prop := st.core.loggedIn = true ∧ sender = st.core.username

/-- The answers since the last update entitle the task to an update that is not routine. -/
def Entitles (u : Update) : Prop :=
  u.routine = true ∨ ∀ db, (∀ fact ∈ st.known, fact.Found db) → Entitled st.crypto db st.task u

/-- Users are added by `REGISTER`, and the background thread marks deliveries; whatever else changes
the tables needs a login. -/
def Performs (u : Update) : Prop :=
  st.Entitles u ∧
    (st.task.Signed ∨ st.task.request.registers = true ∨ st.task.request.fromClient = false)

theorem performs_routine {st : Progress} {u : Update} (hsigned : st.task.Signed)
    (hroutine : u.routine = true) : st.Performs u := ⟨.inl hroutine, .inl hsigned⟩

def MayUpdate (update : Update) : Prop :=
  (update.changes .direct = true → st.friend = true ∧ st.owedDirect = none) ∧
    (update.changes .group = true → st.group = true ∧ st.owedGroup = none) ∧
    match update with
    | .createUser username _ => isValidUsername username = true
    | .addMessage payload => st.Sends payload.senderUsername ∧ payload.recipientUsername = []
    | .addPrivateMessageWithDelivery payload =>
      st.MayStoreMessage payload ∧ st.Sends payload.senderUsername ∧
        isValidUsername payload.recipientUsername = true
    | .addGroupMessage payload _ =>
      st.Sends payload.senderUsername ∧ isValidGroupName payload.groupName = true
    | .addFileTransfer metadata recipients => st.MayRecord metadata recipients
    | .deleteUser _ => st.task.deletesAccount = true ∧ st.task.call = none
    | .removeFriendBlock blocker _ => st.task.Runs .unblockFriend ∧ st.task.ActsFor blocker
    | _ => True

def PairKnown (target : Bytes) : Prop :=
  (st.friend = true ∧ Permitted st.guarded st.core.username target) ∨
    (st.task.request.enteredTarget = some target ∧ st.core.username = st.task.session.username ∧
      Permitted st.known st.task.session.username target)

def GroupEntered (name : Bytes) (id : Nat) (recipients : List Bytes) : Prop :=
  st.task.request.enteredGroup = some name ∧
    GroupKnown st.known name id recipients st.core.username

def MayAssign : Assign → Prop
  | .login username =>
    st.core.loggedIn = false ∧ st.task.call = none ∧ .userExists username ∈ st.known ∧
      st.joined = some username ∧ st.claimed = some username ∧ st.task.Runs .login
  | .logout =>
    st.noUpload = true ∧ st.task.call = none ∧ st.noBinary = true ∧ st.registered = false
  | .accountDeleted =>
    st.staleDirect = true ∧ st.staleGroup = true ∧ st.noUpload = true ∧ st.task.call = none ∧
      st.deleted = true ∧ st.noBinary = true ∧ st.registered = false
  | .privateTarget target => st.PairKnown target
  | .privateGeneration generation | .enteredPrivate generation =>
    st.core.loggedIn = true ∧ st.seenDirect = some generation ∧
      st.PairKnown st.core.realtimePrivateTarget
  | .privateCache target generation =>
    st.core.loggedIn = true ∧ st.seenDirect = some generation ∧ st.PairKnown target
  | .groupEntry name id recipients => st.GroupEntered name id recipients
  | .enteredGroup generation =>
    st.core.loggedIn = true ∧ st.seenGroup = some generation ∧
      st.GroupEntered st.core.realtimeGroupName st.core.realtimeGroupId
        st.core.realtimeGroupRecipients
  | .groupCache name id recipients generation =>
    st.core.loggedIn = true ∧ st.seenGroup = some generation ∧
      GroupKnown st.fresh name id recipients st.core.username
  | .upload upload => st.begun = some upload.resumeState
  | .binaryUpload frame =>
    0 < frame.remainingBytes ∧ (st.core.loggedIn = true ∨
      st.task.session.binaryUpload.isSome = true ∧ st.core.loggedIn = st.task.session.loggedIn)
  | .offer transfer =>
    st.core.loggedIn = true ∧
      (.recorded transfer.id st.core.username ∈ st.known ∨
        st.task.call = some (.deliverFileToUser transfer st.core.username))
  | _ => True

def MayDeliver (transferId : Nat) : Prop :=
  transferId ∈ st.offered ∧ st.deleted = false ∧
    ∃ ids, st.inProgress = some ids ∧ transferId ∉ ids

def HasRead (content : Bytes) : Prop :=
  (∃ message, .message message ∈ st.known ∧ message.payload.content = content) ∨
    ∃ message, .groupMessage message ∈ st.known ∧ message.payload.content = content

def Carries (text : WireText) (mark : DeliveryPersistTask) : Prop :=
  match mark.kind with
  | .privateMessage => ∃ message, .message message ∈ st.known ∧ message.id = mark.messageId ∧
      (text = message.liveLine ∨ text = message.offlineLine)
  | .groupMessage => ∃ message, .groupMessage message ∈ st.known ∧ message.id = mark.messageId ∧
      (text = message.liveLine ∨ text = message.offlineLine)

def Reaches (target : ConnId) (username : Bytes) : Prop :=
  (username, target) ∈ st.found ∨
    target = st.task.conn ∧ st.core.loggedIn = true ∧ st.core.username = username ∧
      st.registered = true ∧ st.down = false

/-- A message is marked as delivered only for a line of it on a connection of the recipient, and
contents of messages are written as they are only if they have been read from the tables. -/
def MaySend (target : ConnId) (text : WireText) (completion : Option DeliveryPersistTask) : Prop :=
  (∀ content ∈ text.contents, newline ∉ content ∨ st.HasRead content) ∧
    ∀ mark, completion = some mark → st.Carries text mark ∧ st.Reaches target mark.recipient ∧
      (st.task.Signed ∨ st.task.request.logsIn = true)

/-- The registry can have the connection under no other name. -/
def Enters (username : Bytes) : Prop :=
  st.joined = some username ∧ st.core.loggedIn = false ∨
    st.joined = none ∧ st.core.username = username

def MayCall : RedisCall → Prop
  | .removePresenceIfOwned _ => st.joined = none ∧ (st.registered = false ∨ st.down = true)
  | _ => True

def Allowed : Act → Prop
  | .send target text completion => st.MaySend target text completion
  | .setPhase phase =>
    phase ≠ .fresh ∧ (phase = .connected → st.task.request = .connect ∧ st.down = false)
  | .redis call => st.MayCall call
  | .addOnline _ => st.joined = none
  | .removeOnline username =>
    (st.core.loggedIn = false ∨ st.down = true ∨ st.task.leaves = true) ∧ st.Enters username
  | .update u => st.MayUpdate u ∧ st.Performs u
  | .lock .friend | .advancePump _ => st.friend = false ∧ st.group = false
  | .lock .group => st.group = false
  | .unlock .friend => st.friend = true
  | .unlock .group => st.group = true
  | .assign a => st.MayAssign a
  | .beginOrResumeUpload requested =>
    st.core.loggedIn = true ∧ requested.metadata.senderUsername = st.core.username ∧ st.task.Signed
  | .appendUploadBytes _ _ _ | .cancelUpload _ => st.task.Signed
  | .finalizeUpload upload => st.task.endedUpload = some upload ∧ st.stored = none
  | .removeStored path => st.stored = some path ∧ st.task.Signed
  | .deliverAsync transfer _ => st.MayDeliver transfer.id
  | .queueInLoop _ (.deliverFileToUser transfer recipient) =>
    .recorded transfer.id recipient ∈ st.known ∧ st.task.endedUpload.isSome = true
  | .finish => False
  | _ => True

/-- What is learned is forgotten as soon as the handler itself changes the tables. -/
def forget : Progress :=
  { st with known := [], guarded := [], fresh := [], guardedDirect := none, offered := [] }

def commit (update : Update) (result : update.Result) : Progress :=
  { st.forget with
    known := update.facts result
    stored := if update.records then none else st.stored
    deleted := st.deleted || update.deletesUser result
    owedDirect := if update.published .direct result then some update else st.owedDirect
    owedGroup := if update.published .group result then some update else st.owedGroup }

def learn (facts : List Fact) : Progress :=
  { st with
    known := facts ++ st.known
    guarded := if st.friend then facts ++ st.guarded else st.guarded
    fresh := facts ++ st.fresh }

def saw (session : ClientSession) : Progress :=
  { st with
    offered := session.offeredFiles.map StoredFileTransfer.id ++ st.offered
    inProgress := some session.fileDeliveriesInProgress
    noUpload := session.upload.isNone
    noBinary := session.binaryUpload.isNone }

def met (username : Bytes) (target : ConnId) : Progress :=
  if st.task.request.delivers then { st with found := (username, target) :: st.found } else st

def started : Progress := { st with inProgress := none }

def called : RedisCall → RedisReply → Progress
  | .claimPresence username, .flag true | .refreshPresenceIfOwned username, .flag true =>
    { st with claimed := some username }
  | _, _ => st

theorem called_eq (call : RedisCall) (reply : RedisReply) :
    ∃ claimed, st.called call reply = { st with claimed } := by
  unfold called
  split <;> exact ⟨_, rfl⟩

@[simp]
theorem called_unreadCounts {reply : RedisReply} :
    st.called (.unreadCounts username) reply = st := by
  cases reply <;> rfl

@[simp]
theorem called_clearUnread {reply : RedisReply} :
    st.called (.clearUnread username) reply = st := by
  cases reply <;> rfl

def afterAssign (a : Assign) : Progress :=
  { st with
    core := (st.core.assign a).core
    known := if a.renames then [] else st.known
    offered := if a.renames then [] else st.offered
    begun := if a.renames then none else st.begun
    registered := a.renames || st.registered
    joined :=
      match a with
      | .login _ => none
      | _ => st.joined
    guardedDirect := none
    noUpload :=
      match a with
      | .detachUpload | .takeUpload => true
      | .upload _ => false
      | _ => st.noUpload
    noBinary := a.noBinary st.noBinary
    deleted :=
      match a with
      | .accountDeleted => false
      | _ => st.deleted
    staleDirect :=
      match a with
      | .privateGeneration _ | .privateCache _ _ | .enteredPrivate _ => false
      | _ => st.staleDirect
    staleGroup :=
      match a with
      | .enteredGroup _ | .groupCache _ _ _ _ => false
      | _ => st.staleGroup }

def after : (action : Act) → action.Result → Progress
  | .query q, .ok answer => st.learn (q.facts answer)
  | .update _, .error _ => st.forget
  | .update u, .ok result => st.commit u result
  | .lock .friend, _ => { st with friend := true, guarded := [], guardedDirect := none }
  | .lock .group, _ => { st with group := true }
  | .unlock .friend, _ => { st with friend := false, guarded := [], guardedDirect := none }
  | .unlock .group, _ => { st with group := false }
  | .loadGeneration .direct, generation =>
    { st with
      seenDirect := some generation
      guardedDirect := if st.friend then some generation else none }
  | .loadGeneration .group, generation => { st with seenGroup := some generation, fresh := [] }
  | .bumpGeneration .direct, _ =>
    { st with owedDirect := none, staleDirect := true, guardedDirect := none }
  | .bumpGeneration .group, _ => { st with owedGroup := none, staleGroup := true }
  | .session, session => st.saw session
  | .assign a, _ => st.afterAssign a
  | .beginOrResumeUpload _, .ok (persisted, _) => { st with begun := some persisted }
  | .finalizeUpload _, .ok path => { st with stored := some path }
  | .removeStored _, _ => { st with stored := none }
  | .deliverAsync _ _, _ => st.started
  | .findOnline username, some target => st.met username target
  | .redis call, reply => st.called call reply
  | .addOnline username, true => { st with joined := some username, claimed := none }
  | .removeOnline _, _ =>
    { st with joined := none, registered := !st.core.loggedIn || st.down }
  | .setPhase phase, _ => { st with down := st.down || decide (phase ≠ .connected) }
  | _, _ => st

@[mk_iff]
structure Free : Prop where
  friend : st.friend = false
  group : st.group = false
  owedDirect : st.owedDirect = none
  owedGroup : st.owedGroup = none
  deleted : st.deleted = false
  registered : st.registered = true
  joined : st.joined = none

section Texts

variable {st} {target : ConnId} {completion : Option DeliveryPersistTask}

theorem maySend_codedLine {start content : Bytes}
    (hmark : ∀ mark, completion = some mark →
      st.Carries (codedLine start content) mark ∧ st.Reaches target mark.recipient ∧
        (st.task.Signed ∨ st.task.request.logsIn = true)) :
    st.MaySend target (codedLine start content) completion := by
  refine ⟨fun text htext => .inl ?_, hmark⟩
  obtain rfl : text = percentEncode content := by simpa [codedLine] using htext
  exact newline_notMem_percentEncode

theorem contents_rawLine {start content : Bytes} : (rawLine start content).contents = [content] := rfl

theorem contents_historyText {α : Type} {heading : Bytes} {line : α → WireText} {content : α → Bytes}
    (hline : ∀ message, (line message).contents = [content message]) (messages : List α) :
    (historyText heading line messages).contents = messages.map content := by
  have hfold : ∀ (rest : List α) (text : WireText),
      (rest.foldl (fun text message => text ++ line message) text).contents =
        text.contents ++ rest.map content := by
    intro rest
    induction rest with
    | nil => simp
    | cons message rest ih =>
      intro text
      rw [List.foldl_cons, ih, WireText.contents_append, hline, List.map_cons, List.append_assoc]
      rfl
  exact hfold messages _

end Texts

/-! ### Fields after a query or an update -/

section Fields

variable {st} {facts : List Fact} {update : Update}

@[simp] theorem learn_toAside : (st.learn facts).toAside = st.toAside := rfl

@[simp] theorem learn_crypto : (st.learn facts).crypto = st.crypto := rfl

@[simp] theorem learn_task : (st.learn facts).task = st.task := rfl

@[simp] theorem learn_core : (st.learn facts).core = st.core := rfl

@[simp] theorem learn_friend : (st.learn facts).friend = st.friend := rfl

@[simp] theorem learn_group : (st.learn facts).group = st.group := rfl

@[simp] theorem learn_owedDirect : (st.learn facts).owedDirect = st.owedDirect := rfl

@[simp] theorem learn_owedGroup : (st.learn facts).owedGroup = st.owedGroup := rfl

@[simp] theorem learn_known : (st.learn facts).known = facts ++ st.known := rfl

@[simp] theorem learn_guarded :
    (st.learn facts).guarded = if st.friend then facts ++ st.guarded else st.guarded := rfl

@[simp] theorem learn_fresh : (st.learn facts).fresh = facts ++ st.fresh := rfl

@[simp] theorem learn_seenDirect : (st.learn facts).seenDirect = st.seenDirect := rfl

@[simp] theorem learn_seenGroup : (st.learn facts).seenGroup = st.seenGroup := rfl

@[simp] theorem learn_deleted : (st.learn facts).deleted = st.deleted := rfl

@[simp] theorem saw_toAside {session : ClientSession} : (st.saw session).toAside =
    { st.toAside with
      offered := session.offeredFiles.map StoredFileTransfer.id ++ st.offered
      inProgress := some session.fileDeliveriesInProgress
      noUpload := session.upload.isNone
      noBinary := session.binaryUpload.isNone } := rfl

@[simp] theorem saw_task {session : ClientSession} : (st.saw session).task = st.task := rfl

@[simp] theorem saw_core {session : ClientSession} : (st.saw session).core = st.core := rfl

@[simp] theorem saw_known {session : ClientSession} : (st.saw session).known = st.known := rfl

@[simp] theorem saw_deleted {session : ClientSession} :
    (st.saw session).deleted = st.deleted := rfl

@[simp] theorem free_saw {session : ClientSession} : (st.saw session).Free ↔ st.Free :=
  ⟨fun h => { h with }, fun h => { h with }⟩

@[simp] theorem free_started : st.started.Free ↔ st.Free :=
  ⟨fun h => { h with }, fun h => { h with }⟩

@[simp] theorem free_met {username : Bytes} {target : ConnId} :
    (st.met username target).Free ↔ st.Free := by
  unfold met
  split
  · exact ⟨fun h => { h with }, fun h => { h with }⟩
  · rfl

theorem met_eq {target : ConnId} :
    st.met username target = { st with toAside := (st.met username target).toAside } := by
  unfold met
  split <;> rfl

theorem met_quiet {target : ConnId} (hquiet : st.task.request.delivers = false) :
    st.met username target = st := by
  rw [met, hquiet]
  rfl

@[simp] theorem free_learn : (st.learn facts).Free ↔ st.Free :=
  ⟨fun h => { h with }, fun h => { h with }⟩

@[simp] theorem free_afterAssign {a : Assign} (hfree : st.Free) : (st.afterAssign a).Free := by
  refine { hfree with deleted := ?_, registered := ?_, joined := ?_ }
  · cases a with
    | accountDeleted => rfl
    | _ => exact hfree.deleted
  · cases a with
    | login | logout | accountDeleted => rfl
    | _ => exact hfree.registered
  · cases a with
    | login => rfl
    | _ => exact hfree.joined

@[simp] theorem forget_toAside : st.forget.toAside = { st.toAside with offered := [] } := rfl

@[simp] theorem forget_task : st.forget.task = st.task := rfl

@[simp] theorem forget_core : st.forget.core = st.core := rfl

@[simp] theorem forget_friend : st.forget.friend = st.friend := rfl

@[simp] theorem forget_group : st.forget.group = st.group := rfl

@[simp] theorem forget_owedDirect : st.forget.owedDirect = st.owedDirect := rfl

@[simp] theorem forget_owedGroup : st.forget.owedGroup = st.owedGroup := rfl

@[simp] theorem forget_known : st.forget.known = [] := rfl

@[simp] theorem forget_deleted : st.forget.deleted = st.deleted := rfl

@[simp] theorem commit_toAside {result : update.Result} : (st.commit update result).toAside =
    { st.forget.toAside with stored := if update.records then none else st.stored } := rfl

@[simp] theorem commit_task {result : update.Result} :
    (st.commit update result).task = st.task := rfl

@[simp] theorem commit_core {result : update.Result} :
    (st.commit update result).core = st.core := rfl

@[simp] theorem commit_friend {result : update.Result} :
    (st.commit update result).friend = st.friend := rfl

@[simp] theorem commit_group {result : update.Result} :
    (st.commit update result).group = st.group := rfl

@[simp] theorem commit_deleted {result : update.Result} :
    (st.commit update result).deleted = (st.deleted || update.deletesUser result) := rfl

@[simp] theorem commit_known {result : update.Result} :
    (st.commit update result).known = update.facts result := rfl

@[simp] theorem commit_owedDirect {result : update.Result} :
    (st.commit update result).owedDirect =
      if update.published .direct result then some update else st.owedDirect := rfl

@[simp] theorem commit_owedGroup {result : update.Result} :
    (st.commit update result).owedGroup =
      if update.published .group result then some update else st.owedGroup := rfl

@[simp] theorem free_forget : st.forget.Free ↔ st.Free :=
  ⟨fun h => { h with }, fun h => { h with }⟩

theorem free_commit {result : update.Result} (hfree : st.Free)
    (hchanges : ∀ policy, update.changes policy = false) : (st.commit update result).Free := by
  have hpublished : ∀ policy, update.published policy result = false := by
    intro policy
    by_contra hpublished
    have := Update.published_changes (Bool.not_eq_false _ ▸ hpublished)
    simp [hchanges] at this
  have hdeletes : update.deletesUser result = false := by
    cases update with
    | deleteUser username => cases hchanges .direct
    | _ => rfl
  refine ⟨?_, ?_, ?_, ?_, ?_, ?_, ?_⟩
  · rw [commit_friend, hfree.friend]
  · rw [commit_group, hfree.group]
  · rw [commit_owedDirect, hpublished, hfree.owedDirect]
    rfl
  · rw [commit_owedGroup, hpublished, hfree.owedGroup]
    rfl
  · rw [commit_deleted, hdeletes, hfree.deleted]
    rfl
  · exact hfree.registered
  · exact hfree.joined

@[simp] theorem permitted_reverse {sender recipient : Bytes} :
    Permitted (permitFacts sender recipient).reverse sender recipient :=
  fun _ hfact => List.mem_reverse.mpr hfact

@[simp] theorem permitted_reverse_append {sender recipient : Bytes} :
    Permitted ((permitFacts sender recipient).reverse ++ facts) sender recipient :=
  fun _ hfact => List.mem_append_left _ (List.mem_reverse.mpr hfact)

end Fields

end Progress

def Task.start (crypto : Crypto) (task : Task) : Progress where
  crypto := crypto
  task := task
  core := task.session.core

def discipline : Typestate Act Act.Result Progress where
  allowed := Progress.Allowed
  after := Progress.after

end ChatRoom
