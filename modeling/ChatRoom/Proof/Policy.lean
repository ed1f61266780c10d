import ChatRoom.Server.System

/-!
# What the tables say about permissions

`Database.permits` is the condition under which `DirectMessagePolicy::evaluate` answers `Allowed`.
-/

namespace ChatRoom

variable {username sender recipient : Bytes}

def Database.permits (db : Database) (sender recipient : Bytes) : Bool :=
  db.userExists recipient && db.areFriends sender recipient &&
    !db.isFriendBlocked recipient sender && !db.isFriendBlocked sender recipient

/-- What an answer of the database says about the tables. -/
inductive Fact where
  | userExists (username : Bytes)
  | friends (left right : Bytes)
  | notBlocked (blocker blocked : Bytes)
  | group (name : Bytes) (info : GroupInfo)
  | member (name username : Bytes)
  | members (name : Bytes) (usernames : List Bytes)
  | recorded (transferId : Nat) (username : Bytes)
  | message (message : StoredMessage)
  | groupMessage (message : StoredGroupMessage)
  | answered (q : Query) (answer : q.Answer)

def Fact.Holds (db : Database) : Fact → Prop
  | .userExists username => db.userExists username = true
  | .friends left right => db.areFriends left right = true
  | .notBlocked blocker blocked => db.isFriendBlocked blocker blocked = false
  | .group name info => db.getGroup name = some info
  | .member name username => username ∈ db.listGroupMemberUsernames name
  | .members name usernames => db.listGroupMemberUsernames name = usernames
  | .recorded transferId username =>
    ∃ row ∈ db.fileDeliveries, row.item = transferId ∧ row.recipientUsername = username
  | .message _ | .groupMessage _ | .answered _ _ => True

/-- What a fact says about the tables when it is learned, which other threads may change. -/
def Fact.Found (db : Database) : Fact → Prop
  | .friends left right => db.areFriends left right = true
  | .answered q answer => db.answer q = answer
  | .message stored => stored ∈ db.messages
  | .groupMessage stored => stored ∈ db.groupMessages
  | _ => True

def Query.facts : (q : Query) → q.Answer → List Fact
  | .userExists username, true => [.userExists username]
  | .getPasswordHash username, some encoded =>
    [.userExists username, .answered (.getPasswordHash username) (some encoded)]
  | .areFriends left right, true => [.friends left right]
  | .areFriends left right, false => [.answered (.areFriends left right) false]
  | .hasFriendRequest requester target, found =>
    [.answered (.hasFriendRequest requester target) found]
  | .isFriendBlocked blocker blocked, false => [.notBlocked blocker blocked]
  | .getGroup name, some info => [.group name info]
  | .getGroupRole name username, some role =>
    [.member name username, .answered (.getGroupRole name username) (some role)]
  | .getGroupRole name username, none => [.answered (.getGroupRole name username) none]
  | .listGroupMemberUsernames name, usernames =>
    .members name usernames :: usernames.map (.member name)
  | .pendingFileTransfers username _, transfers =>
    transfers.map fun transfer => .recorded transfer.id username
  | .pendingPrivateMessages _ _, messages => messages.map .message
  | .pendingGroupMessages _ _, messages => messages.map .groupMessage
  | .recentPublicMessages _, messages => messages.map .message
  | .recentPrivateMessages _ _ _, messages => messages.map .message
  | .recentGroupMessages _ _, messages => messages.map .groupMessage
  | _, _ => []

@[simp]
def Update.facts : (u : Update) → u.Result → List Fact
  | .addFileTransfer _ recipients, transferId => recipients.map (.recorded transferId)
  | .addMessage payload, messageId => [.message ⟨messageId, payload⟩]
  | .addPrivateMessageWithDelivery payload, messageId => [.message ⟨messageId, payload⟩]
  | .addGroupMessage payload _, messageId => [.groupMessage ⟨messageId, payload⟩]
  | _, _ => []

namespace Database

variable {db db' : Database}

theorem mem_orderNames {name : Bytes} {names : List Bytes} :
    name ∈ orderNames names ↔ name ∈ names :=
  (names.perm_insertionSort _).mem_iff

theorem mem_listGroupMemberUsernames {groupName : Bytes} :
    username ∈ db.listGroupMemberUsernames groupName ↔
      ∃ row ∈ db.groupMembers groupName, row.username = username := by
  simp [listGroupMemberUsernames, mem_orderNames]

theorem isSome_getGroupRole {groupName : Bytes} :
    (db.getGroupRole groupName username).isSome = true ↔
      username ∈ db.listGroupMemberUsernames groupName := by
  simp [getGroupRole, mem_listGroupMemberUsernames]

theorem userExists_of_getPasswordHash {encoded : Bytes}
    (hfound : db.getPasswordHash username = some encoded) : db.userExists username = true := by
  obtain ⟨row, hrow, -⟩ := Option.map_eq_some_iff.mp hfound
  have hname := List.find?_some hrow
  exact List.any_eq_true.mpr ⟨row, List.mem_of_find?_eq_some hrow, hname⟩

/-- What a query reports is so when it is answered. -/
theorem facts_answer (q : Query) :
    ∀ fact ∈ q.facts (db.answer q), fact.Holds db ∧ fact.Found db := by
  have hfiltered : ∀ {α : Type} {rows : List α} {p : α → Bool} {count : Nat} {row : α},
      row ∈ (rows.filter p).take count ∨ row ∈ (rows.filter p).rtake count → row ∈ rows := by
    intro α rows p count row hrow
    rcases hrow with htake | hrtake
    · exact (List.mem_filter.mp (List.mem_of_mem_take htake)).1
    · exact (List.mem_filter.mp (List.mem_of_mem_drop hrtake)).1
  cases q with
  | userExists username =>
    cases h : db.userExists username <;> simp [answer, Query.facts, h, Fact.Holds, Fact.Found]
  | getPasswordHash username =>
    cases h : db.getPasswordHash username with
    | none => simp [answer, Query.facts, h]
    | some encoded =>
      simp [answer, Query.facts, h, Fact.Holds, Fact.Found, userExists_of_getPasswordHash h]
  | areFriends left right =>
    cases h : db.areFriends left right <;>
      simp [answer, Query.facts, h, Fact.Holds, Fact.Found]
  | isFriendBlocked blocker blocked =>
    cases h : db.isFriendBlocked blocker blocked <;>
      simp [answer, Query.facts, h, Fact.Holds, Fact.Found]
  | getGroup name =>
    cases h : db.getGroup name <;> simp [answer, Query.facts, h, Fact.Holds, Fact.Found]
  | getGroupRole name username =>
    cases h : db.getGroupRole name username with
    | none => simp [answer, Query.facts, h, Fact.Holds, Fact.Found]
    | some role =>
      simp [answer, Query.facts, h, Fact.Holds, Fact.Found, ← isSome_getGroupRole]
  | hasFriendRequest | listGroupMemberUsernames =>
    simp [answer, Query.facts, Fact.Holds, Fact.Found]
  | pendingPrivateMessages | pendingGroupMessages =>
    intro fact hfact
    obtain ⟨message, hmessage, rfl⟩ := List.mem_map.mp hfact
    exact ⟨trivial, hfiltered (.inl hmessage)⟩
  | recentPublicMessages | recentPrivateMessages | recentGroupMessages =>
    intro fact hfact
    obtain ⟨message, hmessage, rfl⟩ := List.mem_map.mp hfact
    exact ⟨trivial, hfiltered (.inr hmessage)⟩
  | pendingFileTransfers username limit =>
    intro fact hfact
    obtain ⟨transfer, htransfer, rfl⟩ := List.mem_map.mp hfact
    have hpending := (List.mem_filter.mp (List.mem_of_mem_take htransfer)).2
    simp only [Bool.and_eq_true, isPending, List.any_eq_true] at hpending
    obtain ⟨⟨row, hrow, hmatches⟩, -⟩ := hpending
    simp only [Bool.and_eq_true, decide_eq_true_eq] at hmatches
    exact ⟨⟨row, hrow, hmatches.1.1, hmatches.1.2⟩, trivial⟩
  | _ => simp [Query.facts]

theorem facts_apply {u : Update} {result : u.Result} (happly : db.apply u = .ok (result, db')) :
    ∀ fact ∈ u.facts result, fact.Holds db' ∧ fact.Found db' := by
  cases u with
  | addFileTransfer metadata recipients =>
    simp only [apply, addFileTransfer] at happly
    split at happly
    · cases happly
    · split at happly <;> cases happly
      intro fact hfact
      obtain ⟨recipient, hrecipient, rfl⟩ := List.mem_map.mp hfact
      refine ⟨⟨⟨db.nextTransferId, recipient, none⟩, ?_, rfl, rfl⟩, trivial⟩
      exact List.mem_append_right _ (List.mem_map.mpr ⟨recipient, hrecipient, rfl⟩)
  | addMessage =>
    simp only [apply, addMessage] at happly
    split at happly <;> cases happly
    simp [Fact.Holds, Fact.Found]
  | addPrivateMessageWithDelivery =>
    simp only [apply, addPrivateMessageWithDelivery] at happly
    split at happly
    · cases happly
    · split at happly <;> cases happly
      simp [Fact.Holds, Fact.Found]
  | addGroupMessage =>
    simp only [apply, addGroupMessage] at happly
    split at happly <;> cases happly
    simp [Fact.Holds, Fact.Found]
  | _ => simp

theorem read_cases (q : Query) :
    db.read q = .ok (db.answer q) ∨ ∃ error, db.read q = .error error := by
  unfold read
  cases db.readError q with
  | none => exact .inl rfl
  | some error => exact .inr ⟨error, rfl⟩

end Database

/-! ### What updates can change -/

def Update.changes : Policy → Update → Bool
  | _, .deleteUser _ => true
  | .direct, .acceptFriendRequest _ _ | .direct, .removeFriendship _ _
  | .direct, .addFriendBlock _ _ | .direct, .removeFriendBlock _ _ => true
  | .group, .createGroup _ _ | .group, .dissolveGroup _ _
  | .group, .approveGroupJoinRequest _ _ | .group, .removeGroupMember _ _ => true
  | _, _ => false

def Update.registers : Update → Bool
  | .createUser _ _ | .deleteUser _ => true
  | _ => false

def Update.writes : Update → Bool
  | .deleteUser _ | .dissolveGroup _ _ | .addMessage _ | .addPrivateMessageWithDelivery _
  | .addGroupMessage _ _ => true
  | _ => false

def Update.social : Update → Bool
  | .createUser _ _ | .deleteUser _ | .addFriendRequest _ _ | .acceptFriendRequest _ _
  | .rejectFriendRequest _ _ | .removeFriendship _ _ | .addFriendBlock _ _
  | .removeFriendBlock _ _ => true
  | _ => false

def Update.grouping : Update → Bool
  | .deleteUser _ | .createGroup _ _ | .dissolveGroup _ _ | .addGroupJoinRequest _ _
  | .approveGroupJoinRequest _ _ | .rejectGroupJoinRequest _ _ | .setGroupMemberRole _ _ _
  | .removeGroupMember _ _ => true
  | _ => false

def Update.revokes (sender recipient : Bytes) : Update → Prop
  | .deleteUser username => username = sender ∨ username = recipient
  | .removeFriendship left right => normalizePair left right = normalizePair sender recipient
  | .addFriendBlock blocker blocked =>
    (blocker = sender ∧ blocked = recipient) ∨ (blocker = recipient ∧ blocked = sender)
  | _ => False

instance (sender recipient : Bytes) (update : Update) : Decidable (update.revokes sender recipient) := by
  cases update <;> unfold Update.revokes <;> infer_instance

def permitFacts (sender recipient : Bytes) : List Fact :=
  [.userExists recipient, .friends sender recipient, .notBlocked recipient sender,
    .notBlocked sender recipient]

theorem Database.permits_iff {db : Database} :
    db.permits sender recipient = true ↔
      ∀ fact ∈ permitFacts sender recipient, fact.Holds db := by
  simp [Database.permits, permitFacts, Fact.Holds, and_assoc]

theorem Update.published_changes {policy : Policy} {update : Update} {result : update.Result}
    (hpublished : update.published policy result = true) : update.changes policy = true := by
  cases update <;> cases policy <;> simp_all [Update.published, Update.changes]

namespace Database

variable {db db' : Database} {update : Update} {result : update.Result}

def touchesFiles : Update → Bool
  | .addFileTransfer _ _ | .deleteUser _ | .markFileTransferDelivered _ _ _ => true
  | _ => false

structure Framed (update : Update) (db db' : Database) : Prop where
  users : update.registers = false → db'.users = db.users
  requests : update.social = false → db'.friendRequests = db.friendRequests
  direct : update.changes .direct = false →
    db'.friendships = db.friendships ∧ db'.friendBlocks = db.friendBlocks
  groups : update.grouping = false → db'.groups = db.groups ∧ db'.members = db.members ∧
    db'.joinRequests = db.joinRequests ∧ db'.nextGroupId = db.nextGroupId
  messages : update.writes = false →
    db'.messages = db.messages ∧ db'.groupMessages = db.groupMessages
  files : touchesFiles update = false →
    db'.fileTransfers = db.fileTransfers ∧ db'.fileDeliveries = db.fileDeliveries

theorem apply_framed (happly : db.apply update = .ok (result, db')) : Framed update db db' := by
  -- whatever an update does, it is named in the condition of each table that it changes
  cases update <;>
    simp only [apply, createUser, deleteUser, addFriendRequest, acceptFriendRequest,
      rejectFriendRequest, removeFriendship, addFriendBlock, removeFriendBlock, addFriendEvent,
      createGroup, dissolveGroup, addGroupJoinRequest, approveGroupJoinRequest,
      rejectGroupJoinRequest, setGroupMemberRole, removeGroupMember, addMessage,
      addPrivateMessageWithDelivery, addGroupMessage, addFileTransfer, markPrivateMessageDelivered,
      markGroupMessageDelivered, markFileTransferDelivered] at happly
  all_goals
    repeat' split at happly
    all_goals cases happly
    all_goals constructor <;> intro hkept <;> trivial

theorem apply_userExists (hdelete : ∀ username, update ≠ .deleteUser username)
    (happly : db.apply update = .ok (result, db')) (hexists : db.userExists username = true) :
    db'.userExists username = true := by
  cases hregisters : update.registers with
  | false =>
    rw [userExists, (apply_framed happly).users hregisters]
    exact hexists
  | true =>
    cases update with
    | deleteUser username => exact absurd rfl (hdelete username)
    | createUser username passwordHash =>
      simp only [apply, createUser] at happly
      split at happly <;> cases happly
      exact List.any_append.trans (Bool.or_eq_true_iff.mpr (.inl hexists))
    | _ => cases hregisters

theorem userExists_filter {users : List (Bytes × Bytes)} {other : Bytes} (hne : other ≠ username)
    (hexists : (users.any fun row => row.1 = other) = true) :
    ((users.filter fun row => row.1 ≠ username).any fun row => row.1 = other) = true := by
  obtain ⟨row, hrow, hother⟩ := List.any_eq_true.mp hexists
  have hother := of_decide_eq_true hother
  refine List.any_eq_true.mpr ⟨row, List.mem_filter.mpr ⟨hrow, ?_⟩, decide_eq_true hother⟩
  exact decide_eq_true (hother ▸ hne)

theorem apply_directTables (hchanges : update.changes .direct = false)
    (happly : db.apply update = .ok (result, db')) :
    db'.friendships = db.friendships ∧ db'.friendBlocks = db.friendBlocks ∧
      ∀ username, db.userExists username = true → db'.userExists username = true := by
  obtain ⟨hfriendships, hblocks⟩ := (apply_framed happly).direct hchanges
  refine ⟨hfriendships, hblocks, fun username => apply_userExists ?_ happly⟩
  rintro username rfl
  cases hchanges

theorem permitFact_apply {fact : Fact} (hfact : fact ∈ permitFacts sender recipient)
    (hrevokes : ¬update.revokes sender recipient) (happly : db.apply update = .ok (result, db'))
    (hholds : fact.Holds db) : fact.Holds db' := by
  by_cases hchanges : update.changes .direct = true
  · cases update with
    | deleteUser username =>
      obtain ⟨hsender, hrecipient⟩ := not_or.mp hrevokes
      simp only [apply, deleteUser] at happly
      split at happly <;> cases happly
      · exact hholds
      · have hpair : (normalizePair sender recipient).1 ≠ username ∧
            (normalizePair sender recipient).2 ≠ username := by
          unfold normalizePair
          split_ifs <;> simp [Ne.symm hsender, Ne.symm hrecipient]
        simp only [permitFacts, List.mem_cons, List.not_mem_nil, or_false] at hfact
        rcases hfact with rfl | rfl | rfl | rfl <;>
          simp_all [Fact.Holds, userExists, areFriends, isFriendBlocked, deleteGroups]
        exact fun heq => hrecipient heq.symm
    | acceptFriendRequest requester target =>
      simp only [apply, acceptFriendRequest] at happly
      split at happly
      · cases happly
      · split at happly <;> cases happly
        simp only [permitFacts, List.mem_cons, List.not_mem_nil, or_false] at hfact
        rcases hfact with rfl | rfl | rfl | rfl <;>
          simp_all [Fact.Holds, userExists, areFriends, isFriendBlocked]
    | removeFriendship left right =>
      simp only [apply, removeFriendship] at happly
      split at happly <;> cases happly
      · simp only [permitFacts, List.mem_cons, List.not_mem_nil, or_false] at hfact
        rcases hfact with rfl | rfl | rfl | rfl <;>
          simp_all [Fact.Holds, userExists, areFriends, isFriendBlocked, Update.revokes,
            Ne.symm]
      · exact hholds
    | addFriendBlock blocker blocked =>
      obtain ⟨hforward, hbackward⟩ := not_or.mp hrevokes
      simp only [apply, addFriendBlock] at happly
      split at happly <;> cases happly
      · exact hholds
      · simp only [permitFacts, List.mem_cons, List.not_mem_nil, or_false] at hfact
        rcases hfact with rfl | rfl | rfl | rfl <;>
          simp_all [Fact.Holds, userExists, areFriends, isFriendBlocked]
        · exact fun hblocker hblocked => hbackward hblocker.symm hblocked.symm
        · exact fun hblocker hblocked => hforward hblocker.symm hblocked.symm
    | removeFriendBlock blocker blocked =>
      cases happly
      simp only [permitFacts, List.mem_cons, List.not_mem_nil, or_false] at hfact
      rcases hfact with rfl | rfl | rfl | rfl <;>
        simp_all [Fact.Holds, userExists, areFriends, isFriendBlocked]
    | _ => simp [Update.changes] at hchanges
  · obtain ⟨hfriends, hblocks, husers⟩ :=
      apply_directTables (Bool.not_eq_true _ ▸ hchanges) happly
    simp only [permitFacts, List.mem_cons, List.not_mem_nil, or_false] at hfact
    rcases hfact with rfl | rfl | rfl | rfl <;>
      simp_all [Fact.Holds, areFriends, isFriendBlocked]

/-- **Revocation.** A permission is only lost by a published update that revokes it. -/
theorem permits_apply (happly : db.apply update = .ok (result, db'))
    (hpermits : db.permits sender recipient = true) :
    db'.permits sender recipient = true ∨
      (update.published .direct result = true ∧ update.revokes sender recipient) := by
  by_cases hrevokes : update.revokes sender recipient
  · by_cases hpublished : update.published .direct result = true
    · exact .inr ⟨hpublished, hrevokes⟩
    · left
      -- a revoking update that is not published has found nothing to change
      have hsame : db' = db := by
        cases update with
        | deleteUser username =>
          simp only [apply, deleteUser] at happly
          split at happly <;> cases happly
          · rfl
          · simp [Update.published] at hpublished
        | removeFriendship left right =>
          simp only [apply, removeFriendship] at happly
          split at happly <;> cases happly
          · simp [Update.published] at hpublished
          · rfl
        | addFriendBlock blocker blocked =>
          simp only [apply, addFriendBlock] at happly
          split at happly <;> cases happly
          · rfl
          · simp [Update.published] at hpublished
        | _ => exact hrevokes.elim
      rwa [hsame]
  · left
    rw [permits_iff] at hpermits ⊢
    exact fun fact hfact => permitFact_apply hfact hrevokes happly (hpermits fact hfact)

/-! ### Groups -/

def SameGroup (db db' : Database) (name : Bytes) : Prop :=
  db'.getGroup name = db.getGroup name ∧
    db'.listGroupMemberUsernames name = db.listGroupMemberUsernames name

theorem SameGroup.of_tables (hgroups : db'.groups = db.groups)
    (hmembers : db'.members.map (fun row => (row.groupId, row.username)) =
      db.members.map fun row => (row.groupId, row.username)) (name : Bytes) :
    SameGroup db db' name := by
  have hgroup : db'.getGroup name = db.getGroup name := by rw [getGroup, hgroups, getGroup]
  have hnames : ∀ (table : Database) (id : Nat),
      (table.members.filter fun row => row.groupId = id).map GroupMember.username =
        ((table.members.map fun row => (row.groupId, row.username)).filter
          fun row => row.1 = id).map Prod.snd := by
    intro table id
    simp [List.filter_map, Function.comp_def]
  refine ⟨hgroup, ?_⟩
  unfold listGroupMemberUsernames groupMembers groupIdByName
  rw [hgroup]
  cases (db.getGroup name).map GroupInfo.id with
  | none => rfl
  | some id =>
    show orderNames _ = orderNames _
    rw [hnames db' id, hnames db id, hmembers]

theorem apply_groupTables (hchanges : update.changes .group = false)
    (happly : db.apply update = .ok (result, db')) :
    db'.groups = db.groups ∧
      db'.members.map (fun row => (row.groupId, row.username)) =
        db.members.map fun row => (row.groupId, row.username) := by
  cases hgrouping : update.grouping with
  | false =>
    obtain ⟨hgroups, hmembers, -⟩ := (apply_framed happly).groups hgrouping
    exact ⟨hgroups, by rw [hmembers]⟩
  | true =>
    cases update with
    | deleteUser | createGroup | dissolveGroup | approveGroupJoinRequest | removeGroupMember =>
      cases hchanges
    | addGroupJoinRequest =>
      simp only [apply, addGroupJoinRequest] at happly
      split at happly
      · cases happly
      · split at happly <;> cases happly
        exact ⟨rfl, rfl⟩
    | rejectGroupJoinRequest =>
      simp only [apply, rejectGroupJoinRequest] at happly
      split at happly <;> cases happly
      exact ⟨rfl, rfl⟩
    | setGroupMemberRole groupName username role =>
      simp only [apply, setGroupMemberRole] at happly
      split at happly <;> cases happly
      refine ⟨rfl, ?_⟩
      rw [List.map_map]
      refine List.map_congr_left fun row _ => ?_
      simp only [Function.comp_apply]
      split_ifs <;> rfl
    | _ => cases hgrouping

theorem apply_unpublishedGroups (hchanges : update.changes .group = true)
    (happly : db.apply update = .ok (result, db'))
    (hpublished : update.published .group result = false) :
    db'.groups = db.groups ∧ db'.members = db.members := by
  cases update with
  | deleteUser username =>
    simp only [apply, deleteUser] at happly
    split at happly <;> cases happly
    · exact ⟨rfl, rfl⟩
    · simp [Update.published] at hpublished
  | createGroup | approveGroupJoinRequest => simp [Update.published] at hpublished
  | dissolveGroup groupName ownerUsername =>
    cases happly
    simp only [Update.published, decide_true, Bool.true_and, List.any_eq_false] at hpublished
    have hgone : ∀ id, (db.groups.any fun group =>
        decide (group.name = groupName ∧ group.ownerUsername = ownerUsername) &&
          decide (group.id = id)) = false := by
      intro id
      rw [List.any_eq_false]
      intro group hgroup hid
      exact hpublished group hgroup (Bool.and_eq_true_iff.mp hid).1
    constructor
    · exact List.filter_eq_self.mpr fun group hgroup => by
        simpa [imp_iff_not_or] using hpublished group hgroup
    · exact List.filter_eq_self.mpr fun row _ => by simp only [hgone, Bool.not_false]
  | removeGroupMember groupName username =>
    simp only [apply, removeGroupMember] at happly
    split at happly
    · cases happly
    · cases happly
      simp only [Update.published, decide_true, Bool.true_and, List.any_eq_false] at hpublished
      exact ⟨rfl, List.filter_eq_self.mpr fun row hrow => by
        simpa [imp_iff_not_or] using hpublished row hrow⟩
  | _ => cases hchanges

/-- **Membership.** Groups and member lists only change by a published update. -/
theorem sameGroup_apply (happly : db.apply update = .ok (result, db'))
    (hpublished : update.published .group result = false) (name : Bytes) :
    SameGroup db db' name := by
  by_cases hchanges : update.changes .group = true
  · obtain ⟨hgroups, hmembers⟩ := apply_unpublishedGroups hchanges happly hpublished
    exact SameGroup.of_tables hgroups (by rw [hmembers]) name
  · obtain ⟨hgroups, hmembers⟩ := apply_groupTables (Bool.not_eq_true _ ▸ hchanges) happly
    exact SameGroup.of_tables hgroups hmembers name

end Database

/-! ### The tables of files -/

namespace Database

variable {db db' : Database} {update : Update} {result : update.Result}

theorem fileTransfers_apply (happly : db.apply update = .ok (result, db'))
    {row : StoredFileTransfer} (hrow : row ∈ db'.fileTransfers) :
    row ∈ db.fileTransfers ∨
      ∃ recipients, update = .addFileTransfer row.metadata recipients := by
  cases update with
  | addFileTransfer metadata recipients =>
    simp only [apply, addFileTransfer] at happly
    split at happly
    · cases happly
    · split at happly <;> cases happly
      rcases List.mem_append.mp hrow with hold | hnew
      · exact .inl hold
      · rw [List.mem_singleton.mp hnew]
        exact .inr ⟨recipients, rfl⟩
  | deleteUser username =>
    simp only [apply, deleteUser] at happly
    split at happly <;> cases happly
    · exact .inl hrow
    · exact .inl (List.mem_filter.mp hrow).1
  | markFileTransferDelivered =>
    cases happly
    exact .inl hrow
  | _ =>
    rw [((apply_framed happly).files rfl).1] at hrow
    exact .inl hrow

theorem recorded_apply (hdelete : ∀ username, update ≠ .deleteUser username)
    (happly : db.apply update = .ok (result, db')) {transferId : Nat}
    (hrecorded : (Fact.recorded transferId username).Holds db) :
    (Fact.recorded transferId username).Holds db' := by
  obtain ⟨row, hrow, hitem, hrecipient⟩ := hrecorded
  cases update with
  | addFileTransfer metadata recipients =>
    simp only [apply, addFileTransfer] at happly
    split at happly
    · cases happly
    · split at happly <;> cases happly
      exact ⟨row, List.mem_append_left _ hrow, hitem, hrecipient⟩
  | deleteUser username => exact absurd rfl (hdelete username)
  | markFileTransferDelivered =>
    cases happly
    refine ⟨_, List.mem_map_of_mem hrow, ?_⟩
    split <;> exact ⟨hitem, hrecipient⟩
  | _ =>
    refine ⟨row, ?_, hitem, hrecipient⟩
    rw [((apply_framed happly).files rfl).2]
    exact hrow

end Database

end ChatRoom
