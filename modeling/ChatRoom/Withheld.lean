import ChatRoom.SocialGraph

/-! # Withheld messages and files -/

namespace ChatRoom

open Interleaving Transition

/-! ### What waits for a user -/

inductive PrivateItem where
  | message (stored : StoredMessage)
  | file (transfer : StoredFileTransfer)
  deriving DecidableEq

namespace PrivateItem

def sender : PrivateItem → Bytes
  | .message stored => stored.payload.senderUsername
  | .file transfer => transfer.metadata.senderUsername

/-- The item is stored, and its delivery to the user is not marked. -/
def Awaits (db : Database) (recipient : Bytes) : PrivateItem → Prop
  | .message stored =>
    stored ∈ db.messages ∧ Database.isPending db.privateDeliveries stored.id recipient = true
  | .file transfer =>
    transfer ∈ db.fileTransfers ∧ transfer.metadata.scope = .privateFile ∧
      Database.isPending db.fileDeliveries transfer.id recipient = true

/-- The query for pending items finds it, if its limit is not too low. -/
def Deliverable (db : Database) (recipient : Bytes) : PrivateItem → Prop
  | .message stored => ∃ count, stored ∈ db.pendingPrivateMessages recipient count
  | .file transfer =>
    transfer.metadata.scope = .privateFile ∧
      ∃ count, transfer ∈ db.pendingFileTransfers recipient count

/-- The item waits for a user who has blocked its sender. -/
def Withheld (db : Database) (recipient : Bytes) (item : PrivateItem) : Prop :=
  item.Awaits db recipient ∧ db.isFriendBlocked recipient item.sender = true

end PrivateItem

theorem exists_mem_take {α : Type} {items : List α} {item : α} :
    (∃ count, item ∈ items.take count) ↔ item ∈ items := by
  constructor
  · rintro ⟨count, hitem⟩
    exact List.mem_of_mem_take hitem
  · intro hitem
    exact ⟨items.length, by rwa [List.take_length]⟩

namespace PrivateItem

variable {db db' : Database} {recipient : Bytes} {item : PrivateItem}

theorem deliverable_iff :
    item.Deliverable db recipient ↔
      item.Awaits db recipient ∧ db.isFriendBlocked recipient item.sender = false := by
  cases item with
  | message stored =>
    simp only [Deliverable, Awaits, Database.pendingPrivateMessages, exists_mem_take,
      List.mem_filter, Bool.and_eq_true, Bool.not_eq_true', sender, and_assoc]
  | file transfer =>
    simp only [Deliverable, Awaits, Database.pendingFileTransfers, exists_mem_take,
      List.mem_filter, Bool.and_eq_true, Bool.or_eq_true, decide_eq_true_eq, Bool.not_eq_true',
      sender]
    constructor
    · rintro ⟨hprivate, htransfer, hpending, hgroup | hblocked⟩
      · exact absurd hprivate hgroup
      · exact ⟨⟨htransfer, hprivate, hpending⟩, hblocked⟩
    · rintro ⟨⟨htransfer, hprivate, hpending⟩, hblocked⟩
      exact ⟨hprivate, htransfer, hpending, .inr hblocked⟩

instance : Decidable (item.Awaits db recipient) := by
  cases item <;> unfold Awaits <;> infer_instance

instance : Decidable (item.Withheld db recipient) := inferInstanceAs (Decidable (_ ∧ _))

instance : Decidable (item.Deliverable db recipient) := decidable_of_iff _ deliverable_iff.symm

theorem not_deliverable_of_blocked (hblocked : db.isFriendBlocked recipient item.sender = true) :
    ¬item.Deliverable db recipient := by
  rw [deliverable_iff, hblocked]
  rintro ⟨-, hfree⟩
  cases hfree

theorem Awaits.of_tables (hawaits : item.Awaits db recipient) (hmessages : db'.messages = db.messages)
    (hprivate : db'.privateDeliveries = db.privateDeliveries)
    (htransfers : db'.fileTransfers = db.fileTransfers)
    (hfiles : db'.fileDeliveries = db.fileDeliveries) : item.Awaits db' recipient := by
  cases item with
  | message stored =>
    rw [Awaits, hmessages, hprivate]
    exact hawaits
  | file transfer =>
    rw [Awaits, htransfers, hfiles]
    exact hawaits

end PrivateItem

theorem isPending_filter {rows : List Delivery} {item : Nat} {recipient : Bytes}
    {keep : Delivery → Bool}
    (hpending : Database.isPending (rows.filter keep) item recipient = true) :
    ∃ row, keep row = true ∧ row.recipientUsername = recipient := by
  obtain ⟨row, hrow, htest⟩ := List.any_eq_true.mp hpending
  simp only [Bool.and_eq_true, decide_eq_true_eq] at htest
  exact ⟨row, (List.mem_filter.mp hrow).2, htest.1.2⟩

namespace PrivateItem

variable {db db' : Database} {recipient : Bytes} {item : PrivateItem}

theorem not_deliverable_deleteUser {username : Bytes} {result : Bool}
    (hwithheld : item.Withheld db recipient)
    (happly : db.deleteUser username = .ok (result, db')) : ¬item.Deliverable db' recipient := by
  obtain ⟨hawaits, hblocked⟩ := hwithheld
  unfold Database.deleteUser at happly
  dsimp only at happly
  split at happly
  · cases happly
    exact not_deliverable_of_blocked hblocked
  cases happly
  by_cases hsender : item.sender = username
  · rw [deliverable_iff]
    rintro ⟨hkept, -⟩
    cases item with
    | message stored =>
      have hgone := (List.mem_filter.mp hkept.1).2
      rw [Bool.not_eq_true', List.any_eq_false] at hgone
      refine hgone stored hawaits.1 ?_
      rw [show stored.payload.senderUsername = username from hsender]
      simp
    | file transfer =>
      have hgone := (List.mem_filter.mp hkept.1).2
      rw [Bool.not_eq_true', List.any_eq_false] at hgone
      refine hgone transfer hawaits.1 ?_
      rw [show transfer.metadata.senderUsername = username from hsender]
      simp
  by_cases hrecipient : recipient = username
  · rw [deliverable_iff]
    rintro ⟨hkept, -⟩
    have hrow : ∃ row : Delivery, row.recipientUsername ≠ username ∧
        row.recipientUsername = recipient := by
      cases item with
      | message stored =>
        obtain ⟨row, hkeep, hrow⟩ := isPending_filter hkept.2
        exact ⟨row, by simpa using (Bool.and_eq_true_iff.mp hkeep).2, hrow⟩
      | file transfer =>
        obtain ⟨row, hkeep, hrow⟩ := isPending_filter hkept.2.2
        exact ⟨row, by simpa using (Bool.and_eq_true_iff.mp hkeep).2, hrow⟩
    obtain ⟨row, hne, heq⟩ := hrow
    exact hne (heq.trans hrecipient)
  · refine not_deliverable_of_blocked (Database.mem_friendBlocks.mpr ?_)
    exact List.mem_filter.mpr
      ⟨Database.mem_friendBlocks.mp hblocked, decide_eq_true ⟨hrecipient, hsender⟩⟩

end PrivateItem

/-! ### What releases it -/

def Update.Unblocks (blocker blocked : Bytes) (u : Update) : Prop :=
  u = .removeFriendBlock blocker blocked

def Update.Unfriends (db : Database) (blocker blocked : Bytes) (u : Update) : Prop :=
  db.areFriends blocker blocked = true ∧
    (u = .removeFriendship blocker blocked ∨ u = .removeFriendship blocked blocker)

theorem Update.unfriends_removeFriendship_iff {db : Database} {blocker blocked left right : Bytes} :
    (removeFriendship left right).Unfriends db blocker blocked ↔ db.areFriends left right = true ∧
      ((blocker, blocked) = (left, right) ∨ (blocker, blocked) = (right, left)) := by
  have hcomm : db.areFriends right left = db.areFriends left right := by
    rw [Database.areFriends, normalizePair_comm, Database.areFriends]
  simp only [Unfriends, removeFriendship.injEq, Prod.mk.injEq]
  constructor
  · rintro ⟨hfriends, ⟨rfl, rfl⟩ | ⟨rfl, rfl⟩⟩
    · exact ⟨hfriends, .inl ⟨rfl, rfl⟩⟩
    · exact ⟨hcomm ▸ hfriends, .inr ⟨rfl, rfl⟩⟩
  · rintro ⟨hfriends, ⟨rfl, rfl⟩ | ⟨rfl, rfl⟩⟩
    · exact ⟨hfriends, .inl ⟨rfl, rfl⟩⟩
    · exact ⟨hcomm ▸ hfriends, .inr ⟨rfl, rfl⟩⟩

/-- The end of a friendship takes the blocks of the pair with it, and no other. -/
theorem PrivateItem.deliverable_removeFriendship_iff {db db' : Database} {recipient : Bytes}
    {item : PrivateItem} {left right : Bytes} {result : Bool}
    (hwithheld : item.Withheld db recipient)
    (happly : db.removeFriendship left right = .ok (result, db')) :
    item.Deliverable db' recipient ↔
      (Update.removeFriendship left right).Unfriends db recipient item.sender := by
  obtain ⟨hawaits, hblocked⟩ := hwithheld
  rw [Update.unfriends_removeFriendship_iff]
  unfold Database.removeFriendship at happly
  split at happly
  · rename_i hfriends
    cases happly
    by_cases hpair :
        (recipient, item.sender) = (left, right) ∨ (recipient, item.sender) = (right, left)
    · refine iff_of_true (deliverable_iff.mpr ⟨hawaits.of_tables rfl rfl rfl rfl, ?_⟩)
        ⟨hfriends, hpair⟩
      rw [← Bool.not_eq_true, Database.mem_friendBlocks, List.mem_filter]
      rintro ⟨-, hother⟩
      obtain ⟨hleft, hright⟩ := of_decide_eq_true hother
      exact hpair.elim hleft hright
    · refine iff_of_false (not_deliverable_of_blocked (Database.mem_friendBlocks.mpr ?_))
        fun hunfriends => hpair hunfriends.2
      exact List.mem_filter.mpr
        ⟨Database.mem_friendBlocks.mp hblocked, decide_eq_true (not_or.mp hpair)⟩
  · rename_i hfriends
    cases happly
    exact iff_of_false (not_deliverable_of_blocked hblocked) fun hunfriends =>
      hfriends hunfriends.1

/-- **Releases.** An item that is withheld is released by exactly two kinds of updates. -/
theorem PrivateItem.deliverable_apply_iff {db db' : Database} {recipient : Bytes}
    {item : PrivateItem} {u : Update} {value : u.Result} (hwithheld : item.Withheld db recipient)
    (happly : db.apply u = .ok (value, db')) :
    item.Deliverable db' recipient ↔
      u.Unblocks recipient item.sender ∨ u.Unfriends db recipient item.sender := by
  obtain ⟨hawaits, hblocked⟩ := hwithheld
  have hrow := Database.mem_friendBlocks.mp hblocked
  -- an update of another kind leaves the block alone
  have hkept : db'.isFriendBlocked recipient item.sender = true →
      ¬u.Unblocks recipient item.sender → ¬u.Unfriends db recipient item.sender →
      (item.Deliverable db' recipient ↔
        u.Unblocks recipient item.sender ∨ u.Unfriends db recipient item.sender) := by
    intro hblocked' hunblocks hunfriends
    exact iff_of_false (not_deliverable_of_blocked hblocked') (not_or.mpr ⟨hunblocks, hunfriends⟩)
  have hother : u ≠ .removeFriendBlock recipient item.sender →
      (∀ left right, u ≠ .removeFriendship left right) →
      ¬u.Unblocks recipient item.sender ∧ ¬u.Unfriends db recipient item.sender := by
    intro hblock hfriendship
    refine ⟨hblock, ?_⟩
    rintro ⟨-, hleft | hright⟩
    · exact hfriendship _ _ hleft
    · exact hfriendship _ _ hright
  cases u with
  | deleteUser username =>
    obtain ⟨hunblocks, hunfriends⟩ := hother (by simp) (by simp)
    exact iff_of_false (not_deliverable_deleteUser ⟨hawaits, hblocked⟩ happly)
      (not_or.mpr ⟨hunblocks, hunfriends⟩)
  | removeFriendBlock blocker blocked =>
    cases happly
    by_cases hpair : (blocker, blocked) = (recipient, item.sender)
    · cases hpair
      refine iff_of_true (deliverable_iff.mpr ⟨hawaits.of_tables rfl rfl rfl rfl, ?_⟩) (.inl rfl)
      rw [← Bool.not_eq_true, Database.mem_friendBlocks]
      simp
    · refine hkept (Database.mem_friendBlocks.mpr (List.mem_filter.mpr ⟨hrow, ?_⟩)) ?_ ?_
      · exact decide_eq_true fun heq => hpair heq.symm
      · rintro ⟨rfl, rfl⟩
        exact hpair rfl
      · rintro ⟨-, hleft | hright⟩
        · cases hleft
        · cases hright
  | removeFriendship left right =>
    rw [deliverable_removeFriendship_iff ⟨hawaits, hblocked⟩ happly]
    exact (or_iff_right (by simp [Update.Unblocks])).symm
  | addFriendBlock blocker blocked =>
    obtain ⟨hunblocks, hunfriends⟩ := hother (by simp) (by simp)
    refine hkept (Database.mem_friendBlocks.mpr ?_) hunblocks hunfriends
    simp only [Database.apply, Database.addFriendBlock] at happly
    split at happly <;> cases happly
    · exact hrow
    · exact List.mem_append_left _ hrow
  | acceptFriendRequest requester target =>
    obtain ⟨hunblocks, hunfriends⟩ := hother (by simp) (by simp)
    refine hkept (Database.mem_friendBlocks.mpr ?_) hunblocks hunfriends
    simp only [Database.apply, Database.acceptFriendRequest] at happly
    split at happly
    · cases happly
    · split at happly <;> cases happly
      exact hrow
  | _ =>
    obtain ⟨-, hblocks, -⟩ := Database.apply_directTables rfl happly
    obtain ⟨hunblocks, hunfriends⟩ := hother (by simp) (by simp)
    refine hkept (Database.mem_friendBlocks.mpr ?_) hunblocks hunfriends
    rw [hblocks]
    exact hrow

/-! ### Who releases it -/

/-- Whoever takes a block back is the user who set it, with `UNBLOCK_FRIEND`. -/
def unblockLayer : Layer where
  inv := fun _ => True
  rely := fun _ _ _ => True
  cond := fun _ _ _ _ => True
  shown := fun conn action _ s _ => ∀ blocker blocked,
    action = .update (.removeFriendBlock blocker blocked) →
    ∃ task, s.running conn = some task ∧ task.Runs .unblockFriend ∧ task.ActsFor blocker
  tracks := fun _ _ _ => True

theorem unblockLayer_sound (crypto : Crypto) : unblockLayer.Sound crypto where
  stable := fun _ _ _ _ => trivial
  step := by
    rintro conn st action choice result s s' hallowed - - htracks - - -
    refine ⟨trivial, fun _ _ => trivial, ?_, trivial⟩
    rintro blocker blocked rfl
    exact ⟨st.task, htracks.running, hallowed.1.2.2⟩
  start := fun _ _ _ => ⟨trivial, fun _ _ => trivial, trivial⟩
  finish := by
    intros
    exact ⟨trivial, fun _ _ => trivial, nofun⟩

/-- The step takes back the block of `blocker` against `blocked`, in an `UNBLOCK_FRIEND` of the
blocker. -/
def UnblockedByOwner (state : ServerConfiguration) (event : ServerEvent)
    (blocker blocked : Bytes) : Prop :=
  ∃ conn choice task, event = .step conn choice ∧
    nextUpdate state conn = some (.removeFriendBlock blocker blocked) ∧
    state.shared.running conn = some task ∧ task.Runs .unblockFriend ∧ task.ActsFor blocker

def EndsFriendship (state : ServerConfiguration) (event : ServerEvent)
    (blocker blocked : Bytes) : Prop :=
  ∃ conn choice u, event = .step conn choice ∧ choice.applies = true ∧
    nextUpdate state conn = some u ∧ u.Unfriends state.shared.db blocker blocked

theorem nextUpdate_of_code {state : ServerConfiguration} {conn : ConnId} {u : Update}
    {next : Except Bytes u.Result → Handler Unit} (hcode : state.code conn = .act (.update u) next) :
    nextUpdate state conn = some u := by
  simp only [nextUpdate, hcode]

section Runs

variable {config : ServerConfig} {useCache : Bool} {db : Database} {store : Store}
  {events : List ServerEvent} {state state' : ServerConfiguration} {event : ServerEvent}
  {recipient : Bytes}

theorem unblocked_by_owner {conn : ConnId} {choice : Choice} {blocked : Bytes}
    (hrun : Run (server config useCache).next anyStep (initial db store) events state)
    (hupdate : nextUpdate state conn = some (.removeFriendBlock recipient blocked)) :
    UnblockedByOwner state (.step conn choice) recipient blocked := by
  obtain ⟨next, hcode⟩ := code_of_nextUpdate hupdate
  -- the update is looked at as if it failed, which it always can
  have hexec : exec config.crypto conn (.update (.removeFriendBlock recipient blocked)) (.fail [])
      state.shared = some (.error [], state.shared) := rfl
  have hmeets := Layer.run_meets unblockLayer (fun _ _ _ _ => trivial) hrun
  obtain ⟨task, hrunning, hruns, hacts⟩ :=
    (unblockLayer_sound config.crypto).shown trivial hmeets hcode trivial hexec _ _ rfl
  exact ⟨conn, choice, task, rfl, hupdate, hrunning, hruns, hacts⟩

theorem released_of_next {item : PrivateItem}
    (hrun : Run (server config useCache).next anyStep (initial db store) events state)
    (hnext : (server config useCache).next state event = some state')
    (hwithheld : item.Withheld state.shared.db recipient)
    (hdeliverable : item.Deliverable state'.shared.db recipient) :
    UnblockedByOwner state event recipient item.sender ∨
      EndsFriendship state event recipient item.sender := by
  rcases tables_of_next hnext with hdb | ⟨conn, choice, u, next, value, rfl, hcode, happlies, happly⟩
  · rw [hdb] at hdeliverable
    exact absurd hdeliverable (PrivateItem.not_deliverable_of_blocked hwithheld.2)
  · have hupdate := nextUpdate_of_code hcode
    rcases (PrivateItem.deliverable_apply_iff hwithheld happly).mp hdeliverable with
      hunblocks | hunfriends
    · cases hunblocks
      exact .inl (unblocked_by_owner hrun hupdate)
    · exact .inr ⟨conn, choice, u, rfl, happlies, hupdate, hunfriends⟩

/-- **The end of a friendship releases** what was withheld from either of the two. -/
theorem deliverable_of_endsFriendship {item : PrivateItem}
    (hnext : (server config useCache).next state event = some state')
    (hends : EndsFriendship state event recipient item.sender)
    (hwithheld : item.Withheld state.shared.db recipient) :
    item.Deliverable state'.shared.db recipient := by
  obtain ⟨conn, choice, u, rfl, happlies, hupdate, hunfriends⟩ := hends
  obtain ⟨next, hcode⟩ := code_of_nextUpdate hupdate
  obtain ⟨_, _, _, hevent, -⟩ | ⟨conn', choice', action, next', result, hevent, hcode', hexec, -⟩ :=
    System.next_cases hnext
  · cases hevent
  cases hevent
  rw [hcode] at hcode'
  cases hcode'
  have happly : ∃ value db, state.shared.db.apply u = .ok (value, db) := by
    obtain ⟨hfriends, rfl | rfl⟩ := hunfriends
    · exact ⟨_, _, if_pos hfriends⟩
    · rw [Database.areFriends, normalizePair_comm] at hfriends
      exact ⟨_, _, if_pos hfriends⟩
  obtain ⟨value, db, happly⟩ := happly
  change exec config.crypto conn (.update u) choice state.shared = _ at hexec
  have hdb := exec_update_applied happlies happly hexec
  rw [hdb]
  exact (PrivateItem.deliverable_apply_iff hwithheld happly).mpr (.inr hunfriends)

end Runs

/-! ### A message that Bob has blocked -/

def choiceWithoutPending : Act → Choice
  | .query (.pendingPrivateMessages _ _) => .fail []
  | action => usualChoice action

def amysHello : PrivateItem :=
  .message ⟨1, ⟨.privateMessage, utf8 "amy", utf8 "bob", utf8 "hello", 0⟩⟩

def bobWithholds : List (Move ConnId Choice Request) :=
  let commands : List (ConnId × Request) := bobBlocksAmy.dropLast ++ [(1, .disconnect),
    (0, .privateMessage (utf8 "bob hello")), (2, .connect), (2, .login (utf8 "bob pass")),
    (2, .blockFriend (utf8 "amy"))]
  commands.flatMap fun (conn, request) => serveMoves conn request

end ChatRoom
