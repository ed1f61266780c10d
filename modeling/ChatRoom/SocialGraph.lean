import ChatRoom.Proof.Warrants

/-! # The social graph -/

namespace ChatRoom

open Interleaving Transition

variable {left right requester target blocker blocked : Bytes} {result : Bool}

/-! ### Unordered pairs -/

theorem normalizePair_eq_iff {left' right' : Bytes} :
    normalizePair left right = normalizePair left' right' ↔
      (left, right) = (left', right') ∨ (left, right) = (right', left') := by
  unfold normalizePair
  split <;> split <;> grind

theorem normalizePair_comm (left right : Bytes) :
    normalizePair left right = normalizePair right left :=
  normalizePair_eq_iff.mpr (.inr rfl)

theorem normalizePair_lt (hne : left ≠ right) :
    (normalizePair left right).1 < (normalizePair left right).2 := by
  unfold normalizePair
  split
  · rename_i hle
    refine List.not_le.mp fun hge => hne ?_
    exact List.le_antisymm hle hge
  · rename_i hgt
    exact List.not_le.mp hgt

theorem normalizePair_forall {p : Bytes → Prop} :
    p (normalizePair left right).1 ∧ p (normalizePair left right).2 ↔ p left ∧ p right := by
  unfold normalizePair
  split
  · rfl
  · exact and_comm

namespace Database

theorem mem_friendRequests {db : Database} :
    db.hasFriendRequest requester target = true ↔ (requester, target) ∈ db.friendRequests :=
  List.contains_iff_mem

theorem mem_friendBlocks {db : Database} :
    db.isFriendBlocked blocker blocked = true ↔ (blocker, blocked) ∈ db.friendBlocks :=
  List.contains_iff_mem

theorem mem_friendships {db : Database} :
    db.areFriends left right = true ↔ normalizePair left right ∈ db.friendships :=
  List.contains_iff_mem

end Database

/-! ### The invariant -/

def Database.JoinsUsers (db : Database) (row : Bytes × Bytes) : Prop :=
  db.userExists row.1 = true ∧ db.userExists row.2 = true

structure SocialGraph (db : Database) : Prop where
  requestUsers : ∀ row ∈ db.friendRequests, db.JoinsUsers row
  friendUsers : ∀ row ∈ db.friendships, db.JoinsUsers row
  blockUsers : ∀ row ∈ db.friendBlocks, db.JoinsUsers row
  requestEnds : ∀ row ∈ db.friendRequests, row.1 ≠ row.2
  blockEnds : ∀ row ∈ db.friendBlocks, row.1 ≠ row.2
  /-- The lower name comes first, so no friendship is a self edge. -/
  friendOrder : ∀ row ∈ db.friendships, row.1 < row.2
  friendOnce : db.friendships.Nodup
  apart : ∀ row ∈ db.friendRequests, db.areFriends row.1 row.2 = false
  oneWay : ∀ row ∈ db.friendRequests, (row.2, row.1) ∉ db.friendRequests
  blockedFriends : ∀ row ∈ db.friendBlocks, db.areFriends row.1 row.2 = true

theorem socialGraph_empty : SocialGraph {} := by
  constructor <;> simp

namespace SocialGraph

variable {db db' : Database}

section

variable (h : SocialGraph db)
include h

theorem of_users
    (husers : ∀ username, db.userExists username = true → db'.userExists username = true)
    (hrequests : db'.friendRequests = db.friendRequests)
    (hfriendships : db'.friendships = db.friendships)
    (hblocks : db'.friendBlocks = db.friendBlocks) : SocialGraph db' := by
  have hjoins : ∀ row, db.JoinsUsers row → db'.JoinsUsers row := fun row hrow =>
    ⟨husers row.1 hrow.1, husers row.2 hrow.2⟩
  have hfriends : db'.areFriends = db.areFriends := by
    funext left right
    rw [Database.areFriends, hfriendships]
    rfl
  refine ⟨?_, ?_, ?_, ?_, ?_, ?_, ?_, ?_, ?_, ?_⟩
  all_goals simp only [hrequests, hfriendships, hblocks, hfriends]
  · exact fun row hrow => hjoins row (h.requestUsers row hrow)
  · exact fun row hrow => hjoins row (h.friendUsers row hrow)
  · exact fun row hrow => hjoins row (h.blockUsers row hrow)
  · exact h.requestEnds
  · exact h.blockEnds
  · exact h.friendOrder
  · exact h.friendOnce
  · exact h.apart
  · exact h.oneWay
  · exact h.blockedFriends

theorem shrink (hrequests : db'.friendRequests ⊆ db.friendRequests)
    (hfriendships : db'.friendships.Sublist db.friendships)
    (hblocks : db'.friendBlocks ⊆ db.friendBlocks)
    (husers : ∀ row ∈ db'.friendRequests ++ db'.friendships ++ db'.friendBlocks,
      db.JoinsUsers row → db'.JoinsUsers row)
    (hblocked : ∀ row ∈ db'.friendBlocks, db'.areFriends row.1 row.2 = true) :
    SocialGraph db' where
  requestUsers row hrow :=
    husers row (by simp [hrow]) (h.requestUsers row (hrequests hrow))
  friendUsers row hrow :=
    husers row (by simp [hrow]) (h.friendUsers row (hfriendships.subset hrow))
  blockUsers row hrow := husers row (by simp [hrow]) (h.blockUsers row (hblocks hrow))
  requestEnds row hrow := h.requestEnds row (hrequests hrow)
  blockEnds row hrow := h.blockEnds row (hblocks hrow)
  friendOrder row hrow := h.friendOrder row (hfriendships.subset hrow)
  friendOnce := h.friendOnce.sublist hfriendships
  apart row hrow := by
    have hapart := h.apart row (hrequests hrow)
    rw [← Bool.not_eq_true] at hapart ⊢
    exact fun hfriends => hapart (Database.mem_friendships.mpr
      (hfriendships.subset (Database.mem_friendships.mp hfriends)))
  oneWay row hrow := fun hreverse => h.oneWay row (hrequests hrow) (hrequests hreverse)
  blockedFriends := hblocked

theorem addFriendRequest {result : Unit} (hfriends : db.areFriends requester target = false)
    (hreverse : db.hasFriendRequest target requester = false)
    (happly : db.addFriendRequest requester target = .ok (result, db')) : SocialGraph db' := by
  unfold Database.addFriendRequest at happly
  split at happly
  · cases happly
  rename_i hguard
  cases happly
  simp only [Bool.or_eq_true, Bool.not_eq_true', decide_eq_true_eq, not_or, Bool.not_eq_false,
    Bool.not_eq_true] at hguard
  obtain ⟨⟨⟨-, hrequester⟩, htarget⟩, hne⟩ := hguard
  have hnew : (target, requester) ∉ db.friendRequests := by
    rw [← Database.mem_friendRequests, hreverse]
    exact Bool.false_ne_true
  refine ⟨?_, h.friendUsers, h.blockUsers, ?_, h.blockEnds, h.friendOrder, h.friendOnce, ?_, ?_,
    h.blockedFriends⟩
  all_goals simp only [List.forall_mem_append, List.forall_mem_singleton]
  · exact ⟨h.requestUsers, hrequester, htarget⟩
  · exact ⟨h.requestEnds, hne⟩
  · exact ⟨h.apart, hfriends⟩
  · simp only [List.mem_append, List.mem_singleton, Prod.mk.injEq, not_or]
    refine ⟨fun row hrow => ⟨h.oneWay row hrow, ?_⟩, hnew, fun heq => hne heq.2⟩
    rintro ⟨rfl, rfl⟩
    exact hnew hrow

theorem acceptFriendRequest {result : Unit}
    (happly : db.acceptFriendRequest requester target = .ok (result, db')) : SocialGraph db' := by
  unfold Database.acceptFriendRequest at happly
  split at happly
  · cases happly
  split at happly
  · cases happly
  rename_i hrequest hguard
  cases happly
  simp only [Bool.or_eq_true, Bool.not_eq_true', decide_eq_true_eq, not_or, Bool.not_eq_false,
    Bool.not_eq_true] at hrequest hguard
  obtain ⟨⟨⟨hapart, hrequester⟩, htarget⟩, hne⟩ := hguard
  have hrequest : (requester, target) ∈ db.friendRequests :=
    Database.mem_friendRequests.mp hrequest
  have hfresh : normalizePair requester target ∉ db.friendships := by
    rw [← Database.mem_friendships, hapart]
    exact Bool.false_ne_true
  have hfriends : ∀ left right,
      Database.areFriends { db with
        friendRequests := db.friendRequests.filter fun row => row ≠ (requester, target)
        friendships := db.friendships ++ [normalizePair requester target] } left right = true ↔
      db.areFriends left right = true ∨
        normalizePair left right = normalizePair requester target := by
    intro left right
    rw [Database.mem_friendships, Database.mem_friendships, List.mem_append, List.mem_singleton]
  refine ⟨?_, ?_, h.blockUsers, ?_, h.blockEnds, ?_, ?_, ?_, ?_, ?_⟩
  · exact fun row hrow => h.requestUsers row (List.mem_of_mem_filter hrow)
  · rw [List.forall_mem_append, List.forall_mem_singleton]
    exact ⟨h.friendUsers,
      (normalizePair_forall (p := fun name => db.userExists name = true)).mpr
        ⟨hrequester, htarget⟩⟩
  · exact fun row hrow => h.requestEnds row (List.mem_of_mem_filter hrow)
  · rw [List.forall_mem_append, List.forall_mem_singleton]
    exact ⟨h.friendOrder, normalizePair_lt hne⟩
  · exact List.nodup_append.mpr ⟨h.friendOnce, List.nodup_singleton _, by
      rintro row hrow _ hnew rfl
      exact hfresh (List.mem_singleton.mp hnew ▸ hrow)⟩
  · intro row hrow
    obtain ⟨hrow, hother⟩ := List.mem_filter.mp hrow
    rw [← Bool.not_eq_true, hfriends, not_or, Bool.not_eq_true]
    refine ⟨h.apart row hrow, fun hpair => ?_⟩
    rcases normalizePair_eq_iff.mp hpair with hsame | hswap
    · exact of_decide_eq_true hother hsame
    · have hrow : (target, requester) ∈ db.friendRequests := hswap ▸ hrow
      exact h.oneWay _ hrequest hrow
  · intro row hrow hreverse
    exact h.oneWay row (List.mem_of_mem_filter hrow) (List.mem_of_mem_filter hreverse)
  · exact fun row hrow => (hfriends _ _).mpr (.inl (h.blockedFriends row hrow))

theorem rejectFriendRequest (happly : db.rejectFriendRequest requester target = .ok (result, db')) :
    SocialGraph db' := by
  cases happly
  exact h.shrink (List.filter_subset_self _) (List.Sublist.refl _) (List.Subset.refl _)
    (fun _ _ hrow => hrow) h.blockedFriends

theorem removeFriendship (happly : db.removeFriendship left right = .ok (result, db')) :
    SocialGraph db' := by
  unfold Database.removeFriendship at happly
  split at happly
  · cases happly
    refine h.shrink (List.Subset.refl _) List.filter_sublist (List.filter_subset_self _)
      (fun _ _ hrow => hrow) fun row hrow => ?_
    obtain ⟨hrow, hother⟩ := List.mem_filter.mp hrow
    obtain ⟨hforth, hback⟩ := of_decide_eq_true hother
    refine Database.mem_friendships.mpr (List.mem_filter.mpr
      ⟨Database.mem_friendships.mp (h.blockedFriends row hrow), decide_eq_true fun hpair => ?_⟩)
    rcases normalizePair_eq_iff.mp hpair with hsame | hswap
    · exact hforth hsame
    · exact hback hswap
  · cases happly
    exact h

theorem addFriendBlock (hfriends : db.areFriends blocker blocked = true)
    (happly : db.addFriendBlock blocker blocked = .ok (result, db')) : SocialGraph db' := by
  unfold Database.addFriendBlock at happly
  split at happly
  · cases happly
    exact h
  rename_i hguard
  cases happly
  simp only [Bool.or_eq_true, Bool.not_eq_true', decide_eq_true_eq, not_or, Bool.not_eq_false,
    Bool.not_eq_true] at hguard
  obtain ⟨⟨⟨-, hblocker⟩, hblocked⟩, hne⟩ := hguard
  refine ⟨h.requestUsers, h.friendUsers, ?_, h.requestEnds, ?_, h.friendOrder, h.friendOnce, h.apart,
    h.oneWay, ?_⟩
  all_goals simp only [List.forall_mem_append, List.forall_mem_singleton]
  · exact ⟨h.blockUsers, hblocker, hblocked⟩
  · exact ⟨h.blockEnds, hne⟩
  · exact ⟨h.blockedFriends, hfriends⟩

theorem removeFriendBlock (happly : db.removeFriendBlock blocker blocked = .ok (result, db')) :
    SocialGraph db' := by
  cases happly
  exact h.shrink (List.Subset.refl _) (List.Sublist.refl _) (List.filter_subset_self _)
    (fun _ _ hrow => hrow) fun row hrow => h.blockedFriends row (List.mem_of_mem_filter hrow)

theorem deleteUser {username : Bytes} (happly : db.deleteUser username = .ok (result, db')) :
    SocialGraph db' := by
  unfold Database.deleteUser at happly
  dsimp only at happly
  split at happly
  · cases happly
    exact h
  cases happly
  have hends : ∀ {rows : List (Bytes × Bytes)} {row : Bytes × Bytes},
      row ∈ (rows.filter fun row => row.1 ≠ username ∧ row.2 ≠ username) →
      row ∈ rows ∧ row.1 ≠ username ∧ row.2 ≠ username := by
    intro rows row hrow
    obtain ⟨hrow, hkept⟩ := List.mem_filter.mp hrow
    exact ⟨hrow, of_decide_eq_true hkept⟩
  refine h.shrink (List.filter_subset_self _) List.filter_sublist (List.filter_subset_self _) ?_ ?_
  · intro row hrow ⟨hfirst, hsecond⟩
    have hends : row.1 ≠ username ∧ row.2 ≠ username := by
      rcases List.mem_append.mp hrow with hrow | hrow
      · rcases List.mem_append.mp hrow with hrow | hrow
        · exact (hends hrow).2
        · exact (hends hrow).2
      · exact (hends hrow).2
    exact ⟨Database.userExists_filter hends.1 hfirst, Database.userExists_filter hends.2 hsecond⟩
  · intro row hrow
    obtain ⟨hrow, hends⟩ := hends hrow
    have hfriends := Database.mem_friendships.mp (h.blockedFriends row hrow)
    refine Database.mem_friendships.mpr (List.mem_filter.mpr ⟨hfriends, decide_eq_true ?_⟩)
    exact (normalizePair_forall (p := fun name => name ≠ username)).mpr hends

theorem performs {crypto : Crypto} {task : Task} {u : Update}
    (hperforms : Performs crypto task u db db') : SocialGraph db' := by
  obtain ⟨hwarranted, result, happly⟩ := hperforms
  cases u with
  | createUser username passwordHash =>
    have husers : ∀ other, db.userExists other = true → db'.userExists other = true :=
      fun _ => Database.apply_userExists (by simp) happly
    simp only [Database.apply, Database.createUser] at happly
    split at happly <;> cases happly
    exact h.of_users husers rfl rfl rfl
  | deleteUser => exact h.deleteUser happly
  | addFriendRequest =>
    obtain ⟨-, -, hfriends, hreverse⟩ := hwarranted.entitled rfl
    exact h.addFriendRequest hfriends hreverse happly
  | acceptFriendRequest => exact h.acceptFriendRequest happly
  | rejectFriendRequest => exact h.rejectFriendRequest happly
  | removeFriendship => exact h.removeFriendship happly
  | addFriendBlock =>
    obtain ⟨-, -, hfriends⟩ := hwarranted.entitled rfl
    exact h.addFriendBlock hfriends happly
  | removeFriendBlock => exact h.removeFriendBlock happly
  | _ =>
    have hframed := Database.apply_framed happly
    refine h.of_users (fun username => Database.apply_userExists (by simp) happly)
      (hframed.requests rfl) (hframed.direct rfl).1 (hframed.direct rfl).2

end

end SocialGraph

/-- **The social graph stays consistent.** In every run of commands that run one at a time, whatever
the environment does about them, the invariant holds in every state that is reached. -/
theorem social_graph_invariant {config : ServerConfig} {useCache : Bool} {db : Database}
    {store : Store} {events : List ServerEvent} {state : ServerConfiguration}
    (hstart : SocialGraph db)
    (hrun : Run (server config useCache).next Alone (initial db store) events state) :
    SocialGraph state.shared.db :=
  tables_invariant (fun _ _ _ _ hperforms h => h.performs hperforms) hstart hrun

def bobBlocksAmy : List (ConnId × Request) :=
  [(0, .connect), (0, .register (utf8 "amy pass")), (0, .login (utf8 "amy pass")),
    (1, .connect), (1, .register (utf8 "bob pass")), (1, .login (utf8 "bob pass")),
    (1, .addFriend (utf8 "amy")), (0, .acceptFriend (utf8 "bob")), (1, .blockFriend (utf8 "amy"))]

theorem social_graph_bob_blocks_amy :
    ∃ events state, Run (server scriptConfig true).next Alone (initial {} {}) events state ∧
      state.shared.db.friendships = [(utf8 "amy", utf8 "bob")] ∧
      state.shared.db.friendBlocks = [(utf8 "bob", utf8 "amy")] ∧
      SocialGraph state.shared.db := by
  have hserved : ((serveAll (server scriptConfig true) usualFeed { db := {}, store := {} }
      (served bobBlocksAmy)).any fun s =>
        decide (s.db.friendships = [(utf8 "amy", utf8 "bob")] ∧
          s.db.friendBlocks = [(utf8 "bob", utf8 "amy")])) = true := by
    decide +kernel
  obtain ⟨events, state, hrun, -, htest⟩ := served_alone hserved
  obtain ⟨hfriendships, hblocks⟩ := of_decide_eq_true htest
  exact ⟨events, state, hrun, hfriendships, hblocks, social_graph_invariant socialGraph_empty hrun⟩

end ChatRoom
