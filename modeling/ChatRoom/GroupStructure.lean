import ChatRoom.Proof.Warrants

/-!
# The structure of groups

A group's owner is recorded twice, in the group's row and as the role of a member. The handlers
check roles, the database layer writes, and account deletion reaches groups and memberships through
cascades only.
-/

namespace ChatRoom

open Interleaving Transition

variable {result : Bool}

def GroupMember.key (row : GroupMember) : Nat × Bytes := (row.groupId, row.username)

namespace GroupMember

def become (group : Nat) (username : Bytes) (role : GroupRole) (row : GroupMember) : GroupMember :=
  if row.groupId = group ∧ row.username = username then { row with role } else row

variable (group : Nat) (username : Bytes) (role : GroupRole) (row : GroupMember)

theorem key_become : (row.become group username role).key = row.key := by
  unfold become
  split <;> rfl

theorem groupId_become : (row.become group username role).groupId = row.groupId :=
  congrArg Prod.fst (key_become group username role row)

theorem username_become : (row.become group username role).username = row.username :=
  congrArg Prod.snd (key_become group username role row)

end GroupMember

def Database.roleIn (db : Database) (group : Nat) (username : Bytes) : Option GroupRole :=
  (db.members.find? fun row => row.key = (group, username)).map GroupMember.role

structure GroupStructure (db : Database) : Prop where
  namesOnce : (db.groups.map GroupInfo.name).Nodup
  idsOnce : (db.groups.map GroupInfo.id).Nodup
  idsIssued : ∀ group ∈ db.groups, group.id < db.nextGroupId
  membersOnce : (db.members.map GroupMember.key).Nodup
  memberGroups : ∀ row ∈ db.members, ∃ group ∈ db.groups, group.id = row.groupId
  applicantGroups : ∀ row ∈ db.joinRequests, ∃ group ∈ db.groups, group.id = row.1
  memberUsers : ∀ row ∈ db.members, db.userExists row.username = true
  applicantUsers : ∀ row ∈ db.joinRequests, db.userExists row.2 = true
  /-- The owner of a group is a member of it with the role of an owner. -/
  owners : ∀ group ∈ db.groups, ⟨group.id, group.ownerUsername, .owner⟩ ∈ db.members
  onlyOwners : ∀ row ∈ db.members, row.role = .owner →
    ∀ group ∈ db.groups, group.id = row.groupId → group.ownerUsername = row.username
  apart : ∀ row ∈ db.members, row.key ∉ db.joinRequests

theorem groupStructure_empty : GroupStructure {} := by
  constructor <;> simp

namespace Database

variable {db : Database} {group : Nat} {groupName username : Bytes} {role : GroupRole}

theorem mem_of_roleIn (hrole : db.roleIn group username = some role) :
    ⟨group, username, role⟩ ∈ db.members := by
  obtain ⟨row, hfind, rfl⟩ := Option.map_eq_some_iff.mp hrole
  have hkey : row.key = (group, username) := by simpa using List.find?_some hfind
  obtain ⟨rfl, rfl⟩ := Prod.mk.inj hkey
  exact List.mem_of_find?_eq_some hfind

theorem roleIn_eq_none :
    db.roleIn group username = none ↔ ∀ row ∈ db.members, row.key ≠ (group, username) := by
  simp [roleIn]

theorem groupIdByName_eq_some {id : Nat} (hid : db.groupIdByName groupName = some id) :
    ∃ info ∈ db.groups, info.name = groupName ∧ info.id = id := by
  obtain ⟨info, hfind, hid⟩ := Option.map_eq_some_iff.mp hid
  have hname : info.name = groupName := by simpa using List.find?_some hfind
  exact ⟨info, List.mem_of_find?_eq_some hfind, hname, hid⟩

theorem getGroupRole_of_id {id : Nat} (hid : db.groupIdByName groupName = some id) :
    db.getGroupRole groupName username = db.roleIn id username := by
  unfold getGroupRole groupMembers roleIn
  rw [hid, List.find?_filter]
  congr 3
  funext row
  simp [GroupMember.key]

end Database

namespace GroupStructure

variable {db db' : Database}

section

variable (h : GroupStructure db)
include h

theorem roleIn_of_mem {row : GroupMember} (hrow : row ∈ db.members) :
    db.roleIn row.groupId row.username = some row.role := by
  cases hrole : db.roleIn row.groupId row.username with
  | none => exact absurd rfl (Database.roleIn_eq_none.mp hrole row hrow)
  | some role =>
    have hsame := List.inj_on_of_nodup_map h.membersOnce hrow (Database.mem_of_roleIn hrole) rfl
    rw [hsame]

theorem role_unique {group : Nat} {username : Bytes} {role : GroupRole}
    (hrole : db.roleIn group username = some role) {row : GroupMember} (hrow : row ∈ db.members)
    (hkey : row.key = (group, username)) : row.role = role := by
  obtain ⟨rfl, rfl⟩ := Prod.mk.inj hkey
  exact Option.some.inj ((h.roleIn_of_mem hrow).symm.trans hrole)

/-! ### Preservation -/

theorem shrink (hgroups : db'.groups.Sublist db.groups) (hissued : db'.nextGroupId = db.nextGroupId)
    (hmembers : db'.members.Sublist db.members) (hrequests : db'.joinRequests ⊆ db.joinRequests)
    (hmemberGroups : ∀ row ∈ db'.members, ∃ group ∈ db'.groups, group.id = row.groupId)
    (happlicantGroups : ∀ row ∈ db'.joinRequests, ∃ group ∈ db'.groups, group.id = row.1)
    (hmemberUsers : ∀ row ∈ db'.members, db'.userExists row.username = true)
    (happlicantUsers : ∀ row ∈ db'.joinRequests, db'.userExists row.2 = true)
    (howners : ∀ group ∈ db'.groups, ⟨group.id, group.ownerUsername, .owner⟩ ∈ db'.members) :
    GroupStructure db' where
  namesOnce := h.namesOnce.sublist (hgroups.map _)
  idsOnce := h.idsOnce.sublist (hgroups.map _)
  idsIssued group hgroup := hissued ▸ h.idsIssued group (hgroups.subset hgroup)
  membersOnce := h.membersOnce.sublist (hmembers.map _)
  memberGroups := hmemberGroups
  applicantGroups := happlicantGroups
  memberUsers := hmemberUsers
  applicantUsers := happlicantUsers
  owners := howners
  onlyOwners row hrow hrole group hgroup :=
    h.onlyOwners row (hmembers.subset hrow) hrole group (hgroups.subset hgroup)
  apart row hrow hrequest := h.apart row (hmembers.subset hrow) (hrequests hrequest)

theorem of_users
    (husers : ∀ username, db.userExists username = true → db'.userExists username = true)
    (hgroups : db'.groups = db.groups) (hmembers : db'.members = db.members)
    (hrequests : db'.joinRequests = db.joinRequests) (hissued : db'.nextGroupId = db.nextGroupId) :
    GroupStructure db' := by
  refine h.shrink (by rw [hgroups]) hissued (by rw [hmembers]) (by rw [hrequests]; exact fun _ => id)
    ?_ ?_ ?_ ?_ ?_
  · rw [hmembers, hgroups]
    exact h.memberGroups
  · rw [hrequests, hgroups]
    exact h.applicantGroups
  · rw [hmembers]
    exact fun row hrow => husers _ (h.memberUsers row hrow)
  · rw [hrequests]
    exact fun row hrow => husers _ (h.applicantUsers row hrow)
  · rw [hmembers, hgroups]
    exact h.owners

theorem deleteGroups (gone : GroupInfo → Bool) : GroupStructure (db.deleteGroups gone) := by
  have hgone : ∀ group ∈ db.groups, gone group = false →
      (db.groups.any fun other => gone other && other.id = group.id) = false := by
    intro group hgroup hstays
    rw [← Bool.not_eq_true, List.any_eq_true]
    rintro ⟨other, hother, htest⟩
    rw [Bool.and_eq_true, decide_eq_true_eq] at htest
    have hsame := List.inj_on_of_nodup_map h.idsOnce hother hgroup htest.2
    rw [hsame, hstays] at htest
    exact Bool.false_ne_true htest.1
  have hleft : ∀ id, (∃ group ∈ db.groups, group.id = id) →
      (!db.groups.any fun other => gone other && other.id = id) = true →
      ∃ group ∈ (db.deleteGroups gone).groups, group.id = id := by
    rintro id ⟨group, hgroup, rfl⟩ hkept
    refine ⟨group, List.mem_filter.mpr ⟨hgroup, ?_⟩, rfl⟩
    rw [Bool.not_eq_true', ← Bool.not_eq_true, List.any_eq_true] at hkept
    rw [Bool.not_eq_true', ← Bool.not_eq_true]
    exact fun hgone => hkept ⟨group, hgroup, by simp [hgone]⟩
  refine h.shrink List.filter_sublist rfl List.filter_sublist (List.filter_subset_self _) ?_ ?_ ?_ ?_ ?_
  · intro row hrow
    obtain ⟨hrow, hkept⟩ := List.mem_filter.mp hrow
    exact hleft _ (h.memberGroups row hrow) hkept
  · intro row hrow
    obtain ⟨hrow, hkept⟩ := List.mem_filter.mp hrow
    exact hleft _ (h.applicantGroups row hrow) hkept
  · exact fun row hrow => h.memberUsers row (List.mem_of_mem_filter hrow)
  · exact fun row hrow => h.applicantUsers row (List.mem_of_mem_filter hrow)
  · intro group hgroup
    obtain ⟨hgroup, hstays⟩ := List.mem_filter.mp hgroup
    rw [Bool.not_eq_true'] at hstays
    refine List.mem_filter.mpr ⟨h.owners group hgroup, ?_⟩
    exact (Bool.not_eq_true' _).mpr (hgone group hgroup hstays)

theorem createGroup {groupName owner : Bytes} {result : Nat}
    (happly : db.createGroup groupName owner = .ok (result, db')) : GroupStructure db' := by
  unfold Database.createGroup at happly
  split at happly
  · cases happly
  rename_i hguard
  cases happly
  simp only [Bool.or_eq_true, Bool.not_eq_true', not_or, Bool.not_eq_true, Bool.not_eq_false,
    Option.isSome_eq_false_iff, Option.isNone_iff_eq_none] at hguard
  obtain ⟨hfree, howner⟩ := hguard
  have hname : ∀ group ∈ db.groups, group.name ≠ groupName := by
    intro group hgroup hname
    exact List.find?_eq_none.mp hfree group hgroup (decide_eq_true hname)
  have hid : ∀ group ∈ db.groups, group.id ≠ db.nextGroupId := fun group hgroup =>
    Nat.ne_of_lt (h.idsIssued group hgroup)
  have hmember : ∀ row ∈ db.members, row.groupId ≠ db.nextGroupId := by
    intro row hrow hnew
    obtain ⟨group, hgroup, hgroupId⟩ := h.memberGroups row hrow
    exact hid group hgroup (hgroupId.trans hnew)
  have happlicant : ∀ row ∈ db.joinRequests, row.1 ≠ db.nextGroupId := by
    intro row hrow hnew
    obtain ⟨group, hgroup, hgroupId⟩ := h.applicantGroups row hrow
    exact hid group hgroup (hgroupId.trans hnew)
  refine ⟨?_, ?_, ?_, ?_, ?_, ?_, ?_, h.applicantUsers, ?_, ?_, ?_⟩
  · rw [List.map_append]
    refine h.namesOnce.append (List.nodup_singleton _) ?_
    simpa [List.disjoint_singleton] using fun group hgroup => hname group hgroup
  · rw [List.map_append]
    refine h.idsOnce.append (List.nodup_singleton _) ?_
    simpa [List.disjoint_singleton] using fun group hgroup => hid group hgroup
  · rw [List.forall_mem_append, List.forall_mem_singleton]
    exact ⟨fun group hgroup => Nat.lt_succ_of_lt (h.idsIssued group hgroup), Nat.lt_succ_self _⟩
  · rw [List.map_append]
    refine h.membersOnce.append (List.nodup_singleton _) ?_
    simpa [List.disjoint_singleton, GroupMember.key] using
      fun row hrow hnew => absurd hnew (hmember row hrow)
  · rw [List.forall_mem_append, List.forall_mem_singleton]
    refine ⟨fun row hrow => ?_, ⟨_, List.mem_append_right _ (List.mem_singleton_self _), rfl⟩⟩
    obtain ⟨group, hgroup, hgroupId⟩ := h.memberGroups row hrow
    exact ⟨group, List.mem_append_left _ hgroup, hgroupId⟩
  · intro row hrow
    obtain ⟨group, hgroup, hgroupId⟩ := h.applicantGroups row hrow
    exact ⟨group, List.mem_append_left _ hgroup, hgroupId⟩
  · rw [List.forall_mem_append, List.forall_mem_singleton]
    exact ⟨h.memberUsers, howner⟩
  · rw [List.forall_mem_append, List.forall_mem_singleton]
    refine ⟨fun group hgroup => List.mem_append_left _ (h.owners group hgroup), ?_⟩
    exact List.mem_append_right _ (List.mem_singleton_self _)
  · simp only [List.forall_mem_append, List.forall_mem_singleton]
    refine ⟨fun row hrow hrole => ⟨h.onlyOwners row hrow hrole, fun hnew => ?_⟩,
      fun _ => ⟨fun group hgroup hold => ?_, fun _ => trivial⟩⟩
    · exact absurd hnew.symm (hmember row hrow)
    · exact absurd hold (hid group hgroup)
  · rw [List.forall_mem_append, List.forall_mem_singleton]
    exact ⟨h.apart, fun hrequest => happlicant _ hrequest rfl⟩

theorem addGroupJoinRequest {groupName username : Bytes} {result : Unit}
    (hrole : db.getGroupRole groupName username = none)
    (happly : db.addGroupJoinRequest groupName username = .ok (result, db')) :
    GroupStructure db' := by
  unfold Database.addGroupJoinRequest at happly
  split at happly
  · cases happly
  rename_i id hid
  split at happly
  · cases happly
  rename_i hguard
  cases happly
  simp only [Bool.or_eq_true, Bool.not_eq_true', not_or, Bool.not_eq_true, Bool.not_eq_false] at hguard
  obtain ⟨info, hinfo, -, rfl⟩ := Database.groupIdByName_eq_some hid
  rw [Database.getGroupRole_of_id hid, Database.roleIn_eq_none] at hrole
  refine ⟨h.namesOnce, h.idsOnce, h.idsIssued, h.membersOnce, h.memberGroups, ?_, h.memberUsers, ?_,
    h.owners, h.onlyOwners, ?_⟩
  · rw [List.forall_mem_append, List.forall_mem_singleton]
    exact ⟨h.applicantGroups, info, hinfo, rfl⟩
  · rw [List.forall_mem_append, List.forall_mem_singleton]
    exact ⟨h.applicantUsers, hguard.2⟩
  · intro row hrow
    rw [List.mem_append, List.mem_singleton, not_or]
    exact ⟨h.apart row hrow, hrole row hrow⟩

theorem approveGroupJoinRequest {groupName username : Bytes} {result : Unit}
    (happly : db.approveGroupJoinRequest groupName username = .ok (result, db')) :
    GroupStructure db' := by
  unfold Database.approveGroupJoinRequest at happly
  split at happly
  · cases happly
  rename_i id hid
  split at happly
  · cases happly
  split at happly
  · cases happly
  rename_i hguard
  cases happly
  simp only [Bool.or_eq_true, Bool.not_eq_true', not_or, Bool.not_eq_true, Bool.not_eq_false,
    List.any_eq_false, Bool.and_eq_true, decide_eq_true_eq, not_and] at hguard
  obtain ⟨hnew, huser⟩ := hguard
  obtain ⟨info, hinfo, -, rfl⟩ := Database.groupIdByName_eq_some hid
  refine ⟨h.namesOnce, h.idsOnce, h.idsIssued, ?_, ?_, ?_, ?_, ?_, ?_, ?_, ?_⟩
  · rw [List.map_append]
    refine h.membersOnce.append (List.nodup_singleton _) ?_
    simpa [List.disjoint_singleton, GroupMember.key] using hnew
  · rw [List.forall_mem_append, List.forall_mem_singleton]
    exact ⟨h.memberGroups, info, hinfo, rfl⟩
  · exact fun row hrow => h.applicantGroups row (List.mem_of_mem_filter hrow)
  · rw [List.forall_mem_append, List.forall_mem_singleton]
    exact ⟨h.memberUsers, huser⟩
  · exact fun row hrow => h.applicantUsers row (List.mem_of_mem_filter hrow)
  · exact fun group hgroup => List.mem_append_left _ (h.owners group hgroup)
  · rw [List.forall_mem_append, List.forall_mem_singleton]
    exact ⟨h.onlyOwners, nofun⟩
  · rw [List.forall_mem_append, List.forall_mem_singleton]
    refine ⟨fun row hrow hrequest => h.apart row hrow (List.mem_of_mem_filter hrequest), ?_⟩
    exact fun hrequest => of_decide_eq_true (List.mem_filter.mp hrequest).2 rfl

theorem rejectGroupJoinRequest {groupName username : Bytes}
    (happly : db.rejectGroupJoinRequest groupName username = .ok (result, db')) :
    GroupStructure db' := by
  unfold Database.rejectGroupJoinRequest at happly
  split at happly
  · cases happly
  cases happly
  exact h.shrink (List.Sublist.refl _) rfl (List.Sublist.refl _) (List.filter_subset_self _)
    h.memberGroups (fun row hrow => h.applicantGroups row (List.mem_of_mem_filter hrow))
    h.memberUsers (fun row hrow => h.applicantUsers row (List.mem_of_mem_filter hrow)) h.owners

theorem setGroupMemberRole {groupName username : Bytes} {role former : GroupRole}
    (hformer : db.getGroupRole groupName username = some former) (hmember : former ≠ .owner)
    (hrole : role ≠ .owner)
    (happly : db.setGroupMemberRole groupName username role = .ok (result, db')) :
    GroupStructure db' := by
  unfold Database.setGroupMemberRole at happly
  split at happly
  · cases happly
  rename_i id hid
  cases happly
  rw [Database.getGroupRole_of_id hid] at hformer
  -- the owners' rows are not touched, and no row becomes one
  have howner : ∀ row ∈ db.members, row.role = .owner → row.become id username role = row := by
    intro row hrow hisOwner
    refine if_neg fun hsame => hmember ?_
    rw [← h.role_unique hformer hrow (Prod.ext hsame.1 hsame.2), hisOwner]
  have hnone : ∀ row : GroupMember, (row.become id username role).role = .owner →
      row.role = .owner := by
    intro row
    unfold GroupMember.become
    split
    · exact fun hisOwner => absurd hisOwner hrole
    · exact fun hisOwner => hisOwner
  refine ⟨h.namesOnce, h.idsOnce, h.idsIssued, ?_, ?_, h.applicantGroups, ?_, h.applicantUsers, ?_,
    ?_, ?_⟩
  · change ((db.members.map (GroupMember.become id username role)).map GroupMember.key).Nodup
    have hkeys : GroupMember.key ∘ GroupMember.become id username role = GroupMember.key :=
      funext (GroupMember.key_become id username role)
    rw [List.map_map, hkeys]
    exact h.membersOnce
  · refine List.forall_mem_map.mpr fun row hrow => ?_
    change ∃ group ∈ db.groups, group.id = (row.become id username role).groupId
    rw [GroupMember.groupId_become]
    exact h.memberGroups row hrow
  · refine List.forall_mem_map.mpr fun row hrow => ?_
    change db.userExists (row.become id username role).username = true
    rw [GroupMember.username_become]
    exact h.memberUsers row hrow
  · intro group hgroup
    exact List.mem_map.mpr ⟨_, h.owners group hgroup, howner _ (h.owners group hgroup) rfl⟩
  · refine List.forall_mem_map.mpr fun row hrow hisOwner => ?_
    change ∀ group ∈ db.groups, group.id = (row.become id username role).groupId →
      group.ownerUsername = (row.become id username role).username
    rw [GroupMember.groupId_become, GroupMember.username_become]
    exact h.onlyOwners row hrow (hnone row hisOwner)
  · refine List.forall_mem_map.mpr fun row hrow => ?_
    change (row.become id username role).key ∉ db.joinRequests
    rw [GroupMember.key_become]
    exact h.apart row hrow

theorem removeGroupMember {groupName username : Bytes} {former : GroupRole}
    (hformer : db.getGroupRole groupName username = some former) (hmember : former ≠ .owner)
    (happly : db.removeGroupMember groupName username = .ok (result, db')) :
    GroupStructure db' := by
  unfold Database.removeGroupMember at happly
  split at happly
  · cases happly
  rename_i id hid
  cases happly
  rw [Database.getGroupRole_of_id hid] at hformer
  refine h.shrink (List.Sublist.refl _) rfl List.filter_sublist (List.Subset.refl _)
    (fun row hrow => h.memberGroups row (List.mem_of_mem_filter hrow)) h.applicantGroups
    (fun row hrow => h.memberUsers row (List.mem_of_mem_filter hrow)) h.applicantUsers ?_
  intro group hgroup
  have howner := h.owners group hgroup
  refine List.mem_filter.mpr ⟨howner, decide_eq_true fun hsame => hmember ?_⟩
  exact (h.role_unique hformer howner (Prod.ext hsame.1 hsame.2)).symm

theorem deleteUser {username : Bytes} (happly : db.deleteUser username = .ok (result, db')) :
    GroupStructure db' := by
  unfold Database.deleteUser at happly
  dsimp only at happly
  split at happly
  · cases happly
    exact h
  cases happly
  have hrest := h.deleteGroups fun group => group.ownerUsername = username
  refine hrest.shrink (List.Sublist.refl _) rfl List.filter_sublist (List.filter_subset_self _) ?_ ?_
    ?_ ?_ ?_
  · exact fun row hrow => hrest.memberGroups row (List.mem_of_mem_filter hrow)
  · exact fun row hrow => hrest.applicantGroups row (List.mem_of_mem_filter hrow)
  · intro row hrow
    obtain ⟨hrow, hother⟩ := List.mem_filter.mp hrow
    exact Database.userExists_filter (of_decide_eq_true hother) (hrest.memberUsers row hrow)
  · intro row hrow
    obtain ⟨hrow, hother⟩ := List.mem_filter.mp hrow
    exact Database.userExists_filter (of_decide_eq_true hother) (hrest.applicantUsers row hrow)
  · intro group hgroup
    refine List.mem_filter.mpr ⟨hrest.owners group hgroup, decide_eq_true fun howner => ?_⟩
    have hkept := (List.mem_filter.mp hgroup).2
    rw [Bool.not_eq_true', decide_eq_false_iff_not] at hkept
    exact hkept howner

theorem performs {crypto : Crypto} {task : Task} {u : Update}
    (hperforms : Performs crypto task u db db') : GroupStructure db' := by
  obtain ⟨hwarranted, result, happly⟩ := hperforms
  cases hgrouping : u.grouping with
  | false =>
    obtain ⟨hgroups, hmembers, hrequests, hissued⟩ := (Database.apply_framed happly).groups hgrouping
    refine h.of_users (fun username => Database.apply_userExists ?_ happly) hgroups hmembers
      hrequests hissued
    rintro username rfl
    cases hgrouping
  | true =>
  have hentitled := hwarranted.entitled (Update.not_routine_of_grouping hgrouping)
  cases u with
  | deleteUser => exact h.deleteUser happly
  | createGroup => exact h.createGroup happly
  | dissolveGroup =>
    cases happly
    exact h.deleteGroups _
  | addGroupJoinRequest => exact h.addGroupJoinRequest hentitled.2.2 happly
  | approveGroupJoinRequest => exact h.approveGroupJoinRequest happly
  | rejectGroupJoinRequest => exact h.rejectGroupJoinRequest happly
  | setGroupMemberRole =>
    obtain ⟨owner, -, -, ⟨-, rfl, hformer⟩ | ⟨-, rfl, hformer⟩⟩ := hentitled
    · exact h.setGroupMemberRole hformer (by decide) (by decide) happly
    · exact h.setGroupMemberRole hformer (by decide) (by decide) happly
  | removeGroupMember =>
    obtain ⟨role, hformer, hrole, -⟩ := hentitled
    exact h.removeGroupMember hformer hrole happly
  | _ => cases hgrouping

end

end GroupStructure

/-- **Groups stay well structured.** In every run of commands that run one at a time, whatever the
environment does about them, the structure holds in every state that is reached. -/
theorem group_structure_invariant {config : ServerConfig} {useCache : Bool} {db : Database}
    {store : Store} {events : List ServerEvent} {state : ServerConfiguration}
    (hstart : GroupStructure db)
    (hrun : Run (server config useCache).next Alone (initial db store) events state) :
    GroupStructure state.shared.db :=
  tables_invariant (fun _ _ _ _ hperforms h => h.performs hperforms) hstart hrun

def amysGroup : List (ConnId × Request) :=
  [(0, .connect), (0, .register (utf8 "amy pass")), (0, .login (utf8 "amy pass")),
    (1, .connect), (1, .register (utf8 "bob pass")), (1, .login (utf8 "bob pass")),
    (2, .connect), (2, .register (utf8 "cat pass")), (2, .login (utf8 "cat pass")),
    (0, .createGroup (utf8 "gang")), (1, .applyGroup (utf8 "gang")), (2, .applyGroup (utf8 "gang")),
    (0, .approveGroup (utf8 "gang bob")), (0, .addGroupAdmin (utf8 "gang bob"))]

theorem group_structure_amys_group :
    ∃ events state, Run (server scriptConfig true).next Alone (initial {} {}) events state ∧
      state.shared.db.members = [⟨1, utf8 "amy", .owner⟩, ⟨1, utf8 "bob", .admin⟩] ∧
      state.shared.db.joinRequests = [(1, utf8 "cat")] ∧ GroupStructure state.shared.db := by
  have hserved : ((serveAll (server scriptConfig true) usualFeed { db := {}, store := {} }
      (served amysGroup)).any fun s =>
        decide (s.db.members = [⟨1, utf8 "amy", .owner⟩, ⟨1, utf8 "bob", .admin⟩] ∧
          s.db.joinRequests = [(1, utf8 "cat")])) = true := by
    decide +kernel
  obtain ⟨events, state, hrun, -, htest⟩ := served_alone hserved
  obtain ⟨hmembers, hrequests⟩ := of_decide_eq_true htest
  exact ⟨events, state, hrun, hmembers, hrequests,
    group_structure_invariant groupStructure_empty hrun⟩

end ChatRoom
