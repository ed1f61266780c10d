import ChatRoom.GroupStructure

/-! # Who may change the membership of a group -/

namespace ChatRoom

open Interleaving Transition

variable {groupName target : Bytes} {result : Bool}

def Database.hasGroup (db : Database) (group : Nat) : Bool := db.groups.any fun info => info.id = group

/-- The membership of a user in a group changes, or the group disappears. -/
def MembershipChanges (db db' : Database) (group : Nat) (username : Bytes) : Prop :=
  db'.roleIn group username ≠ db.roleIn group username ∨
    db.hasGroup group = true ∧ db'.hasGroup group = false

/-- The commands that may change the membership of a user in a group, with what the tables have to
say for them. `submitted` stands for the request that an approval needs. -/
inductive Authorised (crypto : Crypto) (submitted : Prop) (task : Task) (db db' : Database)
    (group : Nat) (username : Bytes) : Prop where
  | creates (hruns : task.Runs .createGroup)
      (hacts : task.ActsFor username) (hnew : db.hasGroup group = false)
      (hbecomes : db'.roleIn group username = some .owner)
  | approved {manager : Bytes} {role : GroupRole} (hruns : task.Runs .approveGroup)
      (hacts : task.ActsFor manager)
      (hrole : db.roleIn group manager = some role) (hmanages : role = .owner ∨ role = .admin)
      (hpending : (group, username) ∈ db.joinRequests) (hsubmitted : submitted)
      (hformer : db.roleIn group username = none)
      (hbecomes : db'.roleIn group username = some .member)
  | leaves {role : GroupRole} (hruns : task.Runs .leaveGroup)
      (hacts : task.ActsFor username) (hrole : db.roleIn group username = some role)
      (howner : role ≠ .owner) (hbecomes : db'.roleIn group username = none)
  | removed {manager : Bytes} {managerRole role : GroupRole}
      (hruns : task.Runs .removeGroupMember) (hacts : task.ActsFor manager)
      (hmanager : db.roleIn group manager = some managerRole)
      (hrole : db.roleIn group username = some role)
      (hmay : managerRole = .owner ∧ role ≠ .owner ∨ managerRole = .admin ∧ role = .member)
      (hbecomes : db'.roleIn group username = none)
  | promoted {owner : Bytes} (hruns : task.Runs .addGroupAdmin)
      (hacts : task.ActsFor owner) (howner : db.roleIn group owner = some .owner)
      (hformer : db.roleIn group username = some .member)
      (hbecomes : db'.roleIn group username = some .admin)
  | demoted {owner : Bytes} (hruns : task.Runs .removeGroupAdmin)
      (hacts : task.ActsFor owner) (howner : db.roleIn group owner = some .owner)
      (hformer : db.roleIn group username = some .admin)
      (hbecomes : db'.roleIn group username = some .member)
  | dissolved {owner : Bytes} (hruns : task.Runs .dissolveGroup)
      (hacts : task.ActsFor owner) (howner : db.roleIn group owner = some .owner)
      (hgone : db'.hasGroup group = false)
  | deletesOwnAccount (hacts : task.ActsFor username) (hpassword : task.GaveItsPassword crypto db)
  | ownerDeletesAccount {owner : Bytes} (hacts : task.ActsFor owner)
      (hpassword : task.GaveItsPassword crypto db) (howner : db.roleIn group owner = some .owner)
      (hgone : db'.hasGroup group = false)

/-! ### What updates do to memberships -/

section Effects

variable {db db' : Database} {group : Nat} {username : Bytes}

theorem GroupStructure.roleIn_eq_some_iff (h : GroupStructure db) {role : GroupRole} :
    db.roleIn group username = some role ↔ ⟨group, username, role⟩ ∈ db.members :=
  ⟨Database.mem_of_roleIn, fun hrow => h.roleIn_of_mem hrow⟩

theorem GroupStructure.roleIn_congr (h : GroupStructure db) (h' : GroupStructure db')
    (hrows : ∀ role, (⟨group, username, role⟩ : GroupMember) ∈ db'.members ↔
      ⟨group, username, role⟩ ∈ db.members) :
    db'.roleIn group username = db.roleIn group username := by
  ext role
  rw [h.roleIn_eq_some_iff, h'.roleIn_eq_some_iff]
  exact hrows role

theorem MembershipChanges.not_same (hchange : MembershipChanges db db' group username)
    (hrole : db'.roleIn group username = db.roleIn group username)
    (hgroups : db.hasGroup group = true → db'.hasGroup group = true) : False := by
  rcases hchange with hrole' | ⟨hbefore, hafter⟩
  · exact hrole' hrole
  · rw [hgroups hbefore] at hafter
    cases hafter

theorem MembershipChanges.not_same_rows (hchange : MembershipChanges db db' group username)
    (hmembers : db'.members = db.members) (hgroups : db'.groups = db.groups) : False := by
  refine hchange.not_same ?_ fun hgroup => ?_
  · rw [Database.roleIn, hmembers]
    rfl
  · rw [Database.hasGroup, hgroups]
    exact hgroup

theorem GroupStructure.deleteGroups_kept (username : Bytes) {gone : GroupInfo → Bool}
    (hkept : ∀ info ∈ db.groups, info.id = group → gone info = false) :
    (∀ role, (⟨group, username, role⟩ : GroupMember) ∈ (db.deleteGroups gone).members ↔
      ⟨group, username, role⟩ ∈ db.members) ∧
      (db.hasGroup group = true → (db.deleteGroups gone).hasGroup group = true) := by
  have hstays : (db.groups.any fun info => gone info && info.id = group) = false := by
    rw [← Bool.not_eq_true, List.any_eq_true]
    rintro ⟨info, hinfo, htest⟩
    rw [Bool.and_eq_true, decide_eq_true_eq] at htest
    rw [hkept info hinfo htest.2] at htest
    exact Bool.false_ne_true htest.1
  constructor
  · intro role
    refine ⟨List.mem_of_mem_filter, fun hrow => List.mem_filter.mpr ⟨hrow, ?_⟩⟩
    exact (Bool.not_eq_true' _).mpr hstays
  · intro hgroup
    obtain ⟨info, hinfo, hid⟩ := List.any_eq_true.mp hgroup
    refine List.any_eq_true.mpr ⟨info, List.mem_filter.mpr ⟨hinfo, ?_⟩, hid⟩
    rw [hkept info hinfo (of_decide_eq_true hid)]
    rfl

theorem GroupStructure.deleteGroups_gone (h : GroupStructure db) (gone : GroupInfo → Bool)
    {info : GroupInfo} (hinfo : info ∈ db.groups) (hgone : gone info = true) :
    (db.deleteGroups gone).hasGroup info.id = false := by
  rw [← Bool.not_eq_true]
  intro hgroup
  obtain ⟨other, hother, hid⟩ := List.any_eq_true.mp hgroup
  obtain ⟨hother, hkept⟩ := List.mem_filter.mp hother
  have hsame := List.inj_on_of_nodup_map h.idsOnce hother hinfo (of_decide_eq_true hid)
  rw [hsame, hgone] at hkept
  cases hkept

theorem GroupStructure.gone_of_change (h : GroupStructure db) {gone : GroupInfo → Bool}
    (hchange : MembershipChanges db (db.deleteGroups gone) group username) :
    ∃ info ∈ db.groups, info.id = group ∧ gone info = true := by
  by_contra hnone
  have hkept : ∀ info ∈ db.groups, info.id = group → gone info = false := by
    intro info hinfo hid
    rw [← Bool.not_eq_true]
    exact fun hgone => hnone ⟨info, hinfo, hid, hgone⟩
  obtain ⟨hrows, hgroups⟩ := GroupStructure.deleteGroups_kept username hkept
  exact hchange.not_same (h.roleIn_congr (h.deleteGroups gone) hrows) hgroups

end Effects

/-! ### The commands, one by one -/

section Commands

variable {crypto : Crypto} {submitted : Prop} {task : Task} {db db' : Database} {group : Nat}
  {username : Bytes}

theorem authorised_createGroup {owner : Bytes} {result : Nat} (h : GroupStructure db)
    (h' : GroupStructure db') (hruns : task.Runs .createGroup) (hacts : task.ActsFor owner)
    (happly : db.createGroup groupName owner = .ok (result, db'))
    (hchange : MembershipChanges db db' group username) :
    Authorised crypto submitted task db db' group username := by
  unfold Database.createGroup at happly
  split at happly
  · cases happly
  cases happly
  have hkey : (group, username) = (db.nextGroupId, owner) := by
    by_contra hother
    refine hchange.not_same (h.roleIn_congr h' fun role => ?_) fun hgroup => ?_
    · simp only [List.mem_append, List.mem_singleton, GroupMember.mk.injEq, or_iff_left_iff_imp]
      rintro ⟨rfl, rfl, -⟩
      exact absurd rfl hother
    · exact List.any_append.trans (Bool.or_eq_true_iff.mpr (.inl hgroup))
  obtain ⟨rfl, rfl⟩ := Prod.mk.inj hkey
  refine .creates hruns hacts ?_ ?_
  · rw [← Bool.not_eq_true]
    intro hgroup
    obtain ⟨info, hinfo, hid⟩ := List.any_eq_true.mp hgroup
    exact Nat.ne_of_lt (h.idsIssued info hinfo) (of_decide_eq_true hid)
  · exact h'.roleIn_eq_some_iff.mpr (List.mem_append_right _ (List.mem_singleton_self _))

theorem authorised_approve {result : Unit} (h : GroupStructure db) (h' : GroupStructure db')
    (hentitled : Entitled crypto db task (.approveGroupJoinRequest groupName target))
    (happly : db.approveGroupJoinRequest groupName target = .ok (result, db'))
    (hsubmitted : (group, username) ∈ db.joinRequests → submitted)
    (hchange : MembershipChanges db db' group username) :
    Authorised crypto submitted task db db' group username := by
  obtain ⟨hruns, manager, role, hacts, hrole, hmanages⟩ := hentitled
  unfold Database.approveGroupJoinRequest at happly
  split at happly
  · cases happly
  rename_i id hid
  split at happly
  · cases happly
  rename_i hpending
  split at happly
  · cases happly
  rename_i hguard
  cases happly
  simp only [Bool.not_eq_true', Bool.not_eq_false, List.contains_iff_mem] at hpending
  simp only [Bool.or_eq_true, Bool.not_eq_true', not_or, Bool.not_eq_true, Bool.not_eq_false,
    List.any_eq_false, Bool.and_eq_true, decide_eq_true_eq, not_and] at hguard
  rw [Database.getGroupRole_of_id hid] at hrole
  have hkey : (group, username) = (id, target) := by
    by_contra hother
    refine hchange.not_same (h.roleIn_congr h' fun role => ?_) fun hgroup => hgroup
    simp only [List.mem_append, List.mem_singleton, GroupMember.mk.injEq, or_iff_left_iff_imp]
    rintro ⟨rfl, rfl, -⟩
    exact absurd rfl hother
  obtain ⟨rfl, rfl⟩ := Prod.mk.inj hkey
  refine .approved hruns hacts hrole ?_ hpending (hsubmitted hpending) ?_ ?_
  · simpa [isGroupManager] using hmanages
  · refine Database.roleIn_eq_none.mpr fun row hrow hkey => ?_
    obtain ⟨hid, hname⟩ := Prod.mk.inj hkey
    exact hguard.1 row hrow hid hname
  · exact h'.roleIn_eq_some_iff.mpr (List.mem_append_right _ (List.mem_singleton_self _))

theorem setGroupMemberRole_change {role former : GroupRole} (h : GroupStructure db)
    (h' : GroupStructure db') (hformer : db.getGroupRole groupName target = some former)
    (happly : db.setGroupMemberRole groupName target role = .ok (result, db'))
    (hchange : MembershipChanges db db' group username) :
    db.groupIdByName groupName = some group ∧ username = target ∧
      db.roleIn group username = some former ∧ db'.roleIn group username = some role := by
  unfold Database.setGroupMemberRole at happly
  split at happly
  · cases happly
  rename_i id hid
  cases happly
  rw [Database.getGroupRole_of_id hid] at hformer
  have hkey : (group, username) = (id, target) := by
    by_contra hother
    refine hchange.not_same (h.roleIn_congr h' fun role' => ?_) fun hgroup => hgroup
    have hsame : ∀ row : GroupMember, row.key = (group, username) →
        row.become id target role = row := fun row hkey => if_neg fun hrow =>
      hother (hkey.symm.trans (Prod.ext hrow.1 hrow.2))
    constructor
    · intro hrow
      obtain ⟨row, hrow, hbecome⟩ := List.mem_map.mp hrow
      have hkey : row.key = (group, username) := by
        rw [← GroupMember.key_become id target role row]
        exact congrArg GroupMember.key hbecome
      have hrow' : row = ⟨group, username, role'⟩ := (hsame row hkey).symm.trans hbecome
      exact hrow' ▸ hrow
    · intro hrow
      exact List.mem_map.mpr ⟨_, hrow, hsame _ rfl⟩
  obtain ⟨rfl, rfl⟩ := Prod.mk.inj hkey
  refine ⟨hid, rfl, hformer, h'.roleIn_eq_some_iff.mpr (List.mem_map.mpr ?_)⟩
  exact ⟨_, h.roleIn_eq_some_iff.mp hformer, if_pos ⟨rfl, rfl⟩⟩

theorem removeGroupMember_change {former : GroupRole} (h : GroupStructure db)
    (h' : GroupStructure db') (hformer : db.getGroupRole groupName target = some former)
    (happly : db.removeGroupMember groupName target = .ok (result, db'))
    (hchange : MembershipChanges db db' group username) :
    db.groupIdByName groupName = some group ∧ username = target ∧
      db.roleIn group username = some former ∧ db'.roleIn group username = none := by
  unfold Database.removeGroupMember at happly
  split at happly
  · cases happly
  rename_i id hid
  cases happly
  rw [Database.getGroupRole_of_id hid] at hformer
  have hkey : (group, username) = (id, target) := by
    by_contra hother
    refine hchange.not_same (h.roleIn_congr h' fun role => ?_) fun hgroup => hgroup
    refine ⟨List.mem_of_mem_filter, fun hrow => List.mem_filter.mpr ⟨hrow, decide_eq_true ?_⟩⟩
    exact fun hsame => hother (Prod.ext hsame.1 hsame.2)
  obtain ⟨rfl, rfl⟩ := Prod.mk.inj hkey
  refine ⟨hid, rfl, hformer, Database.roleIn_eq_none.mpr fun row hrow hkey => ?_⟩
  exact of_decide_eq_true (List.mem_filter.mp hrow).2 (Prod.mk.inj hkey)

theorem authorised_dissolve {owner : Bytes} (h : GroupStructure db)
    (hruns : task.Runs .dissolveGroup) (hacts : task.ActsFor owner)
    (hchange : MembershipChanges db (db.deleteGroups fun info =>
      info.name = groupName ∧ info.ownerUsername = owner) group username) :
    Authorised crypto submitted task db (db.deleteGroups fun info =>
      info.name = groupName ∧ info.ownerUsername = owner) group username := by
  obtain ⟨info, hinfo, rfl, hgone⟩ := h.gone_of_change hchange
  obtain ⟨-, rfl⟩ := of_decide_eq_true hgone
  exact .dissolved hruns hacts (h.roleIn_of_mem (h.owners info hinfo))
    (h.deleteGroups_gone _ hinfo hgone)

theorem authorised_deleteUser {deleted : Bytes} (h : GroupStructure db) (h' : GroupStructure db')
    (hacts : task.ActsFor deleted) (hpassword : task.GaveItsPassword crypto db)
    (happly : db.deleteUser deleted = .ok (result, db'))
    (hchange : MembershipChanges db db' group username) :
    Authorised crypto submitted task db db' group username := by
  unfold Database.deleteUser at happly
  dsimp only at happly
  split at happly
  · cases happly
    exact (hchange.not_same rfl fun hgroup => hgroup).elim
  cases happly
  by_cases hself : username = deleted
  · exact .deletesOwnAccount (hself ▸ hacts) hpassword
  by_cases howned : ∃ info ∈ db.groups, info.id = group ∧ info.ownerUsername = deleted
  · obtain ⟨info, hinfo, rfl, rfl⟩ := howned
    exact .ownerDeletesAccount hacts hpassword (h.roleIn_of_mem (h.owners info hinfo))
      (h.deleteGroups_gone (fun other => other.ownerUsername = info.ownerUsername) hinfo
        (decide_eq_true rfl))
  · -- the user is somebody else, and so is the owner of the group
    have hkept : ∀ info ∈ db.groups, info.id = group →
        decide (info.ownerUsername = deleted) = false := fun info hinfo hid =>
      decide_eq_false fun howner => howned ⟨info, hinfo, hid, howner⟩
    obtain ⟨hrows, hgroups⟩ := GroupStructure.deleteGroups_kept username hkept
    refine (hchange.not_same (h.roleIn_congr h' fun role => ?_) hgroups).elim
    rw [← hrows role]
    exact ⟨List.mem_of_mem_filter, fun hrow => List.mem_filter.mpr ⟨hrow, decide_eq_true hself⟩⟩

theorem authorised_of_performs {u : Update} (h : GroupStructure db)
    (hperforms : Performs crypto task u db db')
    (hsubmitted : (group, username) ∈ db.joinRequests → submitted)
    (hchange : MembershipChanges db db' group username) :
    Authorised crypto submitted task db db' group username := by
  have h' := h.performs hperforms
  obtain ⟨hwarranted, result, happly⟩ := hperforms
  cases hgrouping : u.grouping with
  | false =>
    obtain ⟨hgroups, hmembers, -⟩ := (Database.apply_framed happly).groups hgrouping
    exact (hchange.not_same_rows hmembers hgroups).elim
  | true =>
  have hentitled := hwarranted.entitled (Update.not_routine_of_grouping hgrouping)
  cases u with
  | deleteUser => exact authorised_deleteUser h h' hentitled.1 hentitled.2 happly hchange
  | createGroup => exact authorised_createGroup h h' hentitled.1 hentitled.2 happly hchange
  | dissolveGroup =>
    cases happly
    exact authorised_dissolve h hentitled.1 hentitled.2.1 hchange
  | addGroupJoinRequest =>
    simp only [Database.apply, Database.addGroupJoinRequest] at happly
    split at happly
    · cases happly
    · split at happly <;> cases happly
      exact (hchange.not_same_rows rfl rfl).elim
  | approveGroupJoinRequest => exact authorised_approve h h' hentitled happly hsubmitted hchange
  | rejectGroupJoinRequest =>
    simp only [Database.apply, Database.rejectGroupJoinRequest] at happly
    split at happly <;> cases happly
    exact (hchange.not_same_rows rfl rfl).elim
  | setGroupMemberRole groupName target role =>
    obtain ⟨owner, hacts, howner, ⟨hruns, rfl, hformer⟩ | ⟨hruns, rfl, hformer⟩⟩ := hentitled
    all_goals
      obtain ⟨hid, rfl, hformer, hbecomes⟩ :=
        setGroupMemberRole_change h h' hformer happly hchange
      rw [Database.getGroupRole_of_id hid] at howner
    · exact .promoted hruns hacts howner hformer hbecomes
    · exact .demoted hruns hacts howner hformer hbecomes
  | removeGroupMember groupName target =>
    obtain ⟨role, hformer, hrole, hwho⟩ := hentitled
    obtain ⟨hid, rfl, hformer, hbecomes⟩ :=
      removeGroupMember_change h h' hformer happly hchange
    obtain ⟨hruns, hacts⟩ | ⟨hruns, manager, managerRole, hacts, hmanager, hmay⟩ := hwho
    · exact .leaves hruns hacts hformer hrole hbecomes
    · rw [Database.getGroupRole_of_id hid] at hmanager
      exact .removed hruns hacts hmanager hformer
        (hmay.imp_left fun howner => ⟨howner, hrole⟩) hbecomes
  | _ => cases hgrouping

theorem applies_of_performs {u : Update} (hperforms : Performs crypto task u db db')
    (hbefore : (group, username) ∉ db.joinRequests)
    (hafter : (group, username) ∈ db'.joinRequests) :
    task.Runs .applyGroup ∧ task.ActsFor username := by
  obtain ⟨hwarranted, result, happly⟩ := hperforms
  cases hgrouping : u.grouping with
  | false =>
    rw [((Database.apply_framed happly).groups hgrouping).2.2.1] at hafter
    exact absurd hafter hbefore
  | true =>
  have hentitled := hwarranted.entitled (Update.not_routine_of_grouping hgrouping)
  cases u with
  | addGroupJoinRequest groupName applicant =>
    simp only [Database.apply, Database.addGroupJoinRequest] at happly
    split at happly
    · cases happly
    split at happly
    · cases happly
    cases happly
    rcases List.mem_append.mp hafter with hold | hnew
    · exact absurd hold hbefore
    · obtain ⟨-, rfl⟩ := Prod.mk.inj (List.mem_singleton.mp hnew)
      exact ⟨hentitled.1, hentitled.2.1⟩
  | deleteUser =>
    simp only [Database.apply, Database.deleteUser] at happly
    split at happly
    · cases happly
      exact absurd hafter hbefore
    · cases happly
      exact absurd (List.mem_of_mem_filter (List.mem_of_mem_filter hafter)) hbefore
  | createGroup =>
    simp only [Database.apply, Database.createGroup] at happly
    split at happly <;> cases happly
    exact absurd hafter hbefore
  | dissolveGroup =>
    cases happly
    exact absurd (List.mem_of_mem_filter hafter) hbefore
  | approveGroupJoinRequest =>
    simp only [Database.apply, Database.approveGroupJoinRequest] at happly
    split at happly
    · cases happly
    split at happly
    · cases happly
    split at happly <;> cases happly
    exact absurd (List.mem_of_mem_filter hafter) hbefore
  | rejectGroupJoinRequest =>
    simp only [Database.apply, Database.rejectGroupJoinRequest] at happly
    split at happly <;> cases happly
    exact absurd (List.mem_of_mem_filter hafter) hbefore
  | setGroupMemberRole | removeGroupMember =>
    simp only [Database.apply, Database.setGroupMemberRole, Database.removeGroupMember] at happly
    split at happly <;> cases happly
    exact absurd hafter hbefore
  | _ => cases hgrouping

end Commands

/-! ### Runs -/

/-- In the course of a run, a command of the user has put in the request to join. -/
def Submitted (config : ServerConfig) (useCache : Bool) (start : ServerConfiguration)
    (events : List ServerEvent) (group : Nat) (username : Bytes) : Prop :=
  ∃ earlier conn choice later state state' task,
    events = earlier ++ .step conn choice :: later ∧
    Run (server config useCache).next Alone start earlier state ∧
    (server config useCache).next state (.step conn choice) = some state' ∧
    state.shared.running conn = some task ∧ task.Runs .applyGroup ∧ task.ActsFor username ∧
    (group, username) ∉ state.shared.db.joinRequests ∧
    (group, username) ∈ state'.shared.db.joinRequests

variable {config : ServerConfig} {useCache : Bool} {db : Database} {store : Store}
  {events : List ServerEvent} {state state' : ServerConfiguration}

theorem submitted_of_pending (hnone : db.joinRequests = [])
    (hrun : Run (server config useCache).next Alone (initial db store) events state) {group : Nat}
    {username : Bytes} (hpending : (group, username) ∈ state.shared.db.joinRequests) :
    Submitted config useCache (initial db store) events group username := by
  induction hrun with
  | nil =>
    rw [show (initial db store).shared.db.joinRequests = [] from hnone] at hpending
    cases hpending
  | @snoc events state state' event hearlier halone hnext ih =>
    by_cases hbefore : (group, username) ∈ state.shared.db.joinRequests
    · obtain ⟨earlier, conn, choice, later, first, second, task, rfl, hsubmitted⟩ := ih hbefore
      refine ⟨earlier, conn, choice, later ++ [event], first, second, task, ?_, hsubmitted⟩
      simp
    · rcases performs_of_next (described_of_run hearlier) hnext with
        hdb | ⟨conn, choice, task, u, rfl, hrunning, hperforms⟩
      · rw [hdb] at hpending
        exact absurd hpending hbefore
      · obtain ⟨hruns, hacts⟩ := applies_of_performs hperforms hbefore hpending
        exact ⟨events, conn, choice, [], state, state', task, rfl, hearlier, hnext, hrunning, hruns,
          hacts, hbefore, hpending⟩

/-- **Group authorisation.** In every run of commands that run one at a time, a step that changes the
membership of a user in a group, or makes the group disappear, is taken by a command that is
authorised to do so; and the requests that are approved have been put in by the users they are
about. -/
theorem group_authorisation {event : ServerEvent} (hstart : GroupStructure db)
    (hnone : db.joinRequests = [])
    (hrun : Run (server config useCache).next Alone (initial db store) events state)
    (hnext : (server config useCache).next state event = some state') {group : Nat}
    {username : Bytes}
    (hchange : MembershipChanges state.shared.db state'.shared.db group username) :
    ∃ conn choice task, event = .step conn choice ∧ state.shared.running conn = some task ∧
      Authorised config.crypto (Submitted config useCache (initial db store) events group username)
        task state.shared.db state'.shared.db group username := by
  have hstructure : GroupStructure state.shared.db :=
    tables_invariant (fun _ _ _ _ hperforms h => h.performs hperforms) hstart hrun
  rcases performs_of_next (described_of_run hrun) hnext with
    hdb | ⟨conn, choice, task, u, rfl, hrunning, hperforms⟩
  · exact (hchange.not_same_rows (by rw [hdb]) (by rw [hdb])).elim
  · exact ⟨conn, choice, task, rfl, hrunning,
      authorised_of_performs hstructure hperforms (submitted_of_pending hnone hrun) hchange⟩

def amyApprovesBob : List (Move ConnId Choice Request) :=
  serveMoves 0 .connect ++ serveMoves 0 (.register (utf8 "amy pass")) ++
    serveMoves 0 (.login (utf8 "amy pass")) ++ serveMoves 1 .connect ++
    serveMoves 1 (.register (utf8 "bob pass")) ++ serveMoves 1 (.login (utf8 "bob pass")) ++
    serveMoves 0 (.createGroup (utf8 "gang")) ++ serveMoves 1 (.applyGroup (utf8 "gang")) ++
    [.start 0 (.approveGroup (utf8 "gang bob")), .steps 0 3]

theorem group_authorisation_approval :
    ∃ events state state' conn choice task,
      Run (server scriptConfig true).next Alone (initial {} {}) events state ∧
      (server scriptConfig true).next state (.step 0 .proceed) = some state' ∧
      state.shared.db.roleIn 1 (utf8 "bob") = none ∧
      state'.shared.db.roleIn 1 (utf8 "bob") = some .member ∧
      Event.step 0 .proceed = (Event.step conn choice : ServerEvent) ∧
      state.shared.running conn = some task ∧
      Authorised scriptConfig.crypto
        (Submitted scriptConfig true (initial {} {}) events 1 (utf8 "bob")) task state.shared.db
        state'.shared.db 1 (utf8 "bob") := by
  have hscript : ((play (server scriptConfig true) usualChoice (aloneAmong 2) (initial {} {})
      amyApprovesBob).any fun state => decide (state.shared.db.roleIn 1 (utf8 "bob") = none) &&
        ((server scriptConfig true).next state (.step 0 .proceed)).any fun state' =>
          decide (state'.shared.db.roleIn 1 (utf8 "bob") = some .member)) = true := by
    decide +kernel
  obtain ⟨events, state, hchecked, htest⟩ := play_reaches hscript
  have hrun := run_alone hchecked
  simp only [Bool.and_eq_true, decide_eq_true_eq, Option.any_eq_true] at htest
  obtain ⟨hbefore, state', hnext, hafter⟩ := htest
  have hchange : MembershipChanges state.shared.db state'.shared.db 1 (utf8 "bob") := by
    refine .inl ?_
    rw [hbefore, hafter]
    exact Option.some_ne_none _
  obtain ⟨conn, choice, task, hevent, hrunning, hauthorised⟩ :=
    group_authorisation groupStructure_empty rfl hrun hnext hchange
  exact ⟨events, state, state', conn, choice, task, hrun, hnext, hbefore, hafter, hevent, hrunning,
    hauthorised⟩

end ChatRoom
