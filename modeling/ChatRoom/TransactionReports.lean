import ChatRoom.Server.Transactions

/-! # What the transactions of `MySqlDatabase` report -/

namespace ChatRoom

namespace MySql

open Sql

variable {α : Type} {o : Outcomes} {s : Session} {db : Database}
variable {index : Nat} {outcome : Nat × Database} {plan : Plan α} {statement : Statement}
  {unexplained groupName left right : Bytes} {recipients : List Bytes} {db' : Database}
  {next : StatementResult → Plan α}

/-! ### Plans -/

def Plan.completes (o : Outcomes) : Plan α → Nat → Database → Option (α × Database)
  | .finish value, _, db => some (value, db)
  | .abort _, _, _ => none
  | .execute statement _ next, index, db =>
    if o.statement index then
      match statement.apply db with
      | none => none
      | some (db', result) => (next result).completes o (index + 1) db'
    else
      none

def Plan.touches (db : Database) : Plan α → Bool
  | .execute statement _ _ => (statement.apply db).any fun (db', _) => db' ≠ db
  | _ => false

/-- From the tables `work` on, the plan never gives up by itself, and its statements never lead back
to the tables `db`. -/
def Plan.Steady (db : Database) : Plan α → Database → Prop
  | .finish _, _ => True
  | .abort _, _ => False
  | .execute statement _ next, work => ∀ db' result, statement.apply work = some (db', result) →
      db' ≠ db ∧ (next result).Steady db db'

def Plan.Ends (plan : Plan α) : Prop :=
  (∃ value, plan = .finish value) ∨ ∃ error, plan = .abort error

/-- The first statement changes a row for good, or is the last one. -/
def Plan.Decisive (db : Database) : Plan α → Prop
  | .execute statement _ next => ∀ db' result, statement.apply db = some (db', result) →
      db' ≠ db ∧ (next result).Steady db db' ∨ db' = db ∧ (next result).Ends
  | plan => plan.Ends

/-! ### Single calls -/

/-- The session is inside a transaction over the tables `db`. -/
structure Session.Within (db : Database) (s : Session) : Prop where
  off : s.connection.autocommit = false
  committed : s.connection.committed = db

theorem clean_switchOn {succeeds : Bool} (hclean : (switchOn succeeds s).uncleaned = false) :
    (switchOn succeeds s).connection.Clean := by
  cases succeeds with
  | true => exact Connection.clean_setAutocommit
  | false => cases hclean

theorem clean_rollback (hclean : (rollback o s).uncleaned = false) :
    (rollback o s).connection.Clean := clean_switchOn hclean

theorem clean_commit (hcommit : (commit o s).1 = true) : (commit o s).2.connection.Clean := by
  unfold commit at hcommit ⊢
  cases houtcome : o.commit with
  | done =>
    rw [houtcome] at hcommit
    simp only at hcommit ⊢
    rw [hcommit]
    exact Connection.clean_setAutocommit
  | undone | stillOpen =>
    rw [houtcome] at hcommit
    cases hcommit

theorem committed_commit (hcommit : (commit o s).1 = true) :
    (commit o s).2.connection.committed = s.connection.view := by
  unfold commit at hcommit ⊢
  cases houtcome : o.commit with
  | done =>
    rw [houtcome] at hcommit
    simp only at hcommit ⊢
    rw [hcommit]
    rfl
  | undone | stillOpen =>
    rw [houtcome] at hcommit
    cases hcommit

theorem committed_rollback : (rollback o s).connection.committed =
    if !o.rollback && o.switchBack then s.connection.view else s.connection.committed := by
  unfold rollback switchOn
  cases o.rollback <;> cases o.switchBack <;> rfl

theorem committed_failed_commit (hfailed : (commit o s).1 = false) :
    (rollback o (commit o s).2).connection.committed =
      match o.commit with
      | .done => s.connection.view
      | .undone => s.connection.committed
      | .stillOpen =>
        if o.switchOn || (!o.rollback && o.switchBack) then s.connection.view
        else s.connection.committed := by
  rw [committed_rollback]
  unfold commit at hfailed ⊢
  cases houtcome : o.commit with
  | done =>
    rw [houtcome] at hfailed
    simp only at hfailed ⊢
    rw [hfailed]
    simp [switchOn, Connection.commit, Connection.view]
  | undone =>
    cases o.switchOn <;>
      simp [switchOn, Connection.setAutocommit, Connection.commit, Connection.rollback,
        Connection.view]
  | stillOpen =>
    cases o.switchOn <;> simp [switchOn, Connection.setAutocommit, Connection.commit, Connection.view]

theorem executePrepared_cases (statement : Statement) (hwithin : s.Within db) :
    (∃ s', executePrepared o statement s = (none, s') ∧ s'.Within db ∧
      s'.connection.view = (if o.undoes then db else s.connection.view) ∧
      (o.statement s.executed = true → statement.apply s.connection.view = none) ∧
      ∀ {unexplained : Bytes} {next : StatementResult → Plan α},
        (Plan.execute statement unexplained next).completes o s.executed s.connection.view = none) ∨
    ∃ db' result s', executePrepared o statement s = (some result, s') ∧ s'.Within db ∧
      statement.apply s.connection.view = some (db', result) ∧ s'.connection.view = db' ∧
      o.statement s.executed = true ∧
      ∀ {unexplained : Bytes} {next : StatementResult → Plan α},
        (Plan.execute statement unexplained next).completes o s.executed s.connection.view =
          (next result).completes o s'.executed s'.connection.view := by
  have hfailed : ∀ s' : Session, s' = { s with
      connection := if o.undoes then s.connection.rollback else s.connection
      executed := s.executed + 1 } →
      s'.Within db ∧ s'.connection.view = if o.undoes then db else s.connection.view := by
    rintro s' rfl
    cases o.undoes with
    | true => exact ⟨⟨hwithin.off, hwithin.committed⟩, hwithin.committed⟩
    | false => exact ⟨⟨hwithin.off, hwithin.committed⟩, rfl⟩
  unfold executePrepared
  cases hsucceeds : o.statement s.executed with
  | false =>
    obtain ⟨hwithin', hview⟩ := hfailed _ rfl
    exact .inl ⟨_, rfl, hwithin', hview, nofun, by simp [Plan.completes, hsucceeds]⟩
  | true =>
    cases happly : statement.apply s.connection.view with
    | none =>
      obtain ⟨hwithin', hview⟩ := hfailed _ rfl
      exact .inl ⟨_, rfl, hwithin', hview, fun _ => rfl, by simp [Plan.completes, happly]⟩
    | some pair =>
      obtain ⟨db', result⟩ := pair
      have hwrite := Connection.write_of_off hwithin.off db'
      refine .inr ⟨db', result, _, rfl, ?_, rfl, ?_, rfl, ?_⟩
      · rw [hwrite]
        exact ⟨rfl, hwithin.committed⟩
      · rw [hwrite]
        rfl
      · intro unexplained next
        rw [hwrite, Plan.completes, if_pos hsucceeds, happly]
        rfl

/-! ### Whole plans -/

theorem run_finish (value : α) : (Plan.finish value).run o s =
    if (commit o s).1 then (.ok value, (commit o s).2)
    else (.error o.errorText, rollback o (commit o s).2) := by
  rw [Plan.run]
  cases hcommit : commit o s with
  | mk reported s' => cases reported <;> rfl

theorem clean_run (plan : Plan α) (hclean : (plan.run o s).2.uncleaned = false) :
    (plan.run o s).2.connection.Clean := by
  induction plan generalizing s with
  | finish value =>
    rw [run_finish] at hclean ⊢
    split at hclean
    · rename_i hcommit
      rw [if_pos hcommit]
      exact clean_commit hcommit
    · rename_i hcommit
      rw [if_neg hcommit]
      exact clean_rollback hclean
  | abort error => exact clean_rollback hclean
  | execute statement unexplained next ih =>
    unfold Plan.run at hclean ⊢
    split
    · rename_i hexecute
      rw [hexecute] at hclean
      exact clean_rollback hclean
    · rename_i result s' hexecute
      rw [hexecute] at hclean
      exact ih result hclean

theorem completes_run {value : α} (hwithin : s.Within db) (hok : (plan.run o s).1 = .ok value) :
    plan.completes o s.executed s.connection.view =
      some (value, (plan.run o s).2.connection.committed) := by
  induction plan generalizing s with
  | finish value' =>
    rw [run_finish] at hok ⊢
    split at hok
    · rename_i hcommit
      cases hok
      rw [if_pos hcommit, committed_commit hcommit]
      rfl
    · cases hok
  | abort error => cases hok
  | execute statement unexplained next ih =>
    obtain ⟨s', hexecute, -⟩ | ⟨db', result, s', hexecute, hwithin', -, -, -, hcompletes⟩ :=
      executePrepared_cases (α := α) (o := o) statement hwithin
    · simp only [Plan.run, hexecute] at hok
      cases hok
    · simp only [Plan.run, hexecute] at hok ⊢
      rw [hcompletes]
      exact ih result hwithin' hok

/-- What is reported as failed is not committed. -/
def LeavesTables (db : Database) (outcome : Except Bytes α × Session) : Prop :=
  ∀ error, outcome.1 = .error error → outcome.2.connection.committed = db

/-- The outcomes of calls with which changed rows are committed and reported as failed, for an
operation that comes to its `commit` and for one that does not. -/
def Outcomes.betray (o : Outcomes) (complete : Bool) : Bool :=
  if complete then
    match o.commit with
    | .done => !o.switchOn
    | .undone => false
    | .stillOpen => o.switchOn || (!o.rollback && o.switchBack)
  else
    !o.undoes && (!o.rollback && o.switchBack)

theorem leavesTables_ends (hends : plan.Ends) (hwithin : s.Within db)
    (hview : s.connection.view = db) : LeavesTables db (plan.run o s) := by
  intro error herror
  rcases hends with ⟨value, rfl⟩ | ⟨error', rfl⟩
  · rw [run_finish] at herror ⊢
    split at herror
    · cases herror
    · rename_i hcommit
      rw [if_neg hcommit, committed_failed_commit (Bool.not_eq_true _ ▸ hcommit), hview,
        hwithin.committed]
      cases o.commit <;> simp
  · change (rollback o s).connection.committed = db
    rw [committed_rollback, hview, hwithin.committed, ite_self]

theorem leavesTables_steady (hsteady : plan.Steady db s.connection.view) (hwithin : s.Within db)
    (hchanged : s.connection.view ≠ db) :
    LeavesTables db (plan.run o s) ↔
      o.betray (plan.completes o s.executed s.connection.view).isSome = false := by
  induction plan generalizing s with
  | finish value =>
    rw [run_finish, Outcomes.betray, Plan.completes, Option.isSome_some, if_pos rfl, LeavesTables]
    cases hcommit : (commit o s).1 with
    | true =>
      have hdone : o.commit = .done ∧ o.switchOn = true := by
        unfold commit at hcommit
        split at hcommit <;> simp_all
      simp [hdone]
    | false =>
      simp only [if_neg Bool.false_ne_true, Except.error.injEq, forall_eq',
        committed_failed_commit hcommit, hwithin.committed]
      cases houtcome : o.commit with
      | done =>
        have hswitch : o.switchOn = false := by
          simpa [commit, houtcome] using hcommit
        simp [hswitch, hchanged]
      | undone => simp
      | stillOpen => cases o.switchOn <;> cases o.rollback <;> cases o.switchBack <;> simp [hchanged]
  | abort error => exact hsteady.elim
  | execute statement unexplained next ih =>
    obtain ⟨s', hexecute, hwithin', hview, -, hcompletes⟩ | ⟨db', result, s', hexecute, hwithin',
      happly, hview, -, hcompletes⟩ := executePrepared_cases (α := α) (o := o) statement hwithin
    · simp only [Plan.run, hexecute, hcompletes, LeavesTables, Except.error.injEq, forall_eq',
        committed_rollback, hview, hwithin'.committed, Outcomes.betray, Option.isSome_none,
        if_neg Bool.false_ne_true]
      cases o.undoes <;> cases o.rollback <;> cases o.switchBack <;> simp [hchanged]
    · obtain ⟨hne, hsteady'⟩ := hsteady db' result happly
      simp only [Plan.run, hexecute, hcompletes]
      rw [← hview] at hne hsteady'
      exact ih result hsteady' hwithin' hne

theorem leavesTables_decisive (hdecisive : plan.Decisive db) (hwithin : s.Within db)
    (hview : s.connection.view = db) :
    LeavesTables db (plan.run o s) ↔
      ¬(o.statement s.executed = true ∧ plan.touches db = true ∧
        o.betray (plan.completes o s.executed db).isSome = true) := by
  cases plan with
  | finish value | abort error =>
    have hleaves := leavesTables_ends (o := o) hdecisive hwithin hview
    simp [hleaves, Plan.touches]
  | execute statement unexplained next =>
    obtain ⟨s', hexecute, hwithin', hview', hrefused, -⟩ | ⟨db', result, s', hexecute, hwithin',
      happly, hview', hsucceeds, hcompletes⟩ := executePrepared_cases (α := α) (o := o) statement hwithin
    · have hleaves : LeavesTables db ((Plan.execute statement unexplained next).run o s) := by
        rintro error -
        simp only [Plan.run, hexecute, committed_rollback, hview', hview, hwithin'.committed,
          ite_self]
      refine iff_of_true hleaves ?_
      rintro ⟨hsucceeds, htouches, -⟩
      rw [hview] at hrefused
      simp [Plan.touches, hrefused hsucceeds] at htouches
    · rw [hview] at happly hcompletes
      rw [hcompletes]
      simp only [Plan.run, hexecute, Plan.touches, happly, Option.any_some, decide_eq_true_eq,
        hsucceeds, true_and]
      rcases hdecisive db' result happly with ⟨hne, hsteady⟩ | ⟨rfl, hends⟩
      · rw [← hview'] at hne hsteady
        rw [leavesTables_steady hsteady hwithin' hne]
        simp [← hview', hne]
      · exact iff_of_true (leavesTables_ends hends hwithin' hview') fun ⟨hne, _⟩ => hne rfl

/-! ### The operations -/

theorem inserted_eq_some {refused : Bool} {insertId : Nat} {result : StatementResult} :
    inserted refused insertId db = some (db', result) ↔
      refused = false ∧ db = db' ∧ ({ insertId } : StatementResult) = result := by
  cases refused <;> simp [inserted]

theorem field_inserted {β : Type} (field : Database → β) {refused : Bool} {insertId : Nat}
    {result : StatementResult} {value : β}
    (happly : inserted refused insertId db = some (db', result)) (hfield : field db = value) :
    field db' = value := by
  obtain ⟨-, rfl, -⟩ := inserted_eq_some.mp happly
  exact hfield

theorem completes_execute {outcome : α × Database}
    (hcompletes : (Plan.execute statement unexplained next).completes o index db = some outcome) :
    ∃ db' result, statement.apply db = some (db', result) ∧
      (next result).completes o (index + 1) db' = some outcome := by
  rw [Plan.completes] at hcompletes
  split at hcompletes
  · split at hcompletes
    · cases hcompletes
    · rename_i db' result happly
      exact ⟨db', result, happly, hcompletes⟩
  · cases hcompletes

theorem steady_execute {β : Type} (field : Database → β) {work : Database}
    (hsame : ∀ db' result, statement.apply work = some (db', result) → field db' = field work)
    (hnext : ∀ db' result, field db' ≠ field db → (next result).Steady db db')
    (hne : field work ≠ field db) : (Plan.execute statement unexplained next).Steady db work := by
  intro db' result happly
  have hne' : field db' ≠ field db := by
    rw [hsame db' result happly]
    exact hne
  exact ⟨fun heq => hne' (congrArg field heq), hnext db' result hne'⟩

theorem filter_affected {β : Type} [DecidableEq β] (rows : List β) (key : β) :
    (affectedBy rows key).affected = 1 ∧ (rows.filter fun row => row ≠ key) ≠ rows ∨
      (affectedBy rows key).affected ≠ 1 ∧ (rows.filter fun row => row ≠ key) = rows := by
  by_cases hmem : key ∈ rows
  · refine .inl ⟨by simp [affectedBy, hmem], fun heq => ?_⟩
    rw [← heq] at hmem
    simp at hmem
  · refine .inr ⟨by simp [affectedBy, hmem], ?_⟩
    rw [List.filter_eq_self]
    rintro row hrow
    refine decide_eq_true ?_
    rintro rfl
    exact hmem hrow

theorem mem_of_affected {β : Type} [DecidableEq β] {rows : List β} {key : β}
    (hone : ¬(affectedBy rows key).affected ≠ 1) : key ∈ rows := by
  by_contra hmem
  exact hone (by simp [affectedBy, hmem])

theorem decisive_delete {β : Type} [DecidableEq β] (field : Database → List β) (key : β)
    {stop rest : Plan α} (happly : statement.apply db = some (db', affectedBy (field db) key))
    (hfield : field db' = (field db).filter fun row => row ≠ key)
    (hsame : field db' = field db → db' = db) (hstop : stop.Ends)
    (hrest : field db' ≠ field db → rest.Steady db db') :
    (Plan.execute statement unexplained fun result =>
      if result.affected ≠ 1 then stop else rest).Decisive db := by
  intro db'' result happly'
  cases happly.symm.trans happly'
  rcases filter_affected (field db) key with ⟨hone, hne⟩ | ⟨hone, heq⟩
  · rw [← hfield] at hne
    dsimp only
    rw [if_neg fun h : _ ≠ 1 => h hone]
    exact .inl ⟨fun h => hne (congrArg field h), hrest hne⟩
  · rw [← hfield] at heq
    dsimp only
    rw [if_pos hone]
    exact .inr ⟨hsame heq, hstop⟩

theorem decisive_insert {β : Type} (field : Database → List β)
    (hgrows : ∀ db' result, statement.apply db = some (db', result) →
      ∃ row, field db' = field db ++ [row])
    (hnext : ∀ db' result, field db' ≠ field db → (next result).Steady db db') :
    (Plan.execute statement unexplained next).Decisive db := by
  intro db' result happly
  obtain ⟨row, hrow⟩ := hgrows db' result happly
  have hne : field db' ≠ field db := by
    rw [hrow]
    simp
  exact .inl ⟨fun h => hne (congrArg field h), hnext db' result hne⟩

theorem steady_insertDeliveries {β : Type} (field : Database → β)
    (insertDelivery : Bytes → Statement)
    (hsame : ∀ recipient work db' result,
      (insertDelivery recipient).apply work = some (db', result) → field db' = field work)
    (id : Nat) (recipients : List Bytes) {work : Database} (hne : field work ≠ field db) :
    (insertDeliveries insertDelivery id recipients).Steady db work := by
  induction recipients generalizing work with
  | nil => trivial
  | cons recipient recipients ih =>
    exact steady_execute field (hsame recipient work) (fun _ _ hne' => ih hne') hne

theorem decisive_acceptFriendRequest (requester target : Bytes) :
    (acceptFriendRequest requester target).Decisive db := by
  refine decisive_delete Database.friendRequests (requester, target) rfl ?_ ?_ (.inr ⟨_, rfl⟩) ?_
  · rfl
  · intro heq
    exact congrArg (fun friendRequests => { db with friendRequests }) heq
  · exact steady_execute Database.friendRequests
      (fun _ _ happly => field_inserted Database.friendRequests happly rfl) fun _ _ _ => trivial

theorem decisive_removeFriendship (left right : Bytes) :
    (removeFriendship left right).Decisive db := by
  refine decisive_delete Database.friendships (normalizePair left right) rfl ?_ ?_ (.inl ⟨_, rfl⟩) ?_
  · rfl
  · intro heq
    exact congrArg (fun friendships => { db with friendships }) heq
  · refine steady_execute Database.friendships ?_ fun _ _ _ => trivial
    rintro db' result ⟨rfl, rfl⟩
    rfl

theorem decisive_addPrivateMessageWithDelivery {payload : ChatMessagePayload} {plan : Plan Nat}
    (hplan : addPrivateMessageWithDelivery o payload = .ok plan) : plan.Decisive db := by
  unfold addPrivateMessageWithDelivery at hplan
  split at hplan
  · cases hplan
  · cases hplan
    split
    · exact .inr ⟨_, rfl⟩
    · exact decisive_insert Database.messages
        (fun _ _ happly => ⟨_, field_inserted Database.messages happly rfl⟩) fun _ _ =>
          steady_execute Database.messages
            (fun _ _ happly => field_inserted Database.messages happly rfl) fun _ _ _ => trivial

theorem decisive_createGroup (groupName ownerUsername : Bytes) :
    (createGroup groupName ownerUsername).Decisive db :=
  decisive_insert Database.groups
    (fun _ _ happly => ⟨_, field_inserted Database.groups happly rfl⟩) fun _ _ =>
      steady_execute Database.groups (fun _ _ happly => field_inserted Database.groups happly rfl)
        fun _ _ _ => trivial

theorem decisive_approveGroupJoinRequest {username : Bytes} {plan : Plan Unit}
    (hplan : approveGroupJoinRequest o db groupName username = .ok plan) : plan.Decisive db := by
  unfold approveGroupJoinRequest at hplan
  split at hplan
  · cases hplan
  split at hplan
  · cases hplan
  · rename_i groupId _
    cases hplan
    refine decisive_delete Database.joinRequests (groupId, username) rfl ?_ ?_ (.inr ⟨_, rfl⟩) ?_
    · rfl
    · intro heq
      exact congrArg (fun joinRequests => { db with joinRequests }) heq
    · exact steady_execute Database.joinRequests
        (fun _ _ happly => field_inserted Database.joinRequests happly rfl) fun _ _ _ => trivial

theorem decisive_addGroupMessage (payload : GroupMessagePayload) (recipients : List Bytes) :
    (addGroupMessage o payload recipients).Decisive db := by
  unfold addGroupMessage
  split
  · exact .inr ⟨_, rfl⟩
  · exact decisive_insert Database.groupMessages
      (fun _ _ happly => ⟨_, field_inserted Database.groupMessages happly rfl⟩) fun _ message =>
        steady_insertDeliveries Database.groupMessages (.insertGroupDelivery message.insertId)
          (fun _ _ _ _ happly => field_inserted Database.groupMessages happly rfl) _ _

theorem decisive_addFileTransfer {metadata : FileTransferMetadata} {plan : Plan Nat}
    (hplan : addFileTransfer o metadata recipients = .ok plan) :
    plan.Decisive db := by
  unfold addFileTransfer at hplan
  split at hplan
  · cases hplan
  split at hplan
  · cases hplan
  · cases hplan
    exact decisive_insert Database.fileTransfers
      (fun _ _ happly => ⟨_, field_inserted Database.fileTransfers happly rfl⟩) fun _ transfer =>
        steady_insertDeliveries Database.fileTransfers (.insertFileDelivery transfer.insertId)
          (fun _ _ _ _ happly => field_inserted Database.fileTransfers happly rfl) _ _

theorem decisive_plan {op : Operation} {plan : Plan op.update.Result}
    (hplan : op.plan o db = .ok plan) : plan.Decisive db := by
  cases op with
  | acceptFriendRequest requester target =>
    cases hplan
    exact decisive_acceptFriendRequest requester target
  | removeFriendship left right =>
    cases hplan
    exact decisive_removeFriendship left right
  | addPrivateMessageWithDelivery payload => exact decisive_addPrivateMessageWithDelivery hplan
  | createGroup groupName ownerUsername =>
    cases hplan
    exact decisive_createGroup groupName ownerUsername
  | approveGroupJoinRequest groupName username => exact decisive_approveGroupJoinRequest hplan
  | addGroupMessage payload recipients =>
    cases hplan
    exact decisive_addGroupMessage payload recipients
  | addFileTransfer metadata recipients => exact decisive_addFileTransfer hplan

/-! ### What is committed -/

theorem ne_of_normalizePair_lt (hlt : (normalizePair left right).1 < (normalizePair left right).2) :
    left ≠ right := by
  rintro rfl
  unfold normalizePair at hlt
  rw [ite_self] at hlt
  exact List.lt_irrefl _ hlt

theorem userExists_normalizePair (hlow : db.userExists (normalizePair left right).1 = true)
    (hhigh : db.userExists (normalizePair left right).2 = true) :
    db.userExists left = true ∧ db.userExists right = true := by
  unfold normalizePair at hlow hhigh
  by_cases hle : left ≤ right
  · rw [if_pos hle] at hlow hhigh
    exact ⟨hlow, hhigh⟩
  · rw [if_neg hle] at hlow hhigh
    exact ⟨hhigh, hlow⟩

theorem apply_acceptFriendRequest {requester target : Bytes} {outcome : Unit × Database}
    (hcompletes : (acceptFriendRequest requester target).completes o index db = some outcome) :
    db.acceptFriendRequest requester target = .ok outcome := by
  obtain ⟨db', result, ⟨rfl, rfl⟩, hnext⟩ := completes_execute hcompletes
  split at hnext
  · cases hnext
  · rename_i hone
    obtain ⟨db', result, happly, hfinish⟩ := completes_execute hnext
    obtain ⟨haccepted, rfl, -⟩ := inserted_eq_some.mp happly
    cases hfinish
    simp only [Bool.or_eq_false_iff, Bool.not_eq_false', decide_eq_true_eq] at haccepted
    obtain ⟨⟨⟨hfresh, hlow⟩, hhigh⟩, hlt⟩ := haccepted
    have hrequest := mem_of_affected hone
    have hne := ne_of_normalizePair_lt hlt
    obtain ⟨hrequester, htarget⟩ : db.userExists requester = true ∧ db.userExists target = true :=
      userExists_normalizePair hlow hhigh
    have hstrangers : db.areFriends requester target = false := hfresh
    simp [Database.acceptFriendRequest, Database.hasFriendRequest, hrequest, hrequester, htarget,
      hne, hstrangers]

theorem apply_removeFriendship {outcome : Bool × Database}
    (hcompletes : (removeFriendship left right).completes o index db = some outcome) :
    db.removeFriendship left right = .ok outcome := by
  obtain ⟨db', result, ⟨rfl, rfl⟩, hnext⟩ := completes_execute hcompletes
  rcases filter_affected db.friendships (normalizePair left right) with ⟨hone, -⟩ | ⟨hone, hsame⟩
  · rw [if_neg fun h : _ ≠ 1 => h hone] at hnext
    obtain ⟨db', result, ⟨rfl, rfl⟩, hfinish⟩ := completes_execute hnext
    cases hfinish
    have hfriends := mem_of_affected (not_not_intro hone)
    simp [Database.removeFriendship, Database.areFriends, hfriends]
  · rw [if_pos hone] at hnext
    cases hnext
    have hstrangers : normalizePair left right ∉ db.friendships := fun hmem =>
      hone (by simp [affectedBy, hmem])
    simp only [Database.removeFriendship, Database.areFriends]
    rw [hsame]
    simp [hstrangers]

theorem apply_addPrivateMessageWithDelivery {payload : ChatMessagePayload} {plan : Plan Nat}
    (hplan : addPrivateMessageWithDelivery o payload = .ok plan)
    (hcompletes : plan.completes o index db = some outcome) :
    db.addPrivateMessageWithDelivery payload = .ok outcome := by
  unfold addPrivateMessageWithDelivery at hplan
  split at hplan
  · cases hplan
  rename_i hprivate
  cases hplan
  split at hcompletes
  · cases hcompletes
  obtain ⟨db', message, happly, hnext⟩ := completes_execute hcompletes
  obtain ⟨hsender, rfl, rfl⟩ := inserted_eq_some.mp happly
  obtain ⟨db', result, happly, hfinish⟩ := completes_execute hnext
  obtain ⟨hrecipient, rfl, -⟩ := inserted_eq_some.mp happly
  cases hfinish
  simp only [Bool.or_eq_false_iff, Bool.not_eq_false'] at hsender hrecipient
  have hexists : db.userExists payload.recipientUsername = true := hrecipient.2
  rw [Database.addPrivateMessageWithDelivery, if_neg hprivate, hsender.1, hexists]
  rfl

theorem apply_createGroup {ownerUsername : Bytes}
    (hcompletes : (createGroup groupName ownerUsername).completes o index db = some outcome) :
    db.createGroup groupName ownerUsername = .ok outcome := by
  obtain ⟨db', group, happly, hnext⟩ := completes_execute hcompletes
  obtain ⟨haccepted, rfl, rfl⟩ := inserted_eq_some.mp happly
  obtain ⟨db', result, happly, hfinish⟩ := completes_execute hnext
  obtain ⟨-, rfl, -⟩ := inserted_eq_some.mp happly
  cases hfinish
  rw [Database.createGroup, haccepted, if_neg Bool.false_ne_true]

theorem apply_approveGroupJoinRequest {username : Bytes} {plan : Plan Unit}
    {outcome : Unit × Database} (hplan : approveGroupJoinRequest o db groupName username = .ok plan)
    (hcompletes : plan.completes o index db = some outcome) :
    db.approveGroupJoinRequest groupName username = .ok outcome := by
  unfold approveGroupJoinRequest at hplan
  split at hplan
  · cases hplan
  split at hplan
  · cases hplan
  rename_i groupId hgroup
  cases hplan
  obtain ⟨db', result, ⟨rfl, rfl⟩, hnext⟩ := completes_execute hcompletes
  split at hnext
  · cases hnext
  · rename_i hone
    obtain ⟨db', result, happly, hfinish⟩ := completes_execute hnext
    obtain ⟨haccepted, rfl, -⟩ := inserted_eq_some.mp happly
    cases hfinish
    simp only [Bool.or_eq_false_iff, Bool.not_eq_false'] at haccepted
    have hrequest := mem_of_affected hone
    have hexists : db.userExists username = true := haccepted.2
    have hfresh : (db.members.any fun row => row.groupId = groupId && row.username = username) =
        false := haccepted.1.1
    simp [Database.approveGroupJoinRequest, hgroup, hrequest, hexists]
    simpa using hfresh

/-- One of the tables with a delivery row for each recipient. -/
structure DeliveryTable where
  rows : Database → List Delivery
  put : Database → List Delivery → Database
  rows_put : ∀ db deliveries, rows (put db deliveries) = deliveries
  put_put : ∀ db deliveries deliveries', put (put db deliveries) deliveries' = put db deliveries'
  put_rows : ∀ db, put db (rows db) = db
  userExists_put : ∀ db deliveries username,
    (put db deliveries).userExists username = db.userExists username

def groupDeliveryTable : DeliveryTable where
  rows := Database.groupDeliveries
  put := fun db groupDeliveries => { db with groupDeliveries }
  rows_put := fun _ _ => rfl
  put_put := fun _ _ _ => rfl
  put_rows := fun _ => rfl
  userExists_put := fun _ _ _ => rfl

def fileDeliveryTable : DeliveryTable where
  rows := Database.fileDeliveries
  put := fun db fileDeliveries => { db with fileDeliveries }
  rows_put := fun _ _ => rfl
  put_put := fun _ _ _ => rfl
  put_rows := fun _ => rfl
  userExists_put := fun _ _ _ => rfl

namespace DeliveryTable

variable (table : DeliveryTable)

def InsertedBy (insertDelivery : Bytes → Statement) (id : Nat) : Prop :=
  ∀ recipient work db' result, (insertDelivery recipient).apply work = some (db', result) →
    (∀ row ∈ table.rows work, row.item = id → row.recipientUsername ≠ recipient) ∧
      work.userExists recipient = true ∧
      db' = table.put work (table.rows work ++ [⟨id, recipient, none⟩])

variable {table}

theorem completes {insertDelivery : Bytes → Statement} {id : Nat}
    (hinserted : table.InsertedBy insertDelivery id)
    (hcompletes : (insertDeliveries insertDelivery id recipients).completes o index db =
      some outcome) :
    recipients.all db.userExists = true ∧ recipients.Nodup ∧
      (∀ row ∈ table.rows db, row.item = id → row.recipientUsername ∉ recipients) ∧
      outcome = (id, table.put db (table.rows db ++
        recipients.map fun recipient => ⟨id, recipient, none⟩)) := by
  induction recipients generalizing db index with
  | nil =>
    cases hcompletes
    simp [table.put_rows]
  | cons recipient recipients ih =>
    obtain ⟨db', result, happly, hnext⟩ := completes_execute hcompletes
    obtain ⟨hfresh, hexists, rfl⟩ := hinserted _ _ _ _ happly
    obtain ⟨hexist, hnodup, hfresh', rfl⟩ := ih hnext
    simp only [table.rows_put, List.mem_append, List.mem_singleton] at hfresh'
    have hnew : recipient ∉ recipients := hfresh' _ (.inr rfl) rfl
    refine ⟨?_, List.nodup_cons.mpr ⟨hnew, hnodup⟩, ?_, ?_⟩
    · rw [List.all_cons, hexists, Bool.true_and, List.all_eq_true]
      intro other hother
      rw [← table.userExists_put]
      exact List.all_eq_true.mp hexist other hother
    · intro row hrow hitem
      rw [List.mem_cons, not_or]
      exact ⟨hfresh row hrow hitem, hfresh' row (.inl hrow) hitem⟩
    · rw [table.rows_put, table.put_put, List.map_cons, List.append_assoc]
      rfl

end DeliveryTable

theorem insertedBy_group (id : Nat) : groupDeliveryTable.InsertedBy (.insertGroupDelivery id) id := by
  intro recipient work db' result happly
  obtain ⟨haccepted, rfl, -⟩ := inserted_eq_some.mp happly
  simp only [Bool.or_eq_false_iff, Bool.not_eq_false', List.any_eq_false, Bool.and_eq_true,
    decide_eq_true_eq, not_and] at haccepted
  exact ⟨haccepted.1.1, haccepted.2, rfl⟩

theorem insertedBy_file (id : Nat) : fileDeliveryTable.InsertedBy (.insertFileDelivery id) id := by
  intro recipient work db' result happly
  obtain ⟨haccepted, rfl, -⟩ := inserted_eq_some.mp happly
  simp only [Bool.or_eq_false_iff, Bool.not_eq_false', List.any_eq_false, Bool.and_eq_true,
    decide_eq_true_eq, not_and] at haccepted
  exact ⟨haccepted.1.1, haccepted.2, rfl⟩

theorem apply_addGroupMessage {payload : GroupMessagePayload}
    (hcompletes : (addGroupMessage o payload recipients).completes o index db = some outcome) :
    db.addGroupMessage payload recipients = .ok outcome := by
  unfold addGroupMessage at hcompletes
  split at hcompletes
  · cases hcompletes
  obtain ⟨db', message, happly, hnext⟩ := completes_execute hcompletes
  obtain ⟨haccepted, rfl, rfl⟩ := inserted_eq_some.mp happly
  obtain ⟨hexist, hnodup, -, rfl⟩ := DeliveryTable.completes (insertedBy_group _) hnext
  have hexist' : recipients.all db.userExists = true := hexist
  rw [Database.addGroupMessage, haccepted, hexist', decide_eq_false (not_not_intro hnodup)]
  rfl

theorem apply_addFileTransfer {metadata : FileTransferMetadata} {plan : Plan Nat}
    (hplan : addFileTransfer o metadata recipients = .ok plan)
    (hcompletes : plan.completes o index db = some outcome) :
    db.addFileTransfer metadata recipients = .ok outcome := by
  unfold addFileTransfer at hplan
  split at hplan
  · cases hplan
  rename_i hrecipients
  split at hplan
  · cases hplan
  cases hplan
  obtain ⟨db', transfer, happly, hnext⟩ := completes_execute hcompletes
  obtain ⟨haccepted, rfl, rfl⟩ := inserted_eq_some.mp happly
  obtain ⟨hexist, hnodup, -, rfl⟩ := DeliveryTable.completes (insertedBy_file _) hnext
  have hexist' : recipients.all db.userExists = true := hexist
  rw [Database.addFileTransfer, if_neg hrecipients, haccepted, hexist',
    decide_eq_false (not_not_intro hnodup)]
  rfl

theorem apply_plan {op : Operation} {plan : Plan op.update.Result}
    {outcome : op.update.Result × Database} (hplan : op.plan o db = .ok plan)
    (hcompletes : plan.completes o index db = some outcome) :
    db.apply op.update = .ok outcome := by
  cases op with
  | acceptFriendRequest requester target =>
    cases hplan
    exact apply_acceptFriendRequest hcompletes
  | removeFriendship left right =>
    cases hplan
    exact apply_removeFriendship hcompletes
  | addPrivateMessageWithDelivery payload =>
    exact apply_addPrivateMessageWithDelivery hplan hcompletes
  | createGroup groupName ownerUsername =>
    cases hplan
    exact apply_createGroup hcompletes
  | approveGroupJoinRequest groupName username =>
    exact apply_approveGroupJoinRequest hplan hcompletes
  | addGroupMessage payload recipients =>
    cases hplan
    exact apply_addGroupMessage hcompletes
  | addFileTransfer metadata recipients => exact apply_addFileTransfer hplan hcompletes

/-! ### What is reported -/

/-- An operation reports what has happened: a success stands for its rows, all committed, and a
failure for the tables as they were; and its connection is between transactions again, unless a
clean-up call has failed. -/
structure Operation.Reports (op : Operation) (o : Outcomes) (db : Database) : Prop where
  success : ∀ value, (op.run o db).1 = .ok value →
    db.apply op.update = .ok (value, (op.run o db).2.connection.committed)
  failure : ∀ error, (op.run o db).1 = .error error → (op.run o db).2.connection.committed = db
  clean : (op.run o db).2.uncleaned = false → (op.run o db).2.connection.Clean

/-- The transaction begins, its first statement is executed and changes a row, and the outcomes of
the calls at its end betray it. -/
def Operation.loses (op : Operation) (o : Outcomes) (db : Database) : Bool :=
  match op.plan o db with
  | .error _ => false
  | .ok plan => o.lease && o.switchOff && o.statement 0 && plan.touches db &&
      o.betray (plan.completes o 0 db).isSome

theorem Operation.run_cases (op : Operation) (o : Outcomes) (db : Database) :
    (op.loses o db = false ∧ ∃ error,
      op.run o db = (.error error, { connection := { committed := db } })) ∨
    ∃ plan s, op.plan o db = .ok plan ∧ op.run o db = plan.run o s ∧ s.Within db ∧
      s.connection.view = db ∧ s.executed = 0 ∧
      op.loses o db = (o.statement 0 && plan.touches db &&
        o.betray (plan.completes o 0 db).isSome) := by
  unfold Operation.run Operation.loses transaction begin
  cases hplan : op.plan o db with
  | error error =>
    left
    cases o.lease
    · exact ⟨rfl, _, rfl⟩
    · exact ⟨rfl, _, rfl⟩
  | ok plan =>
    cases o.lease with
    | false => exact .inl ⟨rfl, _, rfl⟩
    | true =>
      cases o.switchOff with
      | false => exact .inl ⟨rfl, _, rfl⟩
      | true => exact .inr ⟨plan, _, rfl, rfl, ⟨rfl, rfl⟩, rfl, rfl, rfl⟩

/-- **Transactions report what happened**, except where `loses` says that they do not. -/
theorem transactions_report_iff (op : Operation) (o : Outcomes) (db : Database) :
    op.Reports o db ↔ op.loses o db = false := by
  obtain ⟨hloses, error, hrun⟩ | ⟨plan, s, hplan, hrun, hwithin, hview, hexecuted, hloses⟩ :=
    op.run_cases o db
  · refine iff_of_true ?_ hloses
    constructor
    · intro value hok
      rw [hrun] at hok
      cases hok
    · intro error' herror
      rw [hrun]
    · rw [hrun]
      exact fun _ => ⟨rfl, rfl⟩
  · have hleaves := leavesTables_decisive (o := o) (decisive_plan hplan) hwithin hview
    rw [hexecuted] at hleaves
    have hfailure : (∀ error, (op.run o db).1 = .error error →
        (op.run o db).2.connection.committed = db) ↔ op.loses o db = false := by
      rw [hrun, hloses, ← Bool.not_eq_true, Bool.and_eq_true, Bool.and_eq_true, and_assoc]
      exact hleaves
    refine ⟨fun hreports => hfailure.mp hreports.failure, fun hkept => ⟨?_, hfailure.mpr hkept, ?_⟩⟩
    · intro value hok
      rw [hrun] at hok ⊢
      have hcompletes := completes_run hwithin hok
      rw [hview, hexecuted] at hcompletes
      exact apply_plan hplan hcompletes
    · rw [hrun]
      exact clean_run plan

/-- Bob accepts Amy's request. The rows are committed, the switch back to autocommit fails, and the
operation reports a failure. -/
theorem committed_but_reported_failed :
    let db : Database :=
      { users := [(utf8 "amy", []), (utf8 "bob", [])], friendRequests := [(utf8 "amy", utf8 "bob")] }
    let outcome := (Operation.acceptFriendRequest (utf8 "amy") (utf8 "bob")).run
      { switchOn := false } db
    outcome.1 = .error [] ∧ outcome.2.connection.committed.areFriends (utf8 "amy") (utf8 "bob") = true ∧
      ¬(Operation.acceptFriendRequest (utf8 "amy") (utf8 "bob")).Reports { switchOn := false } db := by
  refine ⟨rfl, by decide +kernel, fun hreports => ?_⟩
  have hcommitted := congrArg Database.friendships (hreports.failure _ rfl)
  revert hcommitted
  decide +kernel

end MySql

end ChatRoom
