import ChatRoom.Proof.Symbolic

/-!
# The handlers keep the discipline

One theorem for each handler of the server, and `keeps_route` for all of them: from its start, a
handler performs allowed actions only, and where it returns it holds no mutex and has published
every change it has committed.
-/

namespace ChatRoom

open Interleaving Handler Typestate

variable {crypto : Crypto} {conn : ConnId} {task : Task} {arguments : Bytes}
variable {st : Progress} {username target token groupName reason : Bytes} {useCache : Bool}
  {post : Unit → Progress → Prop} {recipients : List Bytes} {formatUnixMs : Int → Bytes}
  {upload : IncomingFileUpload} {session : ClientSession}

/-- The handler keeps the discipline from the start of its task to an end that owes nothing. -/
def Disciplined (crypto : Crypto) (task : Task) (handler : Handler Unit) : Prop :=
  discipline.Keeps handler (task.start crypto) fun _ st => st.Free

theorem free_start (task : Task) : (task.start crypto).Free := ⟨rfl, rfl, rfl, rfl, rfl, rfl, rfl⟩

theorem disciplined_send {text : Bytes} : Disciplined crypto task (send conn text) :=
  keeps_send.mpr (free_start task)

theorem disciplined_requireLogin {body : Handler Unit}
    (hbody : task.session.loggedIn = true →
      discipline.Keeps body (task.start crypto) fun _ st => st.Free) :
    Disciplined crypto task (requireLogin conn task.session body) :=
  keeps_requireLogin (free_start task) hbody

/-! ### Friends -/

section

attribute [local simp] Disciplined Task.start Progress.free_iff Progress.MayUpdate Update.changes
  Update.published Progress.Performs Progress.Entitles Entitled Fact.Found Query.facts
  Database.answer Task.Runs Task.ActsFor Task.Signed Request.delivers

@[simp]
theorem keeps_addFriendEvent {type : FriendEventType} {actor : Bytes} :
    discipline.Keeps (addFriendEvent type actor target) st post ↔
      (st.task.Signed ∨ st.task.request.registers = true ∨ st.task.request.fromClient = false) ∧
        post () st.forget := by
  simp [addFriendEvent, Progress.forget, Progress.commit]

theorem disciplined_addFriend (hrequest : task.request = .addFriend arguments) :
    Disciplined crypto task (handleAddFriend conn task.session arguments) := by
  refine disciplined_requireLogin fun hlogin =>
    keeps_extractSingleUsername (free_start task) fun target => ?_
  dsimp only
  split
  · exact disciplined_send
  · simp +contextual [hlogin, hrequest]

theorem disciplined_acceptFriend (hrequest : task.request = .acceptFriend arguments) :
    Disciplined crypto task (handleAcceptFriend conn task.session arguments) := by
  refine disciplined_requireLogin fun hlogin =>
    keeps_extractSingleUsername (free_start task) fun requester => ?_
  simp [hlogin, hrequest]

theorem disciplined_rejectFriend (hrequest : task.request = .rejectFriend arguments) :
    Disciplined crypto task (handleRejectFriend conn task.session arguments) := by
  refine disciplined_requireLogin fun hlogin =>
    keeps_extractSingleUsername (free_start task) fun requester => ?_
  simp [hlogin, hrequest]

theorem disciplined_removeFriend (hrequest : task.request = .removeFriend arguments) :
    Disciplined crypto task (handleRemoveFriend conn task.session arguments) := by
  refine disciplined_requireLogin fun hlogin =>
    keeps_extractSingleUsername (free_start task) fun target => ?_
  simp [hlogin, hrequest]

theorem disciplined_blockFriend (hrequest : task.request = .blockFriend arguments) :
    Disciplined crypto task (handleBlockFriend conn task.session arguments) := by
  refine disciplined_requireLogin fun hlogin =>
    keeps_extractSingleUsername (free_start task) fun target => ?_
  split
  · exact disciplined_send
  · simp +contextual [hlogin, hrequest]

theorem disciplined_unblockFriend (hrequest : task.request = .unblockFriend arguments) :
    Disciplined crypto task (handleUnblockFriend conn task.session arguments) := by
  refine disciplined_requireLogin fun hlogin =>
    keeps_extractSingleUsername (free_start task) fun target => ?_
  simp [hlogin, hrequest]

/-! ### Groups -/

@[simp]
theorem keeps_groupRoles {current : Bytes}
    {post : Except Bytes (Option GroupRole × Option GroupRole) → Progress → Prop} :
    discipline.Keeps (groupRoles groupName current target) st post ↔
      (∀ error, post (.error error) st) ∧ ∀ currentRole,
        (∀ error, post (.error error)
          (st.learn ((Query.getGroupRole groupName current).facts currentRole))) ∧
        ∀ targetRole, post (.ok (currentRole, targetRole))
          ((st.learn ((Query.getGroupRole groupName current).facts currentRole)).learn
            ((Query.getGroupRole groupName target).facts targetRole)) := by
  simp [groupRoles]

theorem disciplined_createGroup (hrequest : task.request = .createGroup arguments) :
    Disciplined crypto task (handleCreateGroup conn task.session arguments) := by
  refine disciplined_requireLogin fun hlogin =>
    keeps_extractSingleGroupName (free_start task) fun groupName => ?_
  simp +contextual [hlogin, hrequest, Option.forall]

theorem disciplined_dissolveGroup (hrequest : task.request = .dissolveGroup arguments) :
    Disciplined crypto task (handleDissolveGroup conn task.session arguments) := by
  refine disciplined_requireLogin fun hlogin =>
    keeps_extractSingleGroupName (free_start task) fun groupName => ?_
  simp +contextual [hlogin, hrequest, or_imp, forall_and]

theorem disciplined_applyGroup (hrequest : task.request = .applyGroup arguments) :
    Disciplined crypto task (handleApplyGroup conn task.session arguments) := by
  refine disciplined_requireLogin fun hlogin =>
    keeps_extractSingleGroupName (free_start task) fun groupName => ?_
  simp +contextual [hlogin, hrequest, Option.forall]

theorem disciplined_leaveGroup (hrequest : task.request = .leaveGroup arguments) :
    Disciplined crypto task (handleLeaveGroup conn task.session arguments) := by
  refine disciplined_requireLogin fun hlogin =>
    keeps_extractSingleGroupName (free_start task) fun groupName => ?_
  refine keeps_bind.mpr (keeps_lockGroup.mpr ⟨rfl, keeps_bind.mpr (keeps_query.mpr
    ⟨fun _ => by simp, ?_⟩)⟩)
  rintro (_ | _ | _ | _) <;> simp +contextual [hlogin, hrequest]

theorem disciplined_addGroupAdmin (hrequest : task.request = .addGroupAdmin arguments) :
    Disciplined crypto task (handleAddGroupAdmin conn task.session arguments) := by
  refine disciplined_requireLogin fun hlogin =>
    keeps_extractGroupAndUsername (free_start task) fun groupName target => ?_
  refine keeps_bind.mpr (keeps_lockGroup.mpr ⟨rfl, keeps_bind.mpr (keeps_groupRoles.mpr
    ⟨fun _ => by simp, fun currentRole => ⟨fun _ => by simp, ?_⟩⟩)⟩)
  rintro (_ | _ | _ | _) <;> simp +contextual [hlogin, hrequest]

theorem disciplined_removeGroupAdmin (hrequest : task.request = .removeGroupAdmin arguments) :
    Disciplined crypto task (handleRemoveGroupAdmin conn task.session arguments) := by
  refine disciplined_requireLogin fun hlogin =>
    keeps_extractGroupAndUsername (free_start task) fun groupName target => ?_
  refine keeps_bind.mpr (keeps_lockGroup.mpr ⟨rfl, keeps_bind.mpr (keeps_groupRoles.mpr
    ⟨fun _ => by simp, fun currentRole => ⟨fun _ => by simp, ?_⟩⟩)⟩)
  rintro (_ | _ | _ | _) <;> simp +contextual [hlogin, hrequest]

theorem disciplined_approveGroup (hrequest : task.request = .approveGroup arguments) :
    Disciplined crypto task (handleApproveGroup conn task.session arguments) := by
  refine disciplined_requireLogin fun hlogin =>
    keeps_extractGroupAndUsername (free_start task) fun groupName target => ?_
  refine keeps_bind.mpr (keeps_lockGroup.mpr ⟨rfl, keeps_bind.mpr (keeps_query.mpr
    ⟨fun _ => by simp, ?_⟩)⟩)
  rintro (_ | _ | _ | _) <;> simp +contextual [isGroupManager, hlogin, hrequest]

theorem disciplined_rejectGroup (hrequest : task.request = .rejectGroup arguments) :
    Disciplined crypto task (handleRejectGroup conn task.session arguments) := by
  refine disciplined_requireLogin fun hlogin =>
    keeps_extractGroupAndUsername (free_start task) fun groupName target => ?_
  refine keeps_bind.mpr (keeps_lockGroup.mpr ⟨rfl, keeps_bind.mpr (keeps_query.mpr
    ⟨fun _ => by simp, ?_⟩)⟩)
  rintro (_ | _ | _ | _) <;> simp +contextual [isGroupManager, hlogin, hrequest]

@[simp]
theorem keeps_revokeGroupFiles (hquiet : st.task.request.delivers = false) :
    discipline.Keeps (revokeGroupFiles target groupName) st post ↔ post () st := by
  simp [revokeGroupFiles, Progress.met_quiet hquiet, keeps_primitive, Progress.Allowed,
    Progress.after]

theorem disciplined_removeGroupMember (hrequest : task.request = .removeGroupMember arguments) :
    Disciplined crypto task (handleRemoveGroupMember conn task.session arguments) := by
  refine disciplined_requireLogin fun hlogin =>
    keeps_extractGroupAndUsername (free_start task) fun groupName target => ?_
  split
  · exact disciplined_send
  refine keeps_bind.mpr (keeps_lockGroup.mpr ⟨rfl, keeps_bind.mpr (keeps_groupRoles.mpr
    ⟨fun _ => by simp, fun currentRole => ⟨fun _ => by simp, fun targetRole => ?_⟩⟩)⟩)
  -- which of the sixteen pairs of roles pass is left to computation
  rcases currentRole with _ | _ | _ | _ <;> rcases targetRole with _ | _ | _ | _ <;>
    simp +contextual [isGroupManager, hlogin, hrequest]

end

/-! ### Messages -/

theorem disciplined_publicMessage :
    Disciplined crypto task (handlePublicMessage conn task.session arguments) := by
  refine disciplined_requireLogin fun hlogin => ?_
  dsimp only
  split
  · exact disciplined_send
  simp only [keeps_bind, keeps_nowUnixMs, keeps_update, keeps_databaseError]
  refine fun now => ⟨⟨⟨by simp [Update.changes], by simp [Update.changes], ⟨hlogin, rfl⟩, rfl⟩,
    Progress.performs_routine (.inl hlogin) rfl⟩, fun error => ?_, fun messageId => ?_⟩
  · exact Progress.free_forget.mpr (free_start task)
  · refine (keeps_broadcastText fun content hcontent => .inr (.inl ?_)).mpr ?_
    · obtain rfl : content = trim arguments := List.mem_singleton.mp hcontent
      exact ⟨_, List.mem_append_left _ (List.mem_singleton_self _), rfl⟩
    · refine Progress.free_commit (free_start task) fun policy => ?_
      cases policy <;> rfl

theorem keeps_storePrivateMessage {payload : ChatMessagePayload}
    (hlogin : task.session.loggedIn = true)
    (hsender : payload.senderUsername = task.session.username)
    (htarget : task.request.messageTarget = some payload.recipientUsername)
    (hvalid : isValidUsername payload.recipientUsername = true) :
    discipline.Keeps (storePrivateMessage useCache conn task.session payload)
      { (task.start crypto) with friend := true }
      fun stored st => st.friend = true ∧ ({ st with friend := false } : Progress).Free ∧
        st.task = task ∧ st.core.loggedIn = true ∧ st.core.username = task.session.username ∧
        ∀ id generation, stored = some (id, generation) → .message ⟨id, payload⟩ ∈ st.known := by
  have hperforms : ∀ st : Progress, st.task = task →
      st.Performs (.addPrivateMessageWithDelivery payload) := by
    rintro st rfl
    exact Progress.performs_routine (.inl hlogin) rfl
  rw [storePrivateMessage, keeps_bind, keeps_loadDirect]
  intro generation
  simp only [keeps_bind, keeps_ite, keeps_ret, Prog.pure_eq]
  refine ⟨fun hcached => ?_, fun hcached => keeps_evaluate ?_ fun decision facts hne => ?_⟩
  · -- the cache: the target and the generation that were compared are those of the session
    obtain ⟨⟨huse, htargetCached⟩, hgeneration⟩ : (useCache = true ∧
        task.session.realtimePrivateTarget = payload.recipientUsername) ∧
          task.session.realtimePrivateGeneration = generation := by
      simpa using hcached
    simp +contextual [huse, hlogin, hperforms, hsender, htarget, hvalid, htargetCached, hgeneration,
      Task.start, Progress.free_iff, Progress.Sends, Progress.MayUpdate, Update.changes,
      Update.published, Progress.MayStoreMessage]
  · simp +contextual [hcached, hlogin, hperforms, hsender, hvalid, Task.start, Progress.free_iff,
      Progress.Sends, Progress.MayUpdate, Update.changes, Update.published,
      Progress.MayStoreMessage, Progress.MayAssign, Progress.PairKnown, Progress.afterAssign,
      ClientSession.assign]
  · cases decision with
    | allowed => exact absurd rfl hne
    | _ => simp [Task.start, Progress.free_iff, hlogin]

theorem keeps_liveDeliveryAllowed {generationUsed : Nat}
    (hfree : st.Free) (hlogin : st.core.loggedIn = true)
    (husername : st.core.username = task.session.username) :
    discipline.Keeps (liveDeliveryAllowed task.session target generationUsed) st
      fun _ st' => st'.Free ∧ st'.task = st.task ∧ st.known ⊆ st'.known := by
  rw [liveDeliveryAllowed, keeps_bind, keeps_loadDirect]
  intro generation
  obtain ⟨hfriend, hgroup, howedDirect, howedGroup, hdeleted, hregistered, hjoined⟩ := hfree
  simp only [keeps_ite, keeps_lockFriend, keeps_bind, Prog.pure_eq, keeps_ret]
  refine ⟨fun _ => ⟨⟨hfriend, hgroup, howedDirect, howedGroup, hdeleted, hregistered, hjoined⟩, ?_⟩,
    fun _ => ⟨⟨hfriend, hgroup⟩, ?_⟩⟩
  · exact ⟨trivial, List.Subset.refl _⟩
  refine keeps_evaluate ?_ fun decision facts hne => ?_
  · simp [Progress.free_iff, Progress.MayAssign, Progress.PairKnown, Progress.afterAssign,
      ClientSession.assign, hlogin, husername, hgroup, howedDirect, howedGroup, hdeleted,
      hregistered, hjoined]
  · cases decision with
    | allowed => exact absurd rfl hne
    | _ =>
      simp [Progress.free_iff, hgroup, howedDirect, howedGroup, hdeleted, hregistered, hjoined]

theorem keeps_deliverPrivateMessage {message : StoredMessage} {live : Bool}
    (hfree : st.Free) (hdelivers : st.task.request.delivers = true) (hsigned : st.task.Signed)
    (hstored : .message message ∈ st.known) :
    discipline.Keeps (deliverPrivateMessage conn message live) st fun _ st => st.Free := by
  have hecho : ∀ st : Progress, st.MaySend conn message.echoLine none := fun st =>
    Progress.maySend_codedLine nofun
  have hsaved : ∀ (st : Progress) (text : Bytes),
      st.MaySend conn (message.echoLine ++ .plain text) none := fun st text =>
    ⟨fun content hcontent => (hecho st).1 content (by simpa using hcontent), nofun⟩
  have hlive : ∀ target, (st.met message.payload.recipientUsername target).MaySend target
      message.liveLine
        (some ⟨.privateMessage, message.id, message.payload.recipientUsername, false⟩) := by
    intro target
    rw [Progress.met, if_pos hdelivers]
    refine Progress.maySend_codedLine fun mark hmark => ?_
    cases hmark
    exact ⟨⟨message, hstored, rfl, .inl rfl⟩, .inl List.mem_cons_self, .inl hsigned⟩
  cases live <;> simp [deliverPrivateMessage, hecho, hsaved, hlive, hfree]

theorem disciplined_privateMessage
    (hrequest : task.request = .privateMessage arguments) :
    Disciplined crypto task (handlePrivateMessage useCache conn task.session arguments) := by
  refine disciplined_requireLogin fun hsession => ?_
  split
  · exact disciplined_send
  rename_i target encodedMessage hsplit
  split
  · exact disciplined_send
  rename_i hguard
  have hvalid : isValidUsername target = true := by
    by_contra hvalid
    simp [hvalid] at hguard
  split
  · exact disciplined_send
  split
  · exact disciplined_send
  split
  · exact disciplined_send
  have htarget : task.request.messageTarget = some target := by
    rw [hrequest, Request.messageTarget, hsplit, Option.map_some]
  rw [keeps_bind, keeps_nowUnixMs]
  intro now
  rw [keeps_bind, keeps_lockFriend]
  refine ⟨⟨rfl, rfl⟩, (keeps_storePrivateMessage hsession rfl htarget hvalid).mono fun stored st hst =>
    ⟨hst.1, ?_⟩⟩
  obtain ⟨-, hfree, htask, hlogin, husername, hstored⟩ := hst
  have hfree : ({ st with friend := false, guarded := [], guardedDirect := none } : Progress).Free :=
    { hfree with }
  cases stored with
  | none => exact hfree
  | some stored =>
    obtain ⟨id, generation⟩ := stored
    refine keeps_bind.mpr (Keeps.mono (keeps_liveDeliveryAllowed hfree hlogin husername) ?_)
    rintro live st' ⟨hfree, htask', hkept⟩
    exact keeps_deliverPrivateMessage hfree (by rw [htask', htask, hrequest]; rfl)
      (by rw [htask', htask]; exact .inl hsession) (hkept (hstored id generation rfl))

theorem groupKnown_queries {name : Bytes} {info : GroupInfo} {role : GroupRole}
    {members : List Bytes} {facts : List Fact} :
    Progress.GroupKnown ((Query.listGroupMemberUsernames name).facts members ++
        ((Query.getGroupRole name username).facts (some role) ++
          ((Query.getGroup name).facts (some info) ++ facts)))
      name info.id (members.filter fun member => member ≠ username) username :=
  ⟨info, members, by simp [Query.facts], rfl, by simp [Query.facts], by simp [Query.facts], rfl⟩

theorem keeps_groupRecipients
    (hfree : st.Free) (hlogin : st.core.loggedIn = true)
    (husername : st.core.username = task.session.username) :
    discipline.Keeps (groupRecipients useCache conn task.session groupName) st
      fun _ st' => st'.Free ∧ st'.task = st.task ∧ st'.core.loggedIn = true ∧
        st'.core.username = task.session.username := by
  obtain ⟨hfriend, hgroup, howedDirect, howedGroup, hdeleted, hregistered, hjoined⟩ := hfree
  rw [groupRecipients, keeps_bind, keeps_loadGroup]
  intro generation
  simp only [keeps_ite, Prog.pure_eq, keeps_ret]
  refine ⟨fun _ => ⟨⟨hfriend, hgroup, howedDirect, howedGroup, hdeleted, hregistered, hjoined⟩, trivial,
    hlogin, husername⟩, fun _ => ?_⟩
  refine keeps_bind.mpr (keeps_query.mpr ⟨fun _ => ?_, fun group => ?_⟩)
  · simp [Progress.free_iff, *]
  refine keeps_bind.mpr (keeps_query.mpr ⟨fun _ => ?_, fun role => ?_⟩)
  · simp [Progress.free_iff, *]
  refine keeps_bind.mpr (keeps_query.mpr ⟨fun _ => ?_, fun members => ?_⟩)
  · simp [Progress.free_iff, *]
  obtain _ | group := group
  · simp [Progress.free_iff, *]
  obtain _ | role := role
  · simp [Progress.free_iff, *]
  simp only [keeps_bind, keeps_assign, keeps_ret]
  refine ⟨⟨hlogin, rfl, ?_⟩, ⟨hfriend, hgroup, howedDirect, howedGroup, hdeleted, hregistered, hjoined⟩,
    rfl, hlogin, husername⟩
  rw [← husername]
  exact groupKnown_queries

theorem keeps_deliverGroupMessage {message : StoredGroupMessage} (hfree : st.Free)
    (hdelivers : st.task.request.delivers = true) (hsigned : st.task.Signed)
    (hstored : .groupMessage message ∈ st.known) :
    discipline.Keeps (deliverGroupMessage conn message recipients) st fun _ st => st.Free := by
  rw [deliverGroupMessage, keeps_bind, keeps_sendMessage]
  refine ⟨Progress.maySend_codedLine nofun, ?_⟩
  refine Keeps.mono (keeps_forEach_invariant (I := fun st => st.Free ∧
    st.task.request.delivers = true ∧ st.task.Signed ∧ .groupMessage message ∈ st.known) ?_
    ⟨hfree, hdelivers, hsigned, hstored⟩) fun _ st hst => hst.1
  rintro recipient - st ⟨hfree, hdelivers, hsigned, hstored⟩
  simp only [keeps_bind, keeps_findOnlineUser, keeps_adjustRedisUnreadBestEffort,
    keeps_sendMessage]
  refine ⟨⟨hfree, hdelivers, hsigned, hstored⟩, fun target => ?_⟩
  have hmet : (st.met recipient target).Free := Progress.free_met.mpr hfree
  rw [Progress.met, if_pos hdelivers] at hmet ⊢
  refine ⟨Progress.maySend_codedLine fun mark hmark => ?_, hmet, hdelivers, hsigned, hstored⟩
  cases hmark
  exact ⟨⟨message, hstored, rfl, .inl rfl⟩, .inl List.mem_cons_self, .inl hsigned⟩

theorem disciplined_groupMessage
    (hrequest : task.request = .groupMessage arguments) :
    Disciplined crypto task (handleGroupMessage useCache conn task.session arguments) := by
  refine disciplined_requireLogin fun hsession => ?_
  split
  · exact disciplined_send
  split
  · exact disciplined_send
  rename_i groupName _ _ hguard
  have hvalid : isValidGroupName groupName = true := by
    by_contra hvalid
    simp [hvalid] at hguard
  split
  · exact disciplined_send
  split
  · exact disciplined_send
  refine keeps_bind.mpr ((keeps_groupRecipients (free_start task) hsession rfl).mono ?_)
  rintro found st ⟨hfree, htask, hlogin, husername⟩
  cases found with
  | none => exact hfree
  | some found =>
    have hsigned : st.task.Signed := by rw [htask]; exact .inl hsession
    simp only [keeps_bind, keeps_nowUnixMs, keeps_update, keeps_databaseError]
    refine fun now => ⟨⟨⟨by simp [Update.changes], by simp [Update.changes],
      ⟨hlogin, husername.symm⟩, hvalid⟩, Progress.performs_routine hsigned rfl⟩, fun error => ?_,
      fun messageId => ?_⟩
    · exact Progress.free_forget.mpr hfree
    · refine keeps_deliverGroupMessage (Progress.free_commit hfree fun policy => ?_) ?_
        (by rwa [Progress.commit_task]) List.mem_cons_self
      · cases policy <;> rfl
      · rw [Progress.commit_task, htask]
        exact congrArg Request.delivers hrequest

theorem keeps_sendHistory {α : Type} {heading : Bytes} {line : α → WireText} {content : α → Bytes}
    {messages : List α} (hfree : st.Free)
    (hline : ∀ message, (line message).contents = [content message])
    (hread : ∀ message ∈ messages, st.HasRead (content message)) :
    discipline.Keeps (sendMessage conn (historyText heading line messages) none) st
      fun _ st => st.Free := by
  refine keeps_sendMessage.mpr ⟨⟨fun text htext => ?_, nofun⟩, hfree⟩
  rw [Progress.contents_historyText hline] at htext
  obtain ⟨message, hmessage, rfl⟩ := List.mem_map.mp htext
  exact .inr (hread message hmessage)

theorem disciplined_historyPublic :
    Disciplined crypto task (handleHistoryPublic formatUnixMs conn task.session arguments) := by
  refine disciplined_requireLogin fun _ => ?_
  dsimp only
  split
  · exact disciplined_send
  refine keeps_bind.mpr (keeps_query.mpr ⟨fun _ => keeps_send.mpr (free_start task), ?_⟩)
  intro messages
  refine keeps_sendHistory (Progress.free_learn.mpr (free_start task))
    (fun _ => Progress.contents_rawLine) fun message hmessage => .inl ⟨message, ?_, rfl⟩
  exact List.mem_append_left _ (List.mem_map_of_mem hmessage)

theorem disciplined_historyPrivate :
    Disciplined crypto task (handleHistoryPrivate formatUnixMs conn task.session arguments) := by
  refine disciplined_requireLogin fun _ => ?_
  split
  · exact disciplined_send
  split
  · exact disciplined_send
  split
  · exact disciplined_send
  refine keeps_bind.mpr (keeps_query.mpr ⟨fun _ => keeps_send.mpr (free_start task), ?_⟩)
  rintro (_ | _)
  · exact keeps_send.mpr (Progress.free_learn.mpr (free_start task))
  have hfree : ∀ facts, ((task.start crypto).learn facts).Free := fun facts =>
    Progress.free_learn.mpr (free_start task)
  refine keeps_bind.mpr (keeps_query.mpr ⟨fun _ => keeps_send.mpr (hfree _), fun messages => ?_⟩)
  refine keeps_sendHistory (Progress.free_learn.mpr (hfree _)) (fun _ => Progress.contents_rawLine)
    fun message hmessage => .inl ⟨message, ?_, rfl⟩
  exact List.mem_append_left _ (List.mem_map_of_mem hmessage)

theorem disciplined_historyGroup :
    Disciplined crypto task (handleHistoryGroup formatUnixMs conn task.session arguments) := by
  refine disciplined_requireLogin fun _ => ?_
  split
  · exact disciplined_send
  split
  · exact disciplined_send
  split
  · exact disciplined_send
  refine keeps_bind.mpr (keeps_query.mpr ⟨fun _ => keeps_send.mpr (free_start task), ?_⟩)
  rintro (_ | _)
  · exact keeps_send.mpr (Progress.free_learn.mpr (free_start task))
  have hfree : ∀ facts, ((task.start crypto).learn facts).Free := fun facts =>
    Progress.free_learn.mpr (free_start task)
  refine keeps_bind.mpr (keeps_query.mpr ⟨fun _ => keeps_send.mpr (hfree _), fun messages => ?_⟩)
  refine keeps_sendHistory (Progress.free_learn.mpr (hfree _)) (fun _ => Progress.contents_rawLine)
    fun message hmessage => .inr ⟨message, ?_, rfl⟩
  exact List.mem_append_left _ (List.mem_map_of_mem hmessage)

theorem disciplined_enterPrivate (hrequest : task.request = .enterPrivate arguments) :
    Disciplined crypto task (handleEnterPrivate conn task.session arguments) := by
  unfold handleEnterPrivate sendEnterError
  split
  · exact disciplined_send
  rename_i hguard
  have hlogin : task.session.loggedIn = true := by
    by_contra hlogin
    simp [hlogin] at hguard
  split
  · rename_i target hwords
    have htarget : task.request.enteredTarget = some target := by
      rw [hrequest, Request.enteredTarget, hwords]
    split
    · exact disciplined_send
    split
    · exact disciplined_send
    refine keeps_bind.mpr (keeps_evaluate ?_ fun decision facts hne => ?_)
    · simp [Task.start, Progress.free_iff, Progress.MayAssign, Progress.PairKnown,
        Progress.afterAssign, ClientSession.assign, htarget, hlogin]
    · cases decision with
      | allowed => exact absurd rfl hne
      | _ => simp [Task.start, Progress.free_iff]
  · exact disciplined_send

theorem disciplined_enterGroup (hrequest : task.request = .enterGroup arguments) :
    Disciplined crypto task (handleEnterGroup conn task.session arguments) := by
  unfold handleEnterGroup sendEnterError
  split
  · exact disciplined_send
  rename_i hguard
  have hlogin : task.session.loggedIn = true := by
    by_contra hlogin
    simp [hlogin] at hguard
  split
  · rename_i groupName hwords
    have hname : task.request.enteredGroup = some groupName := by
      rw [hrequest, Request.enteredGroup, hwords]
    split
    · exact disciplined_send
    refine keeps_bind.mpr (keeps_query.mpr ⟨fun _ => keeps_send.mpr (free_start task), ?_⟩)
    rintro (_ | group)
    · exact keeps_send.mpr ⟨rfl, rfl, rfl, rfl, rfl, rfl, rfl⟩
    refine keeps_bind.mpr (keeps_query.mpr
      ⟨fun _ => keeps_send.mpr ⟨rfl, rfl, rfl, rfl, rfl, rfl, rfl⟩, ?_⟩)
    rintro (_ | role)
    · exact keeps_send.mpr ⟨rfl, rfl, rfl, rfl, rfl, rfl, rfl⟩
    refine keeps_bind.mpr (keeps_query.mpr
      ⟨fun _ => keeps_send.mpr ⟨rfl, rfl, rfl, rfl, rfl, rfl, rfl⟩, ?_⟩)
    intro members
    simp only [keeps_bind, keeps_assign, keeps_loadGroup, keeps_send]
    exact ⟨⟨hname, groupKnown_queries⟩, fun generation =>
      ⟨⟨hlogin, rfl, hname, groupKnown_queries⟩, ⟨rfl, rfl, rfl, rfl, rfl, rfl, rfl⟩⟩⟩
  · exact disciplined_send

/-! ### Files -/

theorem keeps_rejectFileUpload (hfree : st.Free) :
    discipline.Keeps (rejectFileUpload conn token reason) st fun _ st => st.Free := by
  simp [rejectFileUpload, Progress.MayAssign, hfree]

theorem keeps_pauseFileUpload (hfree : st.Free) :
    discipline.Keeps (pauseFileUpload conn token reason) st fun _ st => st.Free := by
  simp [pauseFileUpload, Progress.MayAssign, hfree]

theorem keeps_beginUpload {requested : FileUploadResumeState}
    (hfree : st.Free) (hlogin : st.core.loggedIn = true)
    (hsender : requested.metadata.senderUsername = st.core.username) (hsigned : st.task.Signed) :
    discipline.Keeps (beginUpload conn token requested) st fun _ st => st.Free := by
  refine keeps_bind.mpr (keeps_primitive.mpr ⟨⟨hlogin, hsender, hsigned⟩, fun result => ?_⟩)
  cases result with
  | error error => exact keeps_rejectFileUpload hfree
  | ok result =>
    obtain ⟨hfriend, hgroup, howedDirect, howedGroup, hdeleted, hregistered, hjoined⟩ := hfree
    refine keeps_bind.mpr (keeps_assign.mpr ⟨rfl, keeps_send.mpr ?_⟩)
    exact Progress.free_afterAssign
      ⟨hfriend, hgroup, howedDirect, howedGroup, hdeleted, hregistered, hjoined⟩

theorem disciplined_fileBeginPrivate :
    Disciplined crypto task (handleFileBeginPrivate conn task.session arguments) := by
  refine disciplined_requireLogin fun hlogin => ?_
  dsimp only
  split
  · exact keeps_rejectFileUpload (free_start task)
  split
  · exact keeps_rejectFileUpload (free_start task)
  split
  · exact keeps_rejectFileUpload (free_start task)
  rw [keeps_bind, keeps_lockFriend, keeps_bind]
  refine ⟨⟨rfl, rfl⟩, keeps_evaluate ?_ fun decision facts hne => ?_⟩
  · simp only [Prog.pure_eq, keeps_ret, keeps_bind, keeps_nowUnixMs]
    exact ⟨rfl, fun now => keeps_beginUpload ⟨rfl, rfl, rfl, rfl, rfl, rfl, rfl⟩ hlogin rfl (.inl hlogin)⟩
  · cases decision with
    | allowed => exact absurd rfl hne
    | _ => simp [rejectFileUpload, Progress.MayAssign, Progress.afterAssign, Task.start, Progress.free_iff]

theorem disciplined_fileBeginGroup :
    Disciplined crypto task (handleFileBeginGroup conn task.session arguments) := by
  refine disciplined_requireLogin fun hlogin => ?_
  dsimp only
  split
  · exact keeps_rejectFileUpload (free_start task)
  split
  · exact keeps_rejectFileUpload (free_start task)
  refine keeps_bind.mpr (keeps_query.mpr
    ⟨fun _ => keeps_rejectFileUpload (free_start task), fun group => ?_⟩)
  refine keeps_bind.mpr (keeps_query.mpr
    ⟨fun _ => keeps_rejectFileUpload ⟨rfl, rfl, rfl, rfl, rfl, rfl, rfl⟩, fun role => ?_⟩)
  match group, role with
  | none, _ => exact keeps_rejectFileUpload ⟨rfl, rfl, rfl, rfl, rfl, rfl, rfl⟩
  | some _, none => exact keeps_rejectFileUpload ⟨rfl, rfl, rfl, rfl, rfl, rfl, rfl⟩
  | some group, some role =>
    refine keeps_bind.mpr (keeps_query.mpr
      ⟨fun _ => keeps_rejectFileUpload ⟨rfl, rfl, rfl, rfl, rfl, rfl, rfl⟩, fun members => ?_⟩)
    dsimp only
    split
    · exact keeps_rejectFileUpload ⟨rfl, rfl, rfl, rfl, rfl, rfl, rfl⟩
    · exact keeps_bind.mpr (keeps_nowUnixMs.mpr fun now =>
        keeps_beginUpload ⟨rfl, rfl, rfl, rfl, rfl, rfl, rfl⟩ hlogin rfl (.inl hlogin))

theorem remainingBytes_of_parseFileChunk {words : List Bytes} {frame : PendingBinaryUploadFrame}
    (hparse : parseFileChunk session words = .ok frame) : 0 < frame.remainingBytes := by
  unfold parseFileChunk at hparse
  repeat' split at hparse
  all_goals cases hparse
  rename_i hcond
  simp only [Bool.or_eq_true, decide_eq_true_eq, not_or] at hcond
  exact Nat.pos_of_ne_zero hcond.1.1.1

theorem disciplined_fileChunk : Disciplined crypto task (handleFileChunk conn task.session arguments) := by
  refine disciplined_requireLogin fun hlogin => ?_
  dsimp only
  split
  · exact keeps_pauseFileUpload (free_start task)
  · rename_i hparse
    exact keeps_assign.mpr ⟨⟨remainingBytes_of_parseFileChunk hparse, .inl hlogin⟩,
      Progress.free_afterAssign (free_start task)⟩

theorem disciplined_fileFrame {bytes : Bytes} :
    Disciplined crypto task (onFrameBytes conn task.session bytes) := by
  unfold onFrameBytes
  split
  · exact free_start task
  rename_i frame hframe
  have hpending : task.session.binaryUpload.isSome = true := by rw [hframe]; rfl
  split
  · simp [Disciplined, Progress.MayAssign, Progress.afterAssign, keeps_primitive, Progress.Allowed,
      Progress.after, Task.start, Progress.free_iff]
  dsimp only
  split
  · refine keeps_bind.mpr (keeps_primitive.mpr ⟨.inr (.inr hpending), fun result => ?_⟩)
    cases result with
    | error error => exact keeps_pauseFileUpload (free_start task)
    | ok acceptedOffset =>
      exact keeps_assign.mpr ⟨trivial, Progress.free_afterAssign (free_start task)⟩
  · rename_i hunfinished
    exact keeps_assign.mpr ⟨⟨Nat.pos_of_ne_zero hunfinished, .inr ⟨hpending, rfl⟩⟩,
      Progress.free_afterAssign (free_start task)⟩

@[simp]
theorem keeps_cancelAndReject :
    discipline.Keeps (cancelAndReject conn token reason) st post ↔
      st.task.Signed ∧ post () st := by
  simp [cancelAndReject, keeps_primitive, Progress.Allowed, Progress.after]

theorem disciplined_fileAbort : Disciplined crypto task (handleFileAbort conn task.session arguments) := by
  unfold handleFileAbort
  split
  · split
    · exact free_start task
    split
    · exact disciplined_send
    · rename_i hfound
      have hsigned : task.Signed := by
        refine .inr (.inl (Option.isSome_iff_ne_none.mpr fun hnone => hfound ?_))
        rw [hnone]
        rfl
      exact keeps_bind.mpr (keeps_assign.mpr ⟨trivial, keeps_cancelAndReject.mpr
        ⟨hsigned, Progress.free_afterAssign (free_start task)⟩⟩)
  · exact free_start task

theorem keeps_checkUpload (hfree : st.Free) (htask : st.task = task) (hsigned : task.Signed) :
    discipline.Keeps (checkUpload conn task.session upload) st fun found st' =>
      st'.Free ∧ st'.task = st.task ∧ st'.stored = st.stored ∧
        ∀ recipients, found = some recipients → st'.UploadPermitted upload recipients := by
  obtain ⟨hfriend, hgroup, howedDirect, howedGroup, hdeleted, hregistered, hjoined⟩ := hfree
  unfold checkUpload
  split
  · rename_i hscope
    rw [keeps_lockFriend, keeps_bind]
    refine ⟨⟨hfriend, hgroup⟩, keeps_evaluate ?_ fun decision facts hne => ?_⟩
    · simp [Progress.free_iff, Progress.UploadPermitted, hscope, htask, hgroup, howedDirect,
        howedGroup, hdeleted, hregistered, hjoined]
    · cases decision with
      | allowed => exact absurd rfl hne
      | _ => simp [Progress.free_iff, htask, hsigned, hgroup, howedDirect, howedGroup, hdeleted,
        hregistered, hjoined]
  · rename_i hscope
    rw [keeps_lockGroup, keeps_bind, keeps_query]
    refine ⟨hgroup, fun error => ?_, fun senderRole => ?_⟩
    · simp [Progress.free_iff, htask, hsigned, hfriend, howedDirect, howedGroup, hdeleted,
        hregistered, hjoined]
    refine keeps_bind.mpr (keeps_query.mpr ⟨fun error => ?_, fun members => ?_⟩)
    · simp [Progress.free_iff, htask, hsigned, hfriend, howedDirect, howedGroup, hdeleted,
        hregistered, hjoined]
    cases senderRole with
    | none => simp [Progress.free_iff, htask, hsigned, hfriend, howedDirect, howedGroup, hdeleted,
        hregistered, hjoined]
    | some role => 
        simp +contextual [Progress.free_iff, Progress.UploadPermitted, hscope, htask, hsigned, hfriend,
          howedDirect, howedGroup, hdeleted, hregistered, hjoined, Query.facts]

theorem keeps_announceTransfer {stored : StoredFileTransfer} (hfree : st.Free)
    (hended : st.task.endedUpload.isSome = true) (hquiet : st.task.request.delivers = false)
    (hrecorded : ∀ recipient ∈ recipients, .recorded stored.id recipient ∈ st.known) :
    discipline.Keeps (announceTransfer conn upload stored recipients) st fun _ st => st.Free := by
  simp only [announceTransfer, keeps_bind, keeps_send]
  rw [keeps_forEach fun recipient post => keeps_adjustRedisUnreadBestEffort]
  refine Keeps.mono (keeps_forEach_invariant ?_ (rfl : st = st)) ?_
  · rintro recipient hrecipient st rfl
    simpa [Progress.met_quiet hquiet, hended] using hrecorded recipient hrecipient
  · rintro _ st' rfl
    exact hfree

theorem keeps_recordUpload (hfree : st.Free) (htask : st.task.endedUpload = some upload)
    (hquiet : st.task.request.delivers = false) (hsigned : st.task.Signed) (hstored : st.stored = none)
    (hpermitted : st.UploadPermitted upload recipients) :
    discipline.Keeps (recordUpload conn upload recipients) st fun _ st => st.Free := by
  obtain ⟨hfriend, hgroup, howedDirect, howedGroup, hdeleted, hregistered, hjoined⟩ := hfree
  refine keeps_bind.mpr (keeps_primitive.mpr ⟨⟨htask, hstored⟩, fun result => ?_⟩)
  cases result with
  | error error => simp [Progress.after, Progress.free_iff, *]
  | ok path =>
    have hmay : ({ st with stored := some path } : Progress).MayRecord
        { upload.resumeState.metadata with storedRelativePath := path } recipients :=
      ⟨upload, path, htask, rfl, rfl, hpermitted⟩
    refine keeps_bind.mpr (keeps_update.mpr ⟨⟨⟨by simp [Update.changes], by simp [Update.changes], hmay⟩,
      Progress.performs_routine hsigned rfl⟩, fun error => ?_, fun id => ?_⟩)
    · simp [Progress.after, keeps_primitive, Progress.Allowed, Progress.free_iff, *]
    · refine keeps_announceTransfer ⟨?_, ?_, ?_, ?_, ?_, ?_, ?_⟩ ?_ ?_ ?_
      all_goals simp +contextual [Progress.after, Update.published, *]

theorem disciplined_fileEnd (hrequest : task.request = .fileEnd arguments) :
    Disciplined crypto task (handleFileEnd conn task.session arguments) := by
  refine disciplined_requireLogin fun hlogin => ?_
  dsimp only
  split
  · exact keeps_pauseFileUpload (free_start task)
  rename_i upload hfilter
  have hupload : task.endedUpload = some upload := by
    rw [Task.endedUpload, hrequest]
    exact (Option.filter_eq_some_iff.mp hfilter).1
  split
  · exact keeps_pauseFileUpload (free_start task)
  rw [keeps_bind, keeps_assign]
  refine ⟨trivial, ?_⟩
  have hfree : ((task.start crypto).afterAssign .takeUpload).Free :=
    Progress.free_afterAssign (free_start task)
  refine keeps_bind.mpr ((keeps_checkUpload hfree rfl (.inl hlogin)).mono fun found st hst => ?_)
  obtain ⟨hfree, htask, hstored, hpermitted⟩ := hst
  cases found with
  | none => exact hfree
  | some recipients =>
    refine keeps_recordUpload hfree ?_ ?_ ?_ hstored (hpermitted recipients rfl)
    · rw [htask]
      exact hupload
    · rw [htask]
      exact congrArg Request.delivers hrequest
    · rw [htask]
      exact .inl hlogin

theorem keeps_deliverFileToUser {transfer : StoredFileTransfer} {recipient : Bytes} (hfree : st.Free)
    (hoffer : session.loggedIn = true → session.username = recipient →
      st.MayAssign (.offer transfer)) :
    discipline.Keeps (deliverFileToUser conn session transfer recipient) st
      fun _ st' => (st'.Free ∧ st'.core.loggedIn = st.core.loggedIn ∧
        st'.core.username = st.core.username) ∧ st.known ⊆ st'.known := by
  unfold deliverFileToUser mayDeliver
  split
  · exact ⟨⟨hfree, rfl, rfl⟩, List.Subset.refl _⟩
  · rename_i hguard
    have hmay : st.MayAssign (.offer transfer) := by
      simp only [Bool.or_eq_true, not_or] at hguard
      apply hoffer
      · simpa using hguard.1
      · simpa using hguard.2
    have hkept : ∀ facts session, ((st.learn facts).saw session).MayAssign (.offer transfer) :=
      fun facts session => ⟨hmay.1, hmay.2.imp_left fun h => List.mem_append_right _ h⟩
    have hdone : ∀ facts session,
        (((st.learn facts).saw session).afterAssign (.offer transfer)).core.loggedIn =
            st.core.loggedIn ∧
          (((st.learn facts).saw session).afterAssign (.offer transfer)).core.username =
            st.core.username ∧
          st.known ⊆ (((st.learn facts).saw session).afterAssign (.offer transfer)).known :=
      fun facts session => ⟨rfl, rfl, List.subset_append_right _ _⟩
    cases transfer.metadata.scope <;> simp [hkept, hfree, hdone]

theorem disciplined_fileResumeRequest :
    Disciplined crypto task (handleFileResumeRequest conn task.session arguments) := by
  refine disciplined_requireLogin fun _ => ?_
  split
  · rw [keeps_bind, keeps_currentSession]
    intro session
    split
    · exact keeps_send.mpr (Progress.free_saw.mpr (free_start task))
    rename_i transfer hoffer
    have hid := List.find?_some hoffer
    rw [decide_eq_true_eq] at hid
    have hmem : transfer ∈ session.offeredFiles := List.mem_of_find?_eq_some hoffer
    have hoffered : transfer.id ∈ ((task.start crypto).saw session).offered :=
      List.mem_append_left _ (List.mem_map_of_mem hmem)
    have hgroup : ∀ facts current, transfer.id ∉ current.fileDeliveriesInProgress →
        ((((task.start crypto).saw session).learn facts).saw current).MayDeliver transfer.id :=
      fun facts current hnew =>
        ⟨List.mem_append_right _ hoffered, rfl, _, rfl, hnew⟩
    have hprivate : ∀ current, transfer.id ∉ current.fileDeliveriesInProgress →
        (((task.start crypto).saw session).saw current).MayDeliver transfer.id :=
      fun current hnew =>
        ⟨List.mem_append_right _ hoffered, rfl, _, rfl, hnew⟩
    simp +contextual [Progress.MayAssign, free_start task, Option.forall, ← hid, hgroup, hprivate]
  · exact disciplined_send

theorem disciplined_fileReceived :
    Disciplined crypto task (handleFileReceived conn task.session arguments) := by
  refine disciplined_requireLogin fun hlogin => ?_
  split
  · split
    · exact disciplined_send
    split
    · exact disciplined_send
    refine keeps_bind.mpr (keeps_query.mpr ⟨fun error => keeps_send.mpr (free_start task), ?_⟩)
    rintro (_ | transfer)
    · simp [Progress.MayAssign, free_start task]
    dsimp only
    split
    · simp [Progress.MayAssign, free_start task]
    simp only [keeps_bind, keeps_nowUnixMs, keeps_update, keeps_databaseError, keeps_assign,
      keeps_adjustRedisUnreadBestEffort, keeps_send]
    refine fun now => ⟨⟨⟨by simp [Update.changes], by simp [Update.changes], trivial⟩,
      Progress.performs_routine (.inl hlogin) rfl⟩, fun error => ?_, fun result => ?_⟩
    · simpa using free_start task
    · refine ⟨trivial, trivial, Progress.free_afterAssign (Progress.free_afterAssign ?_)⟩
      apply Progress.free_commit (Progress.free_learn.mpr (free_start task))
      intro policy
      cases policy <;> rfl
  · exact disciplined_send

theorem disciplined_fileReceiveFailed :
    Disciplined crypto task (handleFileReceiveFailed conn arguments) := by
  unfold handleFileReceiveFailed
  split
  · simp [Disciplined, Progress.MayAssign, free_start task]
  · exact free_start task

theorem disciplined_deliveryFailed {transferId : Nat} {error : Bytes} :
    Disciplined crypto task (deliveryFailed transferId error) := by
  simp [Disciplined, deliveryFailed, Progress.MayAssign, free_start task]

/-! ### Accounts and connections -/

theorem disciplined_register (hrequest : task.request = .register arguments) :
    Disciplined crypto task (handleRegister conn task.session arguments) := by
  unfold handleRegister
  dsimp only
  split
  · exact disciplined_send
  split
  · split
    · exact disciplined_send
    · rename_i username _ _ hguard
      have hvalid : isValidUsername username = true := by
        by_contra hvalid
        simp [hvalid] at hguard
      simp [Disciplined, keeps_primitive, Progress.Allowed, Progress.after, Option.forall,
        Task.start, Progress.free_iff, Progress.MayUpdate, Update.changes, Update.published, hvalid,
        Progress.Performs, Progress.Entitles, Request.registers, hrequest]
  · exact disciplined_send

def FreeAs (username : Bytes) (st : Progress) : Prop :=
  st.Free ∧ st.core.loggedIn = true ∧ st.core.username = username ∧ st.down = false ∧
    (st.task.Signed ∨ st.task.request.logsIn = true)

theorem FreeAs.reaches (hst : FreeAs username st) :
    st.Reaches st.task.conn username ∧ (st.task.Signed ∨ st.task.request.logsIn = true) :=
  ⟨.inr ⟨rfl, hst.2.1, hst.2.2.1, hst.1.registered, hst.2.2.2.1⟩, hst.2.2.2.2⟩

theorem FreeAs.learn {facts : List Fact}
    (hst : FreeAs username st) : FreeAs username (st.learn facts) :=
  ⟨Progress.free_learn.mpr hst.1, hst.2⟩

theorem keeps_notifyPendingRequests (hst : FreeAs username st) :
    discipline.Keeps (notifyPendingRequests conn username) st
      fun _ st' => FreeAs username st' ∧ st'.task = st.task := by
  simp [notifyPendingRequests, FreeAs, hst.1, hst.2.1, hst.2.2]

theorem keeps_sendRedisUnreadSummaryBestEffort (hpost : post () st) :
    discipline.Keeps (sendRedisUnreadSummaryBestEffort conn username) st post := by
  rw [sendRedisUnreadSummaryBestEffort, keeps_bind, keeps_redis]
  refine ⟨trivial, fun reply => ?_⟩
  rw [Progress.called_unreadCounts]
  cases reply <;> simp [hpost]

theorem keeps_deliverPendingPrivateMessages
    (hst : FreeAs username st) :
    discipline.Keeps (deliverPendingPrivateMessages st.task.conn username) st
      fun _ st' => FreeAs username st' ∧ st'.task = st.task := by
  rw [deliverPendingPrivateMessages, keeps_bind, keeps_query]
  refine ⟨fun error => ⟨hst, rfl⟩, fun messages => ?_⟩
  simp only [Prog.pure_eq, keeps_ite, keeps_bind, keeps_send, keeps_ret,
    Classical.imp_and_neg_imp_iff]
  refine Keeps.mono (keeps_forEach_invariant (I := fun st' => (FreeAs username st' ∧
    st'.task = st.task) ∧ ∀ message ∈ messages, .message message ∈ st'.known) ?_ ?_)
    fun _ st' hst' => hst'.1
  · rintro message hmessage st' ⟨⟨hst', htask⟩, hknown⟩
    refine keeps_bind.mpr (keeps_query.mpr ⟨fun error => ⟨⟨hst', htask⟩, hknown⟩, ?_⟩)
    rintro (_ | _)
    · refine keeps_sendMessage.mpr ⟨Progress.maySend_codedLine fun mark hmark => ?_, ⟨hst'.learn, htask⟩,
        fun message hmessage => List.mem_append_right _ (hknown message hmessage)⟩
      cases hmark
      refine ⟨⟨message, List.mem_append_right _ (hknown message hmessage), rfl, .inr rfl⟩, ?_⟩
      rw [← htask]
      exact hst'.learn.reaches
    · exact ⟨⟨hst'.learn, htask⟩, fun message hmessage =>
        List.mem_append_right _ (hknown message hmessage)⟩
  · exact ⟨⟨hst.learn, rfl⟩, fun message hmessage =>
      List.mem_append_left _ (List.mem_map_of_mem hmessage)⟩

theorem keeps_deliverPendingGroupMessages
    (hst : FreeAs username st) :
    discipline.Keeps (deliverPendingGroupMessages st.task.conn username) st
      fun _ => FreeAs username := by
  rw [deliverPendingGroupMessages, keeps_bind, keeps_query]
  refine ⟨fun error => hst, fun messages => ?_⟩
  simp only [Prog.pure_eq, keeps_ite, keeps_bind, keeps_send, keeps_ret,
    Classical.imp_and_neg_imp_iff]
  refine Keeps.mono (keeps_forEach_invariant ?_ (rfl : _ = st.learn _)) ?_
  · rintro message hmessage st' rfl
    refine keeps_sendMessage.mpr ⟨Progress.maySend_codedLine fun mark hmark => ?_, rfl⟩
    cases hmark
    exact ⟨⟨message, List.mem_append_left _ (List.mem_map_of_mem hmessage), rfl, .inr rfl⟩,
      hst.learn.reaches⟩
  · rintro _ st' rfl
    exact hst.learn

theorem keeps_deliverPendingFiles
    (hst : FreeAs session.username st) :
    discipline.Keeps (deliverPendingFiles conn session) st fun _ st => st.Free := by
  obtain ⟨hfree, hloggedIn, husername, -⟩ := hst
  rw [deliverPendingFiles, keeps_bind, keeps_query]
  refine ⟨fun error => hfree, fun transfers => ?_⟩
  simp only [Prog.pure_eq, keeps_ite, keeps_bind, keeps_send, keeps_ret,
    Classical.imp_and_neg_imp_iff]
  refine Keeps.mono (keeps_forEach_invariant (I := fun st => (st.Free ∧ st.core.loggedIn = true ∧
    st.core.username = session.username) ∧
    ∀ transfer ∈ transfers, .recorded transfer.id session.username ∈ st.known) ?_ ?_) ?_
  · rintro transfer htransfer st ⟨⟨hfree, hloggedIn, husername⟩, hknown⟩
    refine (keeps_deliverFileToUser hfree fun _ _ => ?_).mono fun _ st' hst' => ?_
    · refine ⟨hloggedIn, .inl ?_⟩
      rw [husername]
      exact hknown transfer htransfer
    · obtain ⟨⟨hfree', hloggedIn', husername'⟩, hsubset⟩ := hst'
      exact ⟨⟨hfree', hloggedIn'.trans hloggedIn, husername'.trans husername⟩,
        fun transfer htransfer => hsubset (hknown transfer htransfer)⟩
  · refine ⟨⟨Progress.free_learn.mpr hfree, hloggedIn, husername⟩, fun transfer htransfer => ?_⟩
    exact List.mem_append_left _ (List.mem_map_of_mem htransfer)
  · exact fun _ st hst => hst.1.1

theorem keeps_deliverPending
    (hst : FreeAs session.username st) (hconn : st.task.conn = conn) :
    discipline.Keeps (deliverPending conn session) st fun _ st => st.Free := by
  subst hconn
  refine keeps_bind.mpr ((keeps_notifyPendingRequests hst).mono ?_)
  rintro _ st' ⟨hst, htask⟩
  rw [← htask]
  refine keeps_bind.mpr (keeps_sendRedisUnreadSummaryBestEffort ?_)
  refine keeps_bind.mpr (keeps_bind.mpr ((keeps_deliverPendingPrivateMessages hst).mono ?_))
  rintro _ st'' ⟨hst, htask⟩
  rw [← htask]
  refine (keeps_deliverPendingGroupMessages hst).mono fun _ st hst => ?_
  exact keeps_deliverPendingFiles hst

theorem disciplined_pending : Disciplined crypto task (handlePending task.conn task.session) :=
  disciplined_requireLogin fun hlogin =>
    keeps_deliverPending ⟨free_start task, hlogin, rfl, rfl, .inl (.inl hlogin)⟩ rfl

theorem keeps_claimRedisPresence {serverInstanceId : Bytes}
    {post : Bool → Progress → Prop} (hfailed : post false st)
    (hclaimed : post true { st with claimed := some username }) :
    discipline.Keeps (claimRedisPresence serverInstanceId conn username) st post := by
  rw [claimRedisPresence, keeps_bind, keeps_redis]
  refine ⟨trivial, ?_⟩
  rintro (error | claimed | owner | counts)
  · exact keeps_bind.mpr (keeps_send.mpr hfailed)
  · cases claimed with
    | true => exact hclaimed
    | false =>
      refine keeps_bind.mpr (keeps_redis.mpr ⟨trivial, fun reply => ?_⟩)
      cases reply with
      | owner owner =>
        refine keeps_ite.mpr ⟨fun _ => ?_, fun _ => keeps_bind.mpr (keeps_send.mpr hfailed)⟩
        refine keeps_bind.mpr (keeps_redis.mpr ⟨trivial, ?_⟩)
        rintro (error | refreshed | owner | counts)
        · exact keeps_bind.mpr (keeps_send.mpr hfailed)
        · cases refreshed with
          | true => exact hclaimed
          | false => exact keeps_bind.mpr (keeps_send.mpr hfailed)
        · exact keeps_bind.mpr (keeps_send.mpr hfailed)
        · exact keeps_bind.mpr (keeps_send.mpr hfailed)
      | _ => exact keeps_bind.mpr (keeps_send.mpr hfailed)
  · exact keeps_bind.mpr (keeps_send.mpr hfailed)
  · exact keeps_bind.mpr (keeps_send.mpr hfailed)

theorem disciplined_login {serverInstanceId : Bytes}
    (hcall : task.call = none) (hrequest : task.request = .login arguments) :
    Disciplined crypto task (handleLogin crypto serverInstanceId task.conn task.session arguments) := by
  unfold handleLogin
  split
  · exact disciplined_send
  rename_i hlogin
  have hout : (task.start crypto).core.loggedIn = false := Bool.not_eq_true _ ▸ hlogin
  split
  · rename_i username password _
    refine keeps_bind.mpr (keeps_query.mpr
      ⟨fun error => keeps_send.mpr (free_start task), fun passwordHash => ?_⟩)
    dsimp only
    split
    · exact keeps_send.mpr (Progress.free_learn.mpr (free_start task))
    rename_i hpassword
    have hexists : .userExists username ∈ (Query.getPasswordHash username).facts passwordHash := by
      cases passwordHash with
      | none => simp at hpassword
      | some encoded => exact List.mem_cons_self
    refine keeps_bind.mpr (keeps_primitive.mpr ⟨rfl, fun registered => ?_⟩)
    split
    · rename_i hfailed
      obtain rfl : registered = false := by simpa using hfailed
      exact keeps_send.mpr (Progress.free_learn.mpr (free_start task))
    rename_i hadded
    obtain rfl : registered = true := by simpa using hadded
    refine keeps_bind.mpr (keeps_claimRedisPresence ?_ ?_)
    · refine keeps_primitive.mpr
        ⟨⟨.inl hout, .inl ⟨rfl, hout⟩⟩, fun _ => ⟨rfl, rfl, rfl, rfl, rfl, ?_, rfl⟩⟩
      simp [Progress.after, hout]
    simp only [Bool.not_true, Bool.false_eq_true, if_false, keeps_bind, keeps_assign, keeps_send,
      keeps_broadcastToLoggedIn]
    refine ⟨⟨hout, hcall, List.mem_append_left _ hexists, rfl, rfl, arguments, hrequest⟩, ?_⟩
    refine keeps_deliverPending ⟨⟨rfl, rfl, rfl, rfl, rfl, rfl, rfl⟩, rfl, rfl, rfl, .inr ?_⟩ rfl
    exact congrArg Request.logsIn hrequest
  · exact disciplined_send

theorem disciplined_logout (hcall : task.call = none) (hrequest : task.request = .logout) :
    Disciplined crypto task (handleLogout conn task.session) := by
  have hleaves : task.leaves = true := by rw [Task.leaves, hrequest]
  refine disciplined_requireLogin fun hlogin => ?_
  simp [Progress.MayAssign, Progress.afterAssign, keeps_primitive, Progress.Allowed,
    Progress.after, Task.start, Progress.free_iff, hcall, hleaves]
  exact ⟨.inr ⟨rfl, rfl⟩, hlogin⟩

theorem disciplined_deleteAccount (hcall : task.call = none)
    (hrequest : task.request = .deleteAccount arguments) :
    Disciplined crypto task (handleDeleteAccount crypto conn task.session arguments) := by
  have hdeletes : task.deletesAccount = true := by rw [Task.deletesAccount, hrequest]
  have hleaves : task.leaves = true := by rw [Task.leaves, hrequest]
  refine disciplined_requireLogin fun hlogin => ?_
  split
  · rename_i password confirmation hwords
    split
    · exact disciplined_send
    refine keeps_bind.mpr (keeps_currentSession.mpr fun current => ?_)
    have hfree : ((task.start crypto).saw current).Free := Progress.free_saw.mpr (free_start task)
    split
    · exact keeps_send.mpr hfree
    rename_i hidle
    refine keeps_bind.mpr (keeps_query.mpr ⟨fun _ => keeps_send.mpr hfree, fun passwordHash => ?_⟩)
    dsimp only
    split
    · exact keeps_send.mpr (Progress.free_learn.mpr hfree)
    rename_i hpassword
    obtain ⟨encoded, rfl, hverify⟩ : ∃ encoded, passwordHash = some encoded ∧
        crypto.verifyPassword password encoded = true := by
      cases passwordHash with
      | none => exact absurd rfl hpassword
      | some encoded => exact ⟨encoded, rfl, by simpa using hpassword⟩
    have hentitled : ∀ db : Database, db.getPasswordHash task.session.username = some encoded →
        Entitled crypto db task (.deleteUser task.session.username) := fun db hhash =>
      ⟨⟨hlogin, rfl⟩, arguments, password, confirmation, encoded, hrequest, hwords, hhash, hverify⟩
    simp only [Bool.or_eq_true, not_or, Option.not_isSome_iff_eq_none] at hidle
    simp [withBothMutexes, Progress.MayAssign, keeps_primitive, Progress.Allowed, Progress.after,
      Progress.saw, Task.start, Progress.free_iff, Progress.MayUpdate, Update.changes, Update.published,
      Progress.afterAssign, Progress.MayCall, Progress.Performs, Progress.Entitles, Fact.Found,
      Query.facts, Database.answer, Task.Signed, hcall, hdeletes, hleaves, hlogin, hidle]
    exact ⟨hentitled, .inr ⟨rfl, rfl⟩⟩
  · exact disciplined_send

theorem disciplined_connect (hrequest : task.request = .connect) :
    Disciplined crypto task (onConnect conn) := by
  simp [Disciplined, onConnect, keeps_primitive, Progress.Allowed, Progress.after, Task.start,
    Progress.free_iff, hrequest]

theorem disciplined_disconnect : Disciplined crypto task (onDisconnect conn task.session) := by
  simp [Disciplined, onDisconnect, Progress.MayAssign, Progress.afterAssign, keeps_primitive,
    Progress.Allowed, Progress.after, Task.start, Progress.free_iff]
  exact fun _ => .inr ⟨rfl, rfl⟩

theorem disciplined_quit : Disciplined crypto task (handleQuit conn) := by
  simp [Disciplined, handleQuit, keeps_primitive, Progress.Allowed, Progress.after, Task.start,
    Progress.free_iff]

theorem disciplined_persistDelivery {kind : DeliveryPersistKind} {messageId : Nat}
    {recipient : Bytes} {decrementUnread : Bool} (hrequest : task.request.fromClient = false) :
    Disciplined crypto task (persistDelivery kind messageId recipient decrementUnread) := by
  cases kind <;>
    simp [Disciplined, persistDelivery, Task.start, Progress.free_iff, Progress.MayUpdate,
      Update.changes, Update.published, Progress.Performs, Progress.Entitles, hrequest]

/-! ### Commands that only read -/

theorem keeps_isUserOnline (hfree : st.Free) :
    discipline.Keeps (isUserOnline username) st fun _ st => st.Free :=
  keeps_bind.mpr (keeps_findOnlineUser.mpr ⟨hfree, fun _ => Progress.free_met.mpr hfree⟩)

theorem keeps_concatFor {α : Type} {describe : α → Handler Bytes} {items : List α}
    (hdescribe : ∀ item st, st.Free → discipline.Keeps (describe item) st fun _ st => st.Free)
    (hfree : st.Free) : discipline.Keeps (concatFor describe items) st fun _ st => st.Free := by
  induction items generalizing st with
  | nil => exact hfree
  | cons item items ih =>
    refine keeps_bind.mpr ((hdescribe item st hfree).mono fun _ st' hst' => ?_)
    exact keeps_bind.mpr ((ih hst').mono fun _ _ hst'' => hst'')

theorem keeps_listManagedRequests {groups : List ManagedGroupRequestCount}
    (hfree : st.Free) :
    discipline.Keeps (listManagedRequests conn groups) st fun _ st => st.Free := by
  induction groups generalizing st with
  | nil => exact keeps_send.mpr hfree
  | cons group groups ih =>
    refine keeps_bind.mpr (keeps_query.mpr ⟨fun _ => keeps_send.mpr hfree, fun users => ?_⟩)
    refine keeps_bind.mpr ((keeps_forEach fun _ _ => keeps_send).mpr ?_)
    exact ih (Progress.free_learn.mpr hfree)

theorem disciplined_lookup {lookup : Lookup} :
    Disciplined crypto task (handleLookup conn task.session lookup) := by
  have hfree : (task.start crypto).Free := free_start task
  cases lookup with
  | help | unknown => exact keeps_send.mpr hfree
  | who =>
    refine keeps_requireLogin hfree fun _ => keeps_bind.mpr (keeps_onlineUsernames.mpr fun _ => ?_)
    exact keeps_send.mpr hfree
  | friends =>
    refine keeps_requireLogin hfree fun _ => keeps_bind.mpr (keeps_query.mpr
      ⟨fun _ => keeps_send.mpr hfree, fun friends => keeps_bind.mpr ?_⟩)
    refine (keeps_concatFor (fun _ _ hst => ?_) (Progress.free_learn.mpr hfree)).mono
      fun _ _ hst => keeps_send.mpr hst
    exact keeps_bind.mpr ((keeps_isUserOnline hst).mono fun _ _ hst' => hst')
  | friendRequests =>
    refine keeps_requireLogin hfree fun _ => keeps_bind.mpr (keeps_query.mpr
      ⟨fun _ => keeps_send.mpr hfree, fun incoming => keeps_bind.mpr (keeps_query.mpr
        ⟨fun _ => keeps_send.mpr (Progress.free_learn.mpr hfree), fun outgoing => ?_⟩)⟩)
    exact keeps_send.mpr (Progress.free_learn.mpr (Progress.free_learn.mpr hfree))
  | blockedFriends | myGroups =>
    refine keeps_requireLogin hfree fun _ => keeps_bind.mpr (keeps_query.mpr
      ⟨fun _ => keeps_send.mpr hfree, fun _ => ?_⟩)
    exact keeps_send.mpr (Progress.free_learn.mpr hfree)
  | groupMembers arguments =>
    refine keeps_requireLogin hfree fun _ => keeps_extractSingleGroupName hfree fun groupName =>
      keeps_bind.mpr (keeps_query.mpr ⟨fun _ => keeps_send.mpr hfree, ?_⟩)
    rintro (_ | role)
    · exact keeps_send.mpr (Progress.free_learn.mpr hfree)
    · have hrole : ((task.start crypto).learn ((Query.getGroupRole groupName task.session.username).facts
          (some role))).Free := Progress.free_learn.mpr hfree
      refine keeps_bind.mpr (keeps_query.mpr ⟨fun _ => keeps_send.mpr hrole, fun members =>
        keeps_bind.mpr ?_⟩)
      refine (keeps_concatFor (fun _ _ hst => ?_) (Progress.free_learn.mpr hrole)).mono
        fun _ _ hst => keeps_send.mpr hst
      exact keeps_bind.mpr ((keeps_isUserOnline hst).mono fun _ _ hst' => hst')
  | groupRequests arguments =>
    refine keeps_requireLogin hfree fun _ => keeps_extractSingleGroupName hfree fun groupName =>
      keeps_bind.mpr (keeps_query.mpr ⟨fun _ => keeps_send.mpr hfree, fun role => ?_⟩)
    have hrole : ((task.start crypto).learn ((Query.getGroupRole groupName task.session.username).facts
        role)).Free := Progress.free_learn.mpr hfree
    dsimp only
    split
    · exact keeps_send.mpr hrole
    · refine keeps_bind.mpr (keeps_query.mpr ⟨fun _ => keeps_send.mpr hrole, fun users => ?_⟩)
      exact keeps_send.mpr (Progress.free_learn.mpr hrole)
  | groupRequestsAll =>
    refine keeps_requireLogin hfree fun _ => keeps_bind.mpr (keeps_query.mpr
      ⟨fun _ => keeps_send.mpr hfree, fun groups => keeps_bind.mpr (keeps_send.mpr ?_)⟩)
    exact keeps_listManagedRequests (Progress.free_learn.mpr hfree)
  | ping arguments =>
    simp only [handleLookup, handlePing]
    split
    · exact keeps_send.mpr hfree
    · exact hfree

/-- **Every request is handled with discipline.** -/
theorem disciplined_route {config : ServerConfig} (task : Task)
    (hcall : task.call = none) :
    Disciplined config.crypto task (route config useCache task.conn task.session task.request) := by
  cases hrequest : task.request with
  | connect => exact disciplined_connect hrequest
  | disconnect => exact disciplined_disconnect
  | register => exact disciplined_register hrequest
  | login => exact disciplined_login hcall hrequest
  | logout => exact disciplined_logout hcall hrequest
  | quit => exact disciplined_quit
  | deleteAccount => exact disciplined_deleteAccount hcall hrequest
  | publicMessage => exact disciplined_publicMessage
  | privateMessage => exact disciplined_privateMessage hrequest
  | enterPrivate => exact disciplined_enterPrivate hrequest
  | enterGroup => exact disciplined_enterGroup hrequest
  | addFriend => exact disciplined_addFriend hrequest
  | acceptFriend => exact disciplined_acceptFriend hrequest
  | rejectFriend => exact disciplined_rejectFriend hrequest
  | removeFriend => exact disciplined_removeFriend hrequest
  | blockFriend => exact disciplined_blockFriend hrequest
  | unblockFriend => exact disciplined_unblockFriend hrequest
  | createGroup => exact disciplined_createGroup hrequest
  | dissolveGroup => exact disciplined_dissolveGroup hrequest
  | applyGroup => exact disciplined_applyGroup hrequest
  | leaveGroup => exact disciplined_leaveGroup hrequest
  | addGroupAdmin => exact disciplined_addGroupAdmin hrequest
  | removeGroupAdmin => exact disciplined_removeGroupAdmin hrequest
  | approveGroup => exact disciplined_approveGroup hrequest
  | rejectGroup => exact disciplined_rejectGroup hrequest
  | removeGroupMember => exact disciplined_removeGroupMember hrequest
  | groupMessage => exact disciplined_groupMessage hrequest
  | historyPublic => exact disciplined_historyPublic
  | historyPrivate => exact disciplined_historyPrivate
  | historyGroup => exact disciplined_historyGroup
  | fileBeginPrivate => exact disciplined_fileBeginPrivate
  | fileBeginGroup => exact disciplined_fileBeginGroup
  | fileChunk => exact disciplined_fileChunk
  | fileFrame => exact disciplined_fileFrame
  | fileEnd => exact disciplined_fileEnd hrequest
  | fileAbort => exact disciplined_fileAbort
  | fileResumeRequest => exact disciplined_fileResumeRequest
  | fileReceived => exact disciplined_fileReceived
  | fileReceiveFailed => exact disciplined_fileReceiveFailed
  | pending => exact disciplined_pending
  | lookup => exact disciplined_lookup
  | loopCall => exact free_start task
  | pumpStep pump => exact keeps_primitive.mpr ⟨⟨rfl, rfl⟩, fun _ => free_start task⟩
  | persistDelivery => exact disciplined_persistDelivery (by rw [hrequest]; rfl)

theorem disciplined_runLoopCall {call : LoopCall} (hcall : task.call = some call) :
    Disciplined crypto task (runLoopCall conn task.session call) := by
  cases call with
  | deliverFileToUser transfer recipient =>
    refine (keeps_deliverFileToUser (free_start task) ?_).mono fun _ st hst => hst.1.1
    rintro hlogin rfl
    exact ⟨hlogin, .inr hcall⟩
  | deliveryFailed transferId error => exact disciplined_deliveryFailed

end ChatRoom
