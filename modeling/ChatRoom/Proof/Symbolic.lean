import ChatRoom.Proof.Discipline

/-!
# Symbolic execution of handlers

Rules for checking the discipline along the paths of a handler: one for each primitive and each
shared helper, so that a handler is checked without unfolding the actions it is made of.
-/

namespace ChatRoom

open Interleaving Handler Typestate

variable {α β : Type} {st : Progress}
variable {post : Unit → Progress → Prop} {conn : ConnId} {username message arguments : Bytes}
  {usage : String}

theorem keeps_primitive {action : Act} {post : action.Result → Progress → Prop} :
    discipline.Keeps (α := no_index action.Result) (act action) st post ↔
      st.Allowed action ∧ ∀ result, post result (st.after action result) :=
  keeps_perform

@[simp]
theorem keeps_query {q : Query} {post : Except Bytes q.Answer → Progress → Prop} :
    discipline.Keeps (α := no_index (Except Bytes q.Answer)) (query q) st post ↔
      (∀ error, post (.error error) st) ∧ ∀ answer, post (.ok answer) (st.learn (q.facts answer)) := by
  refine keeps_primitive.trans ⟨?_, ?_⟩
  · rintro ⟨-, h⟩
    exact ⟨fun error => h (.error error), fun answer => h (.ok answer)⟩
  · rintro ⟨herror, hok⟩
    refine ⟨trivial, fun result => ?_⟩
    cases result with
    | error error => exact herror error
    | ok answer => exact hok answer

@[simp]
theorem keeps_update {u : Update} {post : Except Bytes u.Result → Progress → Prop} :
    discipline.Keeps (α := no_index (Except Bytes u.Result)) (update u) st post ↔
      (st.MayUpdate u ∧ st.Performs u) ∧ (∀ error, post (.error error) st.forget) ∧
        ∀ result, post (.ok result) (st.commit u result) := by
  refine keeps_primitive.trans ⟨?_, ?_⟩
  · rintro ⟨hmay, h⟩
    exact ⟨hmay, fun error => h (.error error), fun result => h (.ok result)⟩
  · rintro ⟨hmay, herror, hok⟩
    refine ⟨hmay, fun result => ?_⟩
    cases result with
    | error error => exact herror error
    | ok result => exact hok result

@[simp]
theorem keeps_send {text : Bytes} :
    discipline.Keeps (send conn text) st post ↔ post () st :=
  keeps_primitive.trans ⟨fun h => h.2 (), fun h => ⟨⟨nofun, nofun⟩, fun _ => h⟩⟩

@[simp]
theorem keeps_sendMessage {text : WireText}
    {completion : Option DeliveryPersistTask} :
    discipline.Keeps (sendMessage conn text completion) st post ↔
      st.MaySend conn text completion ∧ post () st :=
  keeps_primitive.trans ⟨fun h => ⟨h.1, h.2 ()⟩, fun h => ⟨h.1, fun _ => h.2⟩⟩

@[simp]
theorem keeps_queueInLoop {transfer : StoredFileTransfer} {recipient : Bytes} :
    discipline.Keeps (α := no_index Unit)
        (act (.queueInLoop conn (.deliverFileToUser transfer recipient))) st post ↔
      (.recorded transfer.id recipient ∈ st.known ∧ st.task.endedUpload.isSome = true) ∧
        post () st :=
  keeps_primitive.trans ⟨fun h => ⟨h.1, h.2 ()⟩, fun h => ⟨h.1, fun _ => h.2⟩⟩

@[simp]
theorem keeps_deliverAsync {transfer : StoredFileTransfer} {startOffset : Nat} :
    discipline.Keeps (α := no_index Unit) (act (.deliverAsync transfer startOffset)) st post ↔
      st.MayDeliver transfer.id ∧ post () st.started :=
  keeps_primitive.trans ⟨fun h => ⟨h.1, h.2 ()⟩, fun h => ⟨h.1, fun _ => h.2⟩⟩

@[simp]
theorem keeps_assign {a : Assign} :
    discipline.Keeps (assign a) st post ↔ st.MayAssign a ∧ post () (st.afterAssign a) :=
  keeps_primitive.trans ⟨fun h => ⟨h.1, h.2 ()⟩, fun h => ⟨h.1, fun _ => h.2⟩⟩

@[simp]
theorem keeps_nowUnixMs {post : Int → Progress → Prop} :
    discipline.Keeps nowUnixMs st post ↔ ∀ now, post now st :=
  keeps_primitive.trans (by simp [Progress.Allowed, Progress.after])

@[simp]
theorem keeps_redis {call : RedisCall} {post : RedisReply → Progress → Prop} :
    discipline.Keeps (redis call) st post ↔
      st.MayCall call ∧ ∀ reply, post reply (st.called call reply) :=
  keeps_primitive

@[simp]
theorem keeps_findOnlineUser {post : Option ConnId → Progress → Prop} :
    discipline.Keeps (findOnlineUser username) st post ↔
      post none st ∧ ∀ target, post (some target) (st.met username target) := by
  refine keeps_primitive.trans ⟨fun h => ⟨h.2 none, fun target => h.2 (some target)⟩, ?_⟩
  rintro ⟨hnone, hsome⟩
  refine ⟨trivial, fun found => ?_⟩
  cases found with
  | none => exact hnone
  | some target => exact hsome target

@[simp]
theorem keeps_onlineConnections {post : List ConnId → Progress → Prop} :
    discipline.Keeps onlineConnections st post ↔ ∀ connections, post connections st :=
  keeps_primitive.trans (by simp [Progress.Allowed, Progress.after])

@[simp]
theorem keeps_onlineUsernames {post : List Bytes → Progress → Prop} :
    discipline.Keeps onlineUsernames st post ↔ ∀ names, post names st :=
  keeps_primitive.trans (by simp [Progress.Allowed, Progress.after])

@[simp]
theorem keeps_currentSession {post : ClientSession → Progress → Prop} :
    discipline.Keeps currentSession st post ↔ ∀ session, post session (st.saw session) :=
  keeps_primitive.trans (by simp [Progress.Allowed, Progress.after])

@[simp]
theorem keeps_loadDirect {post : Nat → Progress → Prop} :
    discipline.Keeps (loadGeneration .direct) st post ↔
      ∀ generation, post generation { st with
        seenDirect := some generation
        guardedDirect := if st.friend then some generation else none } :=
  keeps_primitive.trans (by simp [Progress.Allowed, Progress.after])

@[simp]
theorem keeps_loadGroup {post : Nat → Progress → Prop} :
    discipline.Keeps (loadGeneration .group) st post ↔
      ∀ generation, post generation { st with seenGroup := some generation, fresh := [] } :=
  keeps_primitive.trans (by simp [Progress.Allowed, Progress.after])

@[simp]
theorem keeps_bumpDirect :
    discipline.Keeps (bumpGeneration .direct) st post ↔
      post () { st with owedDirect := none, staleDirect := true, guardedDirect := none } :=
  keeps_primitive.trans ⟨fun h => h.2 (), fun h => ⟨trivial, fun _ => h⟩⟩

@[simp]
theorem keeps_bumpGroup :
    discipline.Keeps (bumpGeneration .group) st post ↔
      post () { st with owedGroup := none, staleGroup := true } :=
  keeps_primitive.trans ⟨fun h => h.2 (), fun h => ⟨trivial, fun _ => h⟩⟩

@[simp]
theorem keeps_lockFriend {body : Handler α} {post : α → Progress → Prop} :
    discipline.Keeps (withMutex .friend body) st post ↔
      (st.friend = false ∧ st.group = false) ∧
        discipline.Keeps body { st with friend := true, guarded := [], guardedDirect := none }
          fun value st' => st'.friend = true ∧
            post value { st' with friend := false, guarded := [], guardedDirect := none } := by
  simp only [withMutex, keeps_bind]
  refine keeps_primitive.trans ⟨?_, ?_⟩
  · rintro ⟨hfree, h⟩
    exact ⟨hfree, (h ()).mono fun value st' h => ⟨(keeps_primitive.mp h).1, (keeps_primitive.mp h).2 ()⟩⟩
  · rintro ⟨hfree, h⟩
    exact ⟨hfree, fun _ => h.mono fun value st' h => keeps_primitive.mpr ⟨h.1, fun _ => h.2⟩⟩

@[simp]
theorem keeps_lockGroup {body : Handler α} {post : α → Progress → Prop} :
    discipline.Keeps (withMutex .group body) st post ↔
      st.group = false ∧ discipline.Keeps body { st with group := true }
        fun value st' => st'.group = true ∧ post value { st' with group := false } := by
  simp only [withMutex, keeps_bind]
  refine keeps_primitive.trans ⟨?_, ?_⟩
  · rintro ⟨hfree, h⟩
    exact ⟨hfree, (h ()).mono fun value st' h => ⟨(keeps_primitive.mp h).1, (keeps_primitive.mp h).2 ()⟩⟩
  · rintro ⟨hfree, h⟩
    exact ⟨hfree, fun _ => h.mono fun value st' h => keeps_primitive.mpr ⟨h.1, fun _ => h.2⟩⟩

@[simp]
theorem keeps_stop {answer : Handler Unit} {post : Option α → Progress → Prop} :
    discipline.Keeps (stop answer) st post ↔
      discipline.Keeps answer st fun _ st' => post none st' := by
  simp [stop]

/-! ### Helpers that leave no trace in the progress -/

@[simp]
theorem learn_nil : st.learn [] = st := by
  cases st
  simp [Progress.learn]

theorem learn_learn (first second : List Fact) :
    (st.learn first).learn second = st.learn (second ++ first) := by
  cases st with
  | mk aside crypto task core friend =>
    cases friend <;> simp [Progress.learn]

@[simp]
theorem keeps_databaseError {error : Bytes} :
    discipline.Keeps (databaseError conn error) st post ↔ post () st := keeps_send

theorem keeps_forEach_invariant {body : α → Handler Unit} {items : List α}
    {I : Progress → Prop}
    (hbody : ∀ item ∈ items, ∀ st, I st → discipline.Keeps (body item) st fun _ st => I st)
    (hst : I st) : discipline.Keeps (forEach body items) st fun _ st => I st := by
  induction items generalizing st with
  | nil => exact hst
  | cons item items ih =>
    rw [forEach, keeps_bind]
    apply (hbody item List.mem_cons_self st hst).mono
    intro _ st' hst'
    exact ih (fun item hitem => hbody item (List.mem_cons_of_mem _ hitem)) hst'

@[simp]
theorem keeps_forEach {body : α → Handler Unit} {items : List α}
    (hbody : ∀ item (post : Unit → Progress → Prop),
      discipline.Keeps (body item) st post ↔ post () st) :
    discipline.Keeps (forEach body items) st post ↔ post () st := by
  induction items with
  | nil => rfl
  | cons item items ih => rw [forEach, keeps_bind, hbody, ih]

@[simp]
theorem keeps_notifyUserIfOnline
    (hquiet : st.task.request.delivers = false) :
    discipline.Keeps (notifyUserIfOnline username message) st post ↔ post () st := by
  simp only [notifyUserIfOnline, keeps_bind, keeps_findOnlineUser, Progress.met_quiet hquiet,
    keeps_send, Prog.pure_eq, keeps_ret, forall_const, and_self]

theorem keeps_broadcastText {message : WireText} {except : Option ConnId}
    (hcontents : ∀ content ∈ message.contents, newline ∉ content ∨ st.HasRead content) :
    discipline.Keeps (broadcastText message except) st post ↔ post () st := by
  have hsend : ∀ target (post : Unit → Progress → Prop),
      discipline.Keeps (sendMessage target message none) st post ↔ post () st :=
    fun target post => keeps_sendMessage.trans (and_iff_right ⟨hcontents, nofun⟩)
  simp only [broadcastText, keeps_bind, keeps_onlineConnections, keeps_forEach hsend]
  exact ⟨fun h => h [], fun h _ => h⟩

@[simp]
theorem keeps_broadcastToLoggedIn {except : Option ConnId} :
    discipline.Keeps (broadcastToLoggedIn message except) st post ↔ post () st :=
  keeps_broadcastText nofun

@[simp]
theorem keeps_notifyGroupManagers {groupName exceptUsername : Bytes}
    (hquiet : st.task.request.delivers = false) :
    discipline.Keeps (notifyGroupManagers groupName message exceptUsername) st post ↔
      post () st := by
  have hfacts : ∀ managers, (Query.listGroupManagers groupName).facts managers = [] :=
    fun _ => rfl
  simp [notifyGroupManagers, hfacts, hquiet]

@[simp]
theorem keeps_adjustRedisUnreadBestEffort {kind : String} {delta : Int} :
    discipline.Keeps (adjustRedisUnreadBestEffort username kind delta) st post ↔ post () st := by
  simp only [adjustRedisUnreadBestEffort, keeps_bind, keeps_redis]
  exact ⟨fun h => h.2 (.failed []), fun h => ⟨trivial, fun _ => h⟩⟩

@[simp]
theorem keeps_removeRedisPresenceBestEffort :
    discipline.Keeps (removeRedisPresenceBestEffort username) st post ↔
      (st.joined = none ∧ (st.registered = false ∨ st.down = true)) ∧ post () st := by
  simp only [removeRedisPresenceBestEffort, keeps_bind, keeps_redis]
  exact ⟨fun h => ⟨h.1, h.2 (.failed [])⟩, fun h => ⟨h.1, fun _ => h.2⟩⟩

/-! ### Guards and parameters -/

theorem keeps_requireLogin {session : ClientSession} {body : Handler Unit} (hpost : post () st)
    (hbody : session.loggedIn = true → discipline.Keeps body st post) :
    discipline.Keeps (requireLogin conn session body) st post := by
  unfold requireLogin
  split
  · exact hbody ‹_›
  · exact keeps_send.mpr hpost

theorem keeps_extractSingleUsername
    {body : Bytes → Handler Unit} (hpost : post () st)
    (hbody : ∀ username, discipline.Keeps (body username) st post) :
    discipline.Keeps (extractSingleUsername conn arguments usage body) st post := by
  unfold extractSingleUsername
  split
  · split
    · exact hbody _
    · exact keeps_send.mpr hpost
  · exact keeps_send.mpr hpost

theorem keeps_extractSingleGroupName
    {body : Bytes → Handler Unit} (hpost : post () st)
    (hbody : ∀ groupName, discipline.Keeps (body groupName) st post) :
    discipline.Keeps (extractSingleGroupName conn arguments usage body) st post := by
  unfold extractSingleGroupName
  split
  · split
    · exact hbody _
    · exact keeps_send.mpr hpost
  · exact keeps_send.mpr hpost

theorem keeps_extractGroupAndUsername
    {body : Bytes → Bytes → Handler Unit} (hpost : post () st)
    (hbody : ∀ groupName username, discipline.Keeps (body groupName username) st post) :
    discipline.Keeps (extractGroupAndUsername conn arguments usage body) st post := by
  unfold extractGroupAndUsername
  split
  · split
    · exact hbody _ _
    · exact keeps_send.mpr hpost
  · exact keeps_send.mpr hpost

theorem keeps_evaluate {sender recipient : Bytes} {post : DirectMessageDecision → Progress → Prop}
    (hallowed : post .allowed (st.learn (permitFacts sender recipient).reverse))
    (hother : ∀ decision facts, decision ≠ .allowed → post decision (st.learn facts)) :
    discipline.Keeps (evaluate sender recipient) st post := by
  have hstart : ∀ decision, decision ≠ .allowed → post decision st := fun decision hne => by
    simpa using hother decision [] hne
  unfold evaluate
  simp only [keeps_bind, keeps_query, Bool.forall_bool, keeps_ret, Prog.pure_eq, learn_learn]
  simp only [hstart, hother, ne_eq, reduceCtorEq, not_false_eq_true, forall_const, true_and, and_true]
  exact hallowed

end ChatRoom
