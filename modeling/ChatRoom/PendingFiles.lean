import ChatRoom.Proof.Serial
import Mathlib.Data.List.Nodup

/-!
# Pending files

`PENDING` reads a batch of the files that wait for its user and offers those that pass the checks of
`deliver_file_to_user`. The batch is cut off by the query, before the checks.
-/

namespace ChatRoom

open Handler Interleaving Typestate

/-! ### Handlers that read and notify -/

section Notices

variable {α β : Type} {conn : ConnId}

def noticesTo (conn : ConnId) : Typestate Act Act.Result Unit where
  allowed _ action :=
    match action with
    | .query _ => True
    | .send target text _ => target = conn ∧ text.bytes.head? = some 91
    | _ => False
  after _ _ _ := ()

def Notices (conn : ConnId) (handler : Handler α) : Prop :=
  (noticesTo conn).Keeps handler () fun _ _ => True

namespace Notices

theorem pure {value : α} : Notices conn (pure value) := trivial

theorem bind {handler : Handler α} {next : α → Handler β} (hhandler : Notices conn handler)
    (hnext : ∀ value, Notices conn (next value)) : Notices conn (handler >>= next) :=
  keeps_bind.mpr (Keeps.mono hhandler fun value _ _ => hnext value)

theorem query_bind {q : Query} {next : Except Bytes q.Answer → Handler β}
    (herror : ∀ error, Notices conn (next (.error error)))
    (hok : ∀ answer, Notices conn (next (.ok answer))) : Notices conn (Handler.query q >>= next) := by
  refine bind (keeps_perform.mpr ⟨trivial, fun _ => trivial⟩) fun result => ?_
  cases result with
  | error error => exact herror error
  | ok answer => exact hok answer

theorem sendMessage {text : WireText} {completion : Option DeliveryPersistTask}
    (htext : text.bytes.head? = some 91) : Notices conn (sendMessage conn text completion) :=
  keeps_perform.mpr ⟨⟨rfl, htext⟩, fun _ => trivial⟩

theorem send {text : Bytes} (htext : text.head? = some 91) : Notices conn (send conn text) :=
  keeps_perform.mpr ⟨⟨rfl, htext⟩, fun _ => trivial⟩

theorem forEach {body : α → Handler Unit} (hbody : ∀ item, Notices conn (body item))
    (items : List α) : Notices conn (forEach body items) := by
  induction items with
  | nil => exact pure
  | cons item items ih => exact bind (hbody item) fun _ => ih

theorem ite {p : Prop} [Decidable p] {yes no : Handler α} (hyes : Notices conn yes)
    (hno : Notices conn no) : Notices conn (if p then yes else no) := by
  split
  · exact hyes
  · exact hno

theorem notifyPendingRequests {username : Bytes} :
    Notices conn (notifyPendingRequests conn username) := by
  refine query_bind (fun _ => ?_) fun pendingFriends => ite ?_ (bind (send rfl) fun _ => ?_)
  all_goals
    exact query_bind (fun _ => pure) fun groupRequests => forEach (fun _ => send rfl) groupRequests

theorem deliverPendingPrivateMessages {username : Bytes} :
    Notices conn (deliverPendingPrivateMessages conn username) := by
  refine query_bind (fun _ => pure) fun messages => ite ?_ (bind (send rfl) fun _ => ?_)
  all_goals
    refine bind (forEach (fun message => ?_) messages) fun _ => ite (send rfl) pure
    refine query_bind (fun _ => pure) fun blocked => ?_
    cases blocked with
    | false => exact sendMessage rfl
    | true => exact pure

theorem deliverPendingGroupMessages {username : Bytes} :
    Notices conn (deliverPendingGroupMessages conn username) := by
  refine query_bind (fun _ => pure) fun messages => ite ?_ (bind (send rfl) fun _ => ?_)
  all_goals
    exact bind (forEach (fun _ => sendMessage rfl) messages) fun _ => ite (send rfl) pure

theorem deliverPendingMessages {username : Bytes} :
    Notices conn (deliverPendingMessages conn username) :=
  bind deliverPendingPrivateMessages fun _ => deliverPendingGroupMessages

end Notices

end Notices

/-! ### Their runs -/

def Shared.extendSent (s : Shared) (conn : ConnId) (texts : List Bytes) : Shared :=
  { s with sent := Function.update s.sent conn (s.sent conn ++ texts) }

section Runs

variable {config : ServerConfig} {useCache : Bool} {conn : ConnId} {s : Shared}
  {answers : List Choice} {α : Type}

@[simp]
theorem Shared.extendSent_sent (texts : List Bytes) :
    (s.extendSent conn texts).sent conn = s.sent conn ++ texts := Function.update_self _ _ _

theorem Shared.extendSent_nil : s.extendSent conn [] = s := by
  rw [Shared.extendSent, List.append_nil, Function.update_eq_self]

theorem Shared.extendSent_append (first second : List Bytes) :
    (s.extendSent conn first).extendSent conn second = s.extendSent conn (first ++ second) := by
  simp only [Shared.extendSent, Function.update_self, Function.update_idem, List.append_assoc]

theorem Shared.sendText_eq (hconnected : s.connected conn = true) (text : Bytes) :
    s.sendText conn text = s.extendSent conn [text] := by
  rw [Shared.sendText, if_pos hconnected]
  rfl

/-- **A handler that reads and notifies runs to its end** and adds its notices to the output. -/
theorem Notices.complete {handler : Handler α} (hnotices : Notices conn handler)
    (hconnected : s.connected conn = true) :
    ∃ value texts, (∀ text ∈ texts, text.head? = some 91) ∧
      Interleaving.complete (server config useCache) feed conn handler s answers =
        some (value, s.extendSent conn texts, answers) := by
  induction handler generalizing s with
  | ret value =>
    refine ⟨value, [], by simp, ?_⟩
    rw [Shared.extendSent_nil]
    rfl
  | act action next ih =>
    obtain ⟨hallowed, hnext⟩ := hnotices
    cases action with
    | query q => exact ih (s.db.read q) (hnext _) hconnected
    | send target text completion =>
      obtain ⟨rfl, htext⟩ := hallowed
      obtain ⟨value, texts, htexts, hrest⟩ :=
        ih () (hnext ()) (s := s.extendSent target [text.bytes]) hconnected
      refine ⟨value, text.bytes :: texts, List.forall_mem_cons.mpr ⟨htext, htexts⟩, ?_⟩
      rw [Shared.extendSent_append, ← Shared.sendText_eq hconnected] at hrest
      exact hrest
    | _ => exact hallowed.elim

end Runs

/-! ### Offers -/

/-- The checks of `deliver_file_to_user` on the tables. -/
def Database.passes (db : Database) (recipient : Bytes) (transfer : StoredFileTransfer) : Bool :=
  match transfer.metadata.scope with
  | .privateFile => !db.isFriendBlocked recipient transfer.metadata.senderUsername
  | .groupFile => (db.getGroupRole transfer.metadata.groupName recipient).isSome

def Shared.offerable (s : Shared) (conn : ConnId) (recipient : Bytes)
    (transfer : StoredFileTransfer) : Bool :=
  s.db.passes recipient transfer &&
    !(s.sessions conn).fileDeliveriesInProgress.contains transfer.id

def offerLine (transfer : StoredFileTransfer) : Bytes := makeOfferLine transfer.id transfer.metadata

def Shared.offer (s : Shared) (conn : ConnId) (transfer : StoredFileTransfer) : Shared :=
  (s.setSession conn ((s.sessions conn).assign (.offer transfer))).extendSent conn
    [offerLine transfer]

section Offers

variable {config : ServerConfig} {useCache : Bool} {conn : ConnId} {s : Shared}
  {session : ClientSession} {answers : List Choice} {recipient : Bytes}

theorem Shared.offerable_offer (offered transfer : StoredFileTransfer) :
    (s.offer conn offered).offerable conn recipient transfer = s.offerable conn recipient transfer := by
  have hsession : (s.offer conn offered).sessions conn = (s.sessions conn).assign (.offer offered) :=
    Function.update_self _ _ _
  rw [Shared.offerable, hsession]
  rfl

theorem complete_mayDeliver {α : Type} (transfer : StoredFileTransfer) (f : Bool → Handler α) :
    complete (server config useCache) feed conn (mayDeliver transfer recipient >>= f) s answers =
      complete (server config useCache) feed conn (f (s.db.passes recipient transfer)) s answers := by
  unfold mayDeliver Database.passes
  cases transfer.metadata.scope with
  | privateFile =>
    simp only [Prog.bind_assoc]
    rw [complete_query _ rfl]
    rfl
  | groupFile =>
    simp only [Prog.bind_assoc]
    rw [complete_query _ rfl]
    rfl

theorem complete_deliverFileToUser (hconnected : s.connected conn = true)
    (hlogged : session.loggedIn = true) (transfer : StoredFileTransfer) :
    complete (server config useCache) feed conn
        (deliverFileToUser conn session transfer session.username) s answers =
      some ((), if s.offerable conn session.username transfer then s.offer conn transfer else s,
        answers) := by
  unfold deliverFileToUser Shared.offerable
  rw [hlogged]
  simp only [Bool.not_true, ne_eq, not_true_eq_false, decide_false, Bool.or_self, Bool.false_eq_true,
    if_false]
  rw [complete_mayDeliver]
  cases s.db.passes session.username transfer with
  | false => rfl
  | true =>
    simp only [if_true, Bool.true_and, Bool.not_eq_true']
    rw [complete_currentSession]
    cases (s.sessions conn).fileDeliveriesInProgress.contains transfer.id with
    | true => rfl
    | false =>
      simp only [Bool.false_eq_true, if_false, if_true]
      rw [complete_assign]
      have hsend : (s.setSession conn ((s.sessions conn).assign (.offer transfer))).sendText conn
          (makeOfferLine transfer.id transfer.metadata) = s.offer conn transfer :=
        Shared.sendText_eq (s := s.setSession conn _) hconnected _
      rw [← hsend]
      rfl

structure Offered (conn : ConnId) (recipient : Bytes) (transfers : List StoredFileTransfer)
    (s s' : Shared) : Prop where
  offerable : ∀ transfer, s'.offerable conn recipient transfer = s.offerable conn recipient transfer
  phase : s'.phase = s.phase
  sent : s'.sent conn =
    s.sent conn ++ (transfers.filter (s.offerable conn recipient)).map offerLine

theorem complete_offers (hlogged : session.loggedIn = true) (transfers : List StoredFileTransfer)
    (hconnected : s.connected conn = true) :
    ∃ s', complete (server config useCache) feed conn
        (forEach (fun transfer => deliverFileToUser conn session transfer session.username) transfers)
        s answers = some ((), s', answers) ∧ Offered conn session.username transfers s s' := by
  induction transfers generalizing s with
  | nil => exact ⟨s, rfl, fun _ => rfl, rfl, by simp⟩
  | cons transfer transfers ih =>
    rw [forEach, complete_bind, complete_deliverFileToUser hconnected hlogged, Option.bind_some]
    cases hofferable : s.offerable conn session.username transfer with
    | false =>
      obtain ⟨s', hrest, hoffered⟩ := ih hconnected
      refine ⟨s', hrest, hoffered.offerable, hoffered.phase, ?_⟩
      rw [hoffered.sent, List.filter_cons_of_neg (by simp [hofferable])]
    | true =>
      obtain ⟨s', hrest, hoffered⟩ := ih (s := s.offer conn transfer) hconnected
      have hsame : (s.offer conn transfer).offerable conn session.username =
          s.offerable conn session.username := funext (Shared.offerable_offer transfer)
      have hsent : (s.offer conn transfer).sent conn = s.sent conn ++ [offerLine transfer] :=
        Shared.extendSent_sent [offerLine transfer]
      refine ⟨s', hrest, fun other => ?_, hoffered.phase, ?_⟩
      · rw [hoffered.offerable, hsame]
      · rw [hoffered.sent, hsame, hsent, List.filter_cons_of_pos hofferable, List.append_assoc]
        rfl

def Shared.batchOffers (s : Shared) (conn : ConnId) (recipient : Bytes) : List StoredFileTransfer :=
  (s.db.pendingFileTransfers recipient kOfflineFileDeliveryBatch).filter (s.offerable conn recipient)

def SendsOffers (conn : ConnId) (offers : List StoredFileTransfer) (s s' : Shared) : Prop :=
  ∃ before after, (∀ text ∈ before ++ after, text.head? = some 91) ∧
    s'.sent conn = s.sent conn ++ (before ++ offers.map offerLine ++ after)

theorem complete_offers_closing {start : Shared} {before : List Bytes}
    {transfers : List StoredFileTransfer} {closing : Handler Unit}
    (hstart : s.extendSent conn before = start) (hlogged : session.loggedIn = true)
    (hconnected : s.connected conn = true) (hbefore : ∀ text ∈ before, text.head? = some 91)
    (hclosing : Notices conn closing) :
    ∃ s', complete (server config useCache) feed conn
        (forEach (fun transfer => deliverFileToUser conn session transfer session.username)
          transfers >>= fun _ => closing) start answers =
        some ((), s', answers) ∧
      SendsOffers conn (transfers.filter (s.offerable conn session.username)) s s' := by
  subst hstart
  obtain ⟨middle, hloop, hoffered⟩ :=
    complete_offers hlogged transfers (s := s.extendSent conn before) hconnected
  have hconnected' : middle.connected conn = true := by
    rw [Shared.connected, hoffered.phase]
    exact hconnected
  obtain ⟨_, after, hafter, hcomplete⟩ := hclosing.complete hconnected'
  refine ⟨middle.extendSent conn after, ?_, before, after, ?_, ?_⟩
  · rw [complete_bind, hloop, Option.bind_some]
    exact hcomplete
  · exact List.forall_mem_append.mpr ⟨hbefore, hafter⟩
  · rw [Shared.extendSent_sent, hoffered.sent, Shared.extendSent_sent, List.append_assoc,
      List.append_assoc, List.append_assoc]
    rfl

theorem complete_deliverPendingFiles (hlogged : session.loggedIn = true)
    (hconnected : s.connected conn = true) :
    ∃ s', complete (server config useCache) feed conn (deliverPendingFiles conn session) s answers =
        some ((), s', answers) ∧
      SendsOffers conn (s.batchOffers conn session.username) s s' := by
  unfold deliverPendingFiles Shared.batchOffers
  rw [complete_query _ rfl, Database.answer]
  dsimp only
  split
  · exact complete_offers_closing Shared.extendSent_nil hlogged hconnected (by simp)
      (.ite (.send rfl) .pure)
  · rw [complete_send]
    exact complete_offers_closing (Shared.sendText_eq hconnected _).symm hlogged hconnected
      (List.forall_mem_singleton.mpr rfl) (.ite (.send rfl) .pure)

theorem SendsOffers.after_notices {offers : List StoredFileTransfer} {s' : Shared}
    {notices : List Bytes} (hnotices : ∀ text ∈ notices, text.head? = some 91)
    (hsends : SendsOffers conn offers (s.extendSent conn notices) s') :
    SendsOffers conn offers s s' := by
  obtain ⟨before, after, hheads, hsent⟩ := hsends
  refine ⟨notices ++ before, after, ?_, ?_⟩
  · rw [List.append_assoc]
    exact List.forall_mem_append.mpr ⟨hnotices, hheads⟩
  · rw [hsent, Shared.extendSent_sent]
    simp only [List.append_assoc]

end Offers

def OffersBatch (config : ServerConfig) (useCache : Bool) (conn : ConnId) (recipient : Bytes)
    (answers : List Choice) (handler : Handler Unit) : Prop :=
  ∀ s : Shared, s.connected conn = true →
    ∃ s', complete (server config useCache) feed conn handler s answers = some ((), s', []) ∧
      SendsOffers conn (s.batchOffers conn recipient) s s'

namespace OffersBatch

variable {config : ServerConfig} {useCache : Bool} {conn : ConnId} {session : ClientSession}
  {answers : List Choice} {recipient : Bytes} {α : Type}

theorem deliverPendingFiles (hlogged : session.loggedIn = true) :
    OffersBatch config useCache conn session.username [] (deliverPendingFiles conn session) :=
  fun _ hconnected => complete_deliverPendingFiles hlogged hconnected

theorem notices_bind {handler : Handler α} {next : α → Handler Unit}
    (hnotices : Notices conn handler)
    (hnext : ∀ value, OffersBatch config useCache conn recipient answers (next value)) :
    OffersBatch config useCache conn recipient answers (handler >>= next) := by
  intro s hconnected
  obtain ⟨value, notices, hheads, hcomplete⟩ := hnotices.complete hconnected
  obtain ⟨s', hrest, hsends⟩ := hnext value (s.extendSent conn notices) hconnected
  refine ⟨s', ?_, hsends.after_notices hheads⟩
  rw [complete_bind, hcomplete, Option.bind_some]
  exact hrest

theorem redis_bind {call : RedisCall} {reply : RedisReply} {next : RedisReply → Handler Unit}
    (hnext : OffersBatch config useCache conn recipient answers (next reply)) :
    OffersBatch config useCache conn recipient (.reply reply :: answers) (redis call >>= next) := by
  intro s hconnected
  rw [complete_redis]
  exact hnext s hconnected

theorem deliverPending {reply : RedisReply} (hlogged : session.loggedIn = true) :
    OffersBatch config useCache conn session.username [.reply reply] (deliverPending conn session) := by
  refine notices_bind .notifyPendingRequests fun _ => ?_
  rw [sendRedisUnreadSummaryBestEffort, Prog.bind_assoc]
  refine redis_bind (notices_bind ?_ fun _ => notices_bind .deliverPendingMessages fun _ => ?_)
  · split
    · exact .ite .pure (.send rfl)
    · exact .pure
  · exact deliverPendingFiles hlogged

end OffersBatch

/-- **`PENDING`** ends and offers the batch of its user, whatever Redis replies. -/
theorem serve_pending (config : ServerConfig) (useCache : Bool) {conn : ConnId} {s : Shared}
    (hconnected : s.connected conn = true) (hlogged : (s.sessions conn).loggedIn = true)
    (reply : RedisReply) :
    ∃ s', serve (server config useCache) feed s ⟨conn, .pending, [.reply reply]⟩ = some s' ∧
      SendsOffers conn (s.batchOffers conn (s.sessions conn).username) s s' := by
  let start := s.start conn ⟨conn, .pending, s.sessions conn, none⟩
  have hadmissible : admissible s conn .pending = true := hconnected
  have hlaunch : (server config useCache).launch conn .pending s =
      some (thenFinish (deliverPending conn (s.sessions conn)), start) := by
    show launch config useCache conn .pending s = _
    rw [launch_route (by simp), if_pos hadmissible, route, handlePending, requireLogin, if_pos hlogged]
  have hoffers : OffersBatch config useCache conn (s.sessions conn).username [.reply reply]
      (deliverPending conn (s.sessions conn)) := .deliverPending hlogged
  obtain ⟨s', hcomplete, hsends⟩ := hoffers start hconnected
  refine ⟨s'.finished conn, ?_, hsends⟩
  rw [serve, hlaunch]
  dsimp only
  rw [thenFinish, complete_bind, hcomplete]
  rfl

/-! ### The place in the queue -/

def Database.pendingFileQueue (db : Database) (recipient : Bytes) : List StoredFileTransfer :=
  db.fileTransfers.filter fun transfer =>
    isPending db.fileDeliveries transfer.id recipient &&
      (transfer.metadata.scope ≠ .privateFile ||
        !db.isFriendBlocked recipient transfer.metadata.senderUsername)

/-- An undelivered file of the user of the connection that `deliver_file_to_user` would offer. -/
def Shared.Offerable (s : Shared) (conn : ConnId) (transfer : StoredFileTransfer) : Prop :=
  transfer ∈ s.db.fileTransfers ∧
    Database.isPending s.db.fileDeliveries transfer.id (s.sessions conn).username = true ∧
    s.offerable conn (s.sessions conn).username transfer = true

/-- How many files wait in front of the first one that can be offered. -/
def Shared.filesInFront (s : Shared) (conn : ConnId) : Nat :=
  (s.db.pendingFileQueue (s.sessions conn).username).findIdx
    (s.offerable conn (s.sessions conn).username)

def Shared.sentSince (s s' : Shared) (conn : ConnId) : List Bytes :=
  (s'.sent conn).drop (s.sent conn).length

section Queue

variable {s s' : Shared} {conn : ConnId} {transfer : StoredFileTransfer}

theorem Shared.offerable_iff :
    s.Offerable conn transfer ↔ transfer ∈ s.db.pendingFileQueue (s.sessions conn).username ∧
      s.offerable conn (s.sessions conn).username transfer = true := by
  unfold Shared.Offerable Database.pendingFileQueue
  rw [List.mem_filter, Bool.and_eq_true]
  constructor
  · rintro ⟨hstored, hpending, hofferable⟩
    refine ⟨⟨hstored, hpending, ?_⟩, hofferable⟩
    have hpasses := (Bool.and_eq_true_iff.mp hofferable).1
    unfold Database.passes at hpasses
    split at hpasses
    · rw [hpasses, Bool.or_true]
    · rename_i hgroup
      simp [hgroup]
  · rintro ⟨⟨hstored, hpending, -⟩, hofferable⟩
    exact ⟨hstored, hpending, hofferable⟩

theorem Shared.batchOffers_iff (hsome : ∃ transfer, s.Offerable conn transfer) :
    (∃ transfer, transfer ∈ s.batchOffers conn (s.sessions conn).username) ↔
      s.filesInFront conn < kOfflineFileDeliveryBatch := by
  have hready : s.filesInFront conn <
      (s.db.pendingFileQueue (s.sessions conn).username).length := by
    obtain ⟨transfer, hofferable⟩ := hsome
    exact List.findIdx_lt_length.mpr ⟨transfer, Shared.offerable_iff.mp hofferable⟩
  have hbatch : (∃ transfer, transfer ∈ s.batchOffers conn (s.sessions conn).username) ↔
      ∃ transfer ∈ (s.db.pendingFileQueue (s.sessions conn).username).take
        kOfflineFileDeliveryBatch, s.offerable conn (s.sessions conn).username transfer = true := by
    simp only [Shared.batchOffers, List.mem_filter]
    rfl
  rw [hbatch, ← List.findIdx_lt_length, List.findIdx_take, List.length_take]
  unfold Shared.filesInFront at hready ⊢
  omega

theorem SendsOffers.sentSince {offers : List StoredFileTransfer}
    (hsends : SendsOffers conn offers s s') :
    offerLine transfer ∈ s.sentSince s' conn ↔ ∃ other ∈ offers, offerLine other = offerLine transfer := by
  obtain ⟨before, after, hheads, hsent⟩ := hsends
  rw [Shared.sentSince, hsent, List.drop_left]
  have hline : ∀ text ∈ before ++ after, offerLine transfer ≠ text := by
    rintro text htext rfl
    cases hheads _ htext
  rw [List.forall_mem_append] at hline
  simp only [List.mem_append, List.mem_map]
  constructor
  · rintro ((hbefore | hoffer) | hafter)
    · exact absurd rfl (hline.1 _ hbefore)
    · exact hoffer
    · exact absurd rfl (hline.2 _ hafter)
  · exact fun hoffer => .inl (.inr hoffer)

end Queue

/-- **The files of a user.** If a file can be offered, one `PENDING` offers one exactly if fewer files
than a batch wait in front of the first one that can be offered. -/
theorem pending_offers_iff {config : ServerConfig} {useCache : Bool} {conn : ConnId} {s : Shared}
    (hconnected : s.connected conn = true) (hlogged : (s.sessions conn).loggedIn = true)
    (hsome : ∃ transfer, s.Offerable conn transfer) (reply : RedisReply) :
    ∃ s', serve (server config useCache) feed s ⟨conn, .pending, [.reply reply]⟩ = some s' ∧
      ((∃ transfer, s.Offerable conn transfer ∧ offerLine transfer ∈ s.sentSince s' conn) ↔
        s.filesInFront conn < kOfflineFileDeliveryBatch) := by
  obtain ⟨s', hserve, hsends⟩ := serve_pending config useCache hconnected hlogged reply
  refine ⟨s', hserve, ?_⟩
  rw [← Shared.batchOffers_iff hsome]
  have hmem : ∀ {transfer}, transfer ∈ s.batchOffers conn (s.sessions conn).username →
      s.Offerable conn transfer := by
    intro transfer hbatch
    obtain ⟨hqueue, hofferable⟩ := List.mem_filter.mp hbatch
    exact Shared.offerable_iff.mpr ⟨List.mem_of_mem_take hqueue, hofferable⟩
  constructor
  · rintro ⟨transfer, -, hsent⟩
    obtain ⟨other, hother, -⟩ := hsends.sentSince.mp hsent
    exact ⟨other, hother⟩
  · rintro ⟨transfer, hbatch⟩
    exact ⟨transfer, hmem hbatch, hsends.sentSince.mpr ⟨transfer, hbatch, rfl⟩⟩

/-! ### A queue behind a dissolved group -/

def queueBehindGroup (groupFiles : Nat) : Shared :=
  let token := fun number : Nat =>
    List.replicate 30 48 ++ [48 + number.toUInt8 / 10, 48 + number.toUInt8 % 10]
  let file := fun (number : Nat) (scope : FileTransferScope) => StoredFileTransfer.mk number
    { transferToken := token number
      scope
      senderUsername := utf8 "amy"
      recipientUsername := if scope = .privateFile then utf8 "bob" else []
      groupId := if scope = .privateFile then 0 else 1
      groupName := if scope = .privateFile then [] else utf8 "team"
      fileName := utf8 "note"
      fileSize := 1
      sha256Hex := List.replicate 64 48
      createdAtUnixMs := 0
      storedRelativePath := token number }
  { db :=
      { users := [(utf8 "amy", []), (utf8 "bob", [])]
        friendships := [(utf8 "amy", utf8 "bob")]
        fileTransfers := (List.range groupFiles).map (fun number => file (number + 1) .groupFile) ++
          [file (groupFiles + 1) .privateFile]
        fileDeliveries := (List.range (groupFiles + 1)).map fun number =>
          ⟨number + 1, utf8 "bob", none⟩
        nextTransferId := groupFiles + 2 }
    sessions := fun _ => { loggedIn := true, username := utf8 "bob" }
    phase := fun _ => .connected }

theorem queueBehindGroup_offerable {groupFiles : Nat}
    (htest : ((queueBehindGroup groupFiles).db.pendingFileQueue (utf8 "bob")).any
      ((queueBehindGroup groupFiles).offerable 0 (utf8 "bob")) = true) :
    ∃ transfer, (queueBehindGroup groupFiles).Offerable 0 transfer := by
  obtain ⟨transfer, hqueue, hofferable⟩ := List.any_eq_true.mp htest
  exact ⟨transfer, Shared.offerable_iff.mpr ⟨hqueue, hofferable⟩⟩

theorem pending_offers_behind_nine :
    ∃ s', serve (server scriptConfig true) feed (queueBehindGroup 9)
        ⟨0, .pending, [.reply (.failed [])]⟩ = some s' ∧
      ∃ transfer, (queueBehindGroup 9).Offerable 0 transfer ∧
        offerLine transfer ∈ (queueBehindGroup 9).sentSince s' 0 := by
  have hconnected : (queueBehindGroup 9).connected 0 = true := rfl
  have hsome : ∃ transfer, (queueBehindGroup 9).Offerable 0 transfer :=
    queueBehindGroup_offerable (by decide +kernel)
  have hfront : (queueBehindGroup 9).filesInFront 0 < kOfflineFileDeliveryBatch := by decide +kernel
  obtain ⟨s', hserve, hoffers⟩ := pending_offers_iff hconnected rfl hsome (.failed [])
  exact ⟨s', hserve, hoffers.mpr hfront⟩

/-- **Held up.** With ten files of a dissolved group in front, nothing is being delivered and the
private file can be offered, but `PENDING` does not offer it. -/
theorem pending_offers_nothing :
    ∃ s : Shared, s.connected 0 = true ∧ (s.sessions 0).loggedIn = true ∧
      (∃ transfer, s.Offerable 0 transfer) ∧
      (s.sessions 0).fileDeliveriesInProgress.length < kOfflineFileDeliveryBatch ∧
      ∃ s', serve (server scriptConfig true) feed s ⟨0, .pending, [.reply (.failed [])]⟩ = some s' ∧
        ∀ transfer, s.Offerable 0 transfer → offerLine transfer ∉ s.sentSince s' 0 := by
  have hconnected : (queueBehindGroup 10).connected 0 = true := rfl
  have hsome : ∃ transfer, (queueBehindGroup 10).Offerable 0 transfer :=
    queueBehindGroup_offerable (by decide +kernel)
  have hbatch : (queueBehindGroup 10).batchOffers 0 (utf8 "bob") = [] := by decide +kernel
  obtain ⟨s', hserve, hsends⟩ := serve_pending scriptConfig true hconnected rfl (.failed [])
  refine ⟨queueBehindGroup 10, rfl, rfl, hsome, by decide, s', hserve, fun transfer _ hsent => ?_⟩
  obtain ⟨other, hother, -⟩ := hsends.sentSince.mp hsent
  change other ∈ (queueBehindGroup 10).batchOffers 0 (utf8 "bob") at hother
  rw [hbatch] at hother
  cases hother

end ChatRoom
