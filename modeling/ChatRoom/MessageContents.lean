import ChatRoom.Permission
import ChatRoom.Proof.Contents

/-!
# Contents that come back

The content of a private or group message is what percent decoding yields, so it can be any bytes.
-/

namespace ChatRoom

open Interleaving Transition

def StoresContents (P : Bytes → Prop) (state : ServerConfiguration) : ServerEvent → Prop
  | .start _ _ => True
  | .step conn _ => ∀ update content next, state.code conn = .act (.update update) next →
      update.content = some content → P content

theorem StoresContents.meets {P : Bytes → Prop} {state : ServerConfiguration} {event : ServerEvent}
    (hstores : StoresContents P state event) : (contentLayer P).contract.Meets state event := by
  cases event with
  | start conn request => trivial
  | step conn choice =>
    refine Contract.meets_step ?_
    rintro action next hcode update content rfl hcontent
    exact hstores update content next hcode hcontent

/-! ### Line feeds -/

section Lines

variable {config : ServerConfig} {db : Database} {store : Store} {events : List ServerEvent}
  {state : ServerConfiguration}

/-- **Lines.** If no content with a line feed is stored, no content that a handler is about to send
contains one. -/
theorem sent_contents_single_line (htables : db.ContentsAre (newline ∉ ·))
    (hrun : Run (server config true).next (StoresContents (newline ∉ ·)) (initial db store) events
      state)
    {conn target : ConnId} {text : WireText} {completion : Option DeliveryPersistTask}
    {next : Unit → Handler Unit} (hcode : state.code conn = .act (.send target text completion) next) :
    ∀ content ∈ text.contents, newline ∉ content := by
  have hsound := contentLayer_sound (newline ∉ ·) config.crypto
  have hinit : (contentLayer (newline ∉ ·)).inv { db, store } := ⟨htables, nofun⟩
  have hmeets := hrun.mono fun _ _ hstores => hstores.meets
  have hexec : exec config.crypto conn (.send target text completion) .proceed state.shared =
      some ((), state.shared.sendText target text.bytes) := rfl
  have hshown := hsound.shown hinit hmeets hcode (fun _ _ haction => nomatch haction) hexec
  intro content hcontent
  exact (hshown target text completion rfl content hcontent).elim id id

end Lines

def storesOnly (test : Bytes → Bool) (state : ServerConfiguration) (conn : ConnId) : Bool :=
  match state.code conn with
  | .act (.update update) _ => update.content.all test
  | _ => true

theorem storesContents_of_storesOnly {P : Bytes → Prop} {test : Bytes → Bool}
    (htest : ∀ content, test content = true → P content) {state : ServerConfiguration}
    {event : ServerEvent} (hstores : storesOnly test state event.tid = true) :
    StoresContents P state event := by
  cases event with
  | start conn request => trivial
  | step conn choice =>
    intro update content next hcode hcontent
    have hall : storesOnly test state conn = true := hstores
    rw [storesOnly, hcode] at hall
    simp only [hcontent, Option.all_some] at hall
    exact htest content hall

theorem friendTables_contentsAre (P : Bytes → Prop) : friendTables.ContentsAre P :=
  ⟨by decide, nofun, nofun⟩

def bobAsksForHistory (encodedMessage : Bytes) : List (Move ConnId Choice Request) :=
  serveMoves 0 .connect ++ serveMoves 0 (.login (utf8 "amy pw")) ++
    serveMoves 1 .connect ++ serveMoves 1 (.login (utf8 "bob pw")) ++
    serveMoves 0 (.privateMessage (utf8 "bob " ++ encodedMessage)) ++
    [.start 1 (.historyPrivate (utf8 "amy")), .steps 1 2]

def nextContents (state : ServerConfiguration) (conn : ConnId) : List Bytes :=
  match state.code conn with
  | .act (.send _ text _) _ => text.contents
  | _ => []

theorem exists_send_of_mem_nextContents {state : ServerConfiguration} {conn : ConnId}
    {content : Bytes} (hmem : content ∈ nextContents state conn) :
    ∃ target text completion next, state.code conn = .act (.send target text completion) next ∧
      content ∈ text.contents := by
  unfold nextContents at hmem
  split at hmem
  · rename_i target text completion next hcode
    exact ⟨target, text, completion, next, hcode, hmem⟩
  · exact absurd hmem List.not_mem_nil

theorem sent_contents_single_line_hello :
    ∃ events state target text completion next,
      Run (server scriptConfig true).next (StoresContents (newline ∉ ·)) (initial friendTables {})
        events state ∧
      state.code 1 = .act (.send target text completion) next ∧
      utf8 "hello" ∈ text.contents ∧ ∀ content ∈ text.contents, newline ∉ content := by
  have hscript : ((play (server scriptConfig true) usualChoice
      (fun state event => storesOnly (fun content => decide (newline ∉ content)) state event.tid)
      (initial friendTables {}) (bobAsksForHistory (utf8 "hello"))).any fun state =>
        decide (utf8 "hello" ∈ nextContents state 1)) = true := by
    decide +kernel
  obtain ⟨events, state, hchecked, hhello⟩ := play_reaches hscript
  obtain ⟨target, text, completion, next, hcode, hmem⟩ :=
    exists_send_of_mem_nextContents (of_decide_eq_true hhello)
  have hrun := hchecked.mono fun state event hstores =>
    storesContents_of_storesOnly (fun content => of_decide_eq_true) hstores
  exact ⟨events, state, target, text, completion, next, hrun, hcode, hmem,
    sent_contents_single_line (friendTables_contentsAre _) hrun hcode⟩

/-- **A forged line.** Amy's message contains a coded line feed. The history that Bob asks for shows
the decoded message, and what follows the line feed is a line of its own. -/
theorem history_contains_forged_line :
    ∃ events state target text completion next,
      Run (server scriptConfig true).next anyStep (initial friendTables {}) events state ∧
      state.code 1 = .act (.send target text completion) next ∧
      utf8 "x\n[chat-enter-ok]" ∈ text.contents ∧ newline ∈ utf8 "x\n[chat-enter-ok]" := by
  have hscript : ((play (server scriptConfig true) usualChoice (fun _ _ => true)
      (initial friendTables {})
      (bobAsksForHistory (utf8 "x%0A%5Bchat-enter-ok%5D"))).any fun state =>
        decide (utf8 "x\n[chat-enter-ok]" ∈ nextContents state 1)) = true := by
    decide +kernel
  obtain ⟨events, state, hrun, hforged⟩ := play_reaches hscript
  obtain ⟨target, text, completion, next, hcode, hmem⟩ :=
    exists_send_of_mem_nextContents (of_decide_eq_true hforged)
  exact ⟨events, state, target, text, completion, next, hrun.mono fun _ _ _ => trivial, hcode, hmem,
    by decide⟩

/-! ### Payloads that are parsed again -/

theorem ascii_of_nameByte : ∀ c : UInt8, (isAlnum c || c = 95 || c = 45) = true → c ≤ 0x7F :=
  forall_byte (by decide +kernel)

theorem isValid_of_isValidUsername {username : Bytes} (hvalid : isValidUsername username = true) :
    Utf8.isValid username = true := by
  simp only [isValidUsername, Bool.and_eq_true, List.all_eq_true] at hvalid
  apply Utf8.isValid_of_ascii
  intro c hmem
  apply ascii_of_nameByte
  rw [hvalid.2 c hmem, Bool.true_or]

theorem isValid_of_isValidGroupName {groupName : Bytes}
    (hvalid : isValidGroupName groupName = true) : Utf8.isValid groupName = true := by
  simp only [isValidGroupName, Bool.and_eq_true, List.all_eq_true] at hvalid
  exact Utf8.isValid_of_ascii fun c hmem => ascii_of_nameByte c (hvalid.2 c hmem)

namespace Database.ContentsAre

variable {db : Database} (hcontents : db.ContentsAre (Utf8.isValid · = true))

include hcontents

theorem message_parses {message : StoredMessage} (hmessage : message ∈ db.messages) :
    message.payload.parses = true := by
  obtain ⟨hcontent, hsender, hrecipient⟩ := hcontents.messages message hmessage
  have hname : Utf8.isValid message.payload.recipientUsername = true := by
    rcases hrecipient with hnone | hrecipient
    · rw [hnone]
      rfl
    · exact isValid_of_isValidUsername hrecipient
  rw [ChatMessagePayload.parses, isValid_of_isValidUsername hsender, hname, hcontent]
  rfl

theorem groupMessage_parses {message : StoredGroupMessage} (hmessage : message ∈ db.groupMessages) :
    message.payload.parses = true := by
  obtain ⟨hcontent, hsender, hgroup⟩ := hcontents.groupMessages message hmessage
  rw [GroupMessagePayload.parses, isValid_of_isValidGroupName hgroup,
    isValid_of_isValidUsername hsender, hcontent]
  rfl

theorem readError_eq_none (query : Query) : db.readError query = none := by
  have hfound := fun fact hfact => (db.facts_answer query fact hfact).2
  cases query with
  | pendingPrivateMessages | recentPublicMessages | recentPrivateMessages =>
    refine if_pos (List.all_eq_true.mpr fun message hmessage => ?_)
    exact hcontents.message_parses (hfound _ (List.mem_map_of_mem hmessage))
  | pendingGroupMessages | recentGroupMessages =>
    refine if_pos (List.all_eq_true.mpr fun message hmessage => ?_)
    exact hcontents.groupMessage_parses (hfound _ (List.mem_map_of_mem hmessage))
  | _ => rfl

end Database.ContentsAre

/-- **Mailboxes.** If only contents that are valid UTF-8 are stored, every reader answers in every
state. -/
theorem readers_answer {config : ServerConfig} {db : Database} {store : Store}
    {events : List ServerEvent} {state : ServerConfiguration}
    (htables : db.ContentsAre (Utf8.isValid · = true))
    (hrun : Run (server config true).next (StoresContents (Utf8.isValid · = true))
      (initial db store) events state) (query : Query) :
    state.shared.db.read query = .ok (state.shared.db.answer query) := by
  have hinit : (contentLayer (Utf8.isValid · = true)).inv { db, store } := ⟨htables, nofun⟩
  have hinv := ((contentLayer_sound _ config.crypto).run hinit
    (hrun.mono fun _ _ hstores => hstores.meets)).2
  have hread : state.shared.db.readError query = none := hinv.tables.readError_eq_none query
  rw [Database.read, hread]

def amyWritesTwice (encodedMessage : Bytes) : List (Move ConnId Choice Request) :=
  serveMoves 0 .connect ++ serveMoves 0 (.login (utf8 "amy pw")) ++
    serveMoves 0 (.privateMessage (utf8 "bob " ++ encodedMessage)) ++
    serveMoves 0 (.privateMessage (utf8 "bob hello"))

theorem readers_answer_two_messages :
    ∃ events state,
      Run (server scriptConfig true).next (StoresContents (Utf8.isValid · = true))
        (initial friendTables {}) events state ∧
      (state.shared.db.pendingPrivateMessages (utf8 "bob") 100).length = 2 ∧
      state.shared.db.read (.pendingPrivateMessages (utf8 "bob") 100) =
        .ok (state.shared.db.pendingPrivateMessages (utf8 "bob") 100) := by
  have hscript : ((play (server scriptConfig true) usualChoice
      (fun state event => storesOnly Utf8.isValid state event.tid) (initial friendTables {})
      (amyWritesTwice (utf8 "%C3%A9"))).any fun state =>
        decide ((state.shared.db.pendingPrivateMessages (utf8 "bob") 100).length = 2)) = true := by
    decide +kernel
  obtain ⟨events, state, hchecked, hlength⟩ := play_reaches hscript
  have hrun := hchecked.mono fun state event hstores =>
    storesContents_of_storesOnly (fun content hvalid => hvalid) hstores
  exact ⟨events, state, hrun, of_decide_eq_true hlength,
    readers_answer (friendTables_contentsAre _) hrun _⟩

/-- **A poisoned mailbox.** Amy's first message is the byte `FF`. It is stored, and from then on Bob's
reader of pending messages fails, so that the second message is not delivered either. -/
theorem pending_reader_fails :
    ∃ events state,
      Run (server scriptConfig true).next anyStep (initial friendTables {}) events state ∧
      (state.shared.db.pendingPrivateMessages (utf8 "bob") 100).map
        (fun message => message.payload.content) = [[0xFF], utf8 "hello"] ∧
      ∃ error, state.shared.db.read (.pendingPrivateMessages (utf8 "bob") 100) = .error error := by
  have hscript : ((play (server scriptConfig true) usualChoice (fun _ _ => true)
      (initial friendTables {}) (amyWritesTwice (utf8 "%FF"))).any fun state =>
        decide ((state.shared.db.pendingPrivateMessages (utf8 "bob") 100).map
          (fun message => message.payload.content) = [[0xFF], utf8 "hello"]) &&
        (state.shared.db.readError (.pendingPrivateMessages (utf8 "bob") 100)).isSome) = true := by
    decide +kernel
  obtain ⟨events, state, hrun, htest⟩ := play_reaches hscript
  rw [Bool.and_eq_true] at htest
  obtain ⟨error, herror⟩ := Option.isSome_iff_exists.mp htest.2
  refine ⟨events, state, hrun.mono fun _ _ _ => trivial, of_decide_eq_true htest.1, error, ?_⟩
  rw [Database.read, herror]

/-! ### Authors -/

def Update.sender : Update → Option Bytes
  | .addGroupMessage payload _ => some payload.senderUsername
  | .addMessage payload | .addPrivateMessageWithDelivery payload => some payload.senderUsername
  | _ => none

theorem Progress.MayUpdate.sends {st : Progress} {update : Update} {sender : Bytes}
    (hmay : st.MayUpdate update) (hsender : update.sender = some sender) : st.Sends sender := by
  cases update with
  | addMessage payload =>
    cases hsender
    exact hmay.2.2.1
  | addPrivateMessageWithDelivery payload =>
    cases hsender
    exact hmay.2.2.2.1
  | addGroupMessage payload recipients =>
    cases hsender
    exact hmay.2.2.1
  | _ => cases hsender

/-- In the run, a connection on which `sender` was logged in has stored a row by an update that
satisfies `Stores`. -/
def WrittenBy (config : ServerConfig) (useCache : Bool) (start : ServerConfiguration)
    (events : List ServerEvent) (sender : Bytes) (Stores : Update → Prop) : Prop :=
  ∃ earlier conn choice later state update,
    events = earlier ++ .step conn choice :: later ∧
    Run (server config useCache).next anyStep start earlier state ∧
    nextUpdate state conn = some update ∧ Stores update ∧
    (state.shared.sessions conn).loggedIn = true ∧
    (state.shared.sessions conn).username = sender

section Authors

variable {config : ServerConfig} {useCache : Bool} {db : Database} {store : Store}
  {events : List ServerEvent} {state state' : ServerConfiguration} {event : ServerEvent}
  {sender : Bytes} {Stores : Update → Prop}

theorem WrittenBy.snoc {start : ServerConfiguration}
    (hwritten : WrittenBy config useCache start events sender Stores) :
    WrittenBy config useCache start (events ++ [event]) sender Stores := by
  obtain ⟨earlier, conn, choice, later, state, update, rfl, hstored⟩ := hwritten
  exact ⟨earlier, conn, choice, later ++ [event], state, update, by simp, hstored⟩

theorem writtenBy_of_update
    (hrun : Run (server config useCache).next anyStep (initial db store) events state)
    {conn : ConnId} {choice : Choice} {update : Update}
    {next : (Act.update update).Result → Handler Unit}
    (hcode : state.code conn = .act (.update update) next) (hsender : update.sender = some sender)
    (hstores : Stores update) :
    WrittenBy config useCache (initial db store) (events ++ [.step conn choice]) sender Stores := by
  obtain ⟨st, hmay, htracks⟩ := mayUpdate_of_run hrun hcode
  obtain ⟨hloggedIn, rfl⟩ := hmay.sends hsender
  rw [← htracks.core] at hloggedIn ⊢
  have hnext : nextUpdate state conn = some update := by
    rw [nextUpdate, hcode]
  exact ⟨events, conn, choice, [], state, update, rfl, hrun, hnext, hstores, hloggedIn, rfl⟩

/-- **Authors.** In every run, each stored message was there at the start or was stored by a
connection on which its sender was logged in. -/
theorem messages_written_by_sender
    (hrun : Run (server config useCache).next anyStep (initial db store) events state) :
    (∀ message ∈ state.shared.db.messages, message ∈ db.messages ∨
      WrittenBy config useCache (initial db store) events message.payload.senderUsername
        fun update => update = .addMessage message.payload ∨
          update = .addPrivateMessageWithDelivery message.payload) ∧
    ∀ message ∈ state.shared.db.groupMessages, message ∈ db.groupMessages ∨
      WrittenBy config useCache (initial db store) events message.payload.senderUsername
        fun update => ∃ recipients, update = .addGroupMessage message.payload recipients := by
  induction hrun with
  | nil => exact ⟨fun _ hmessage => .inl hmessage, fun _ hmessage => .inl hmessage⟩
  | @snoc events state state' event hearlier hany hnext ih =>
    rcases tables_of_next hnext with hdb | ⟨conn, choice, update, next, value, rfl, hcode, -, happly⟩
    · rw [hdb]
      exact ⟨fun message hmessage => (ih.1 message hmessage).imp_right WrittenBy.snoc,
        fun message hmessage => (ih.2 message hmessage).imp_right WrittenBy.snoc⟩
    · have hrows := Database.apply_rows happly
      constructor
      · intro message hmessage
        rcases hrows.messages message hmessage with hold | hnew
        · exact (ih.1 message hold).imp_right WrittenBy.snoc
        · have hsender : update.sender = some message.payload.senderUsername := by
            rcases hnew with rfl | rfl <;> rfl
          exact .inr (writtenBy_of_update hearlier hcode hsender hnew)
      · intro message hmessage
        rcases hrows.groupMessages message hmessage with hold | hnew
        · exact (ih.2 message hold).imp_right WrittenBy.snoc
        · have hsender : update.sender = some message.payload.senderUsername := by
            obtain ⟨recipients, rfl⟩ := hnew
            rfl
          exact .inr (writtenBy_of_update hearlier hcode hsender hnew)

theorem messages_written_by_sender_amy :
    ∃ events state message,
      Run (server scriptConfig true).next anyStep (initial friendTables {}) events state ∧
      message ∈ state.shared.db.messages ∧ message.payload.senderUsername = utf8 "amy" ∧
      WrittenBy scriptConfig true (initial friendTables {}) events (utf8 "amy")
        fun update => update = .addMessage message.payload ∨
          update = .addPrivateMessageWithDelivery message.payload := by
  have hscript : ((play (server scriptConfig true) usualChoice (fun _ _ => true)
      (initial friendTables {}) (amyWritesTwice (utf8 "hi"))).any fun state =>
        state.shared.db.messages.any fun message =>
          decide (message.payload.senderUsername = utf8 "amy")) = true := by
    decide +kernel
  obtain ⟨events, state, hchecked, hany⟩ := play_reaches hscript
  have hrun := hchecked.mono fun _ _ _ => trivial
  obtain ⟨message, hmessage, hsender⟩ := List.any_eq_true.mp hany
  rw [decide_eq_true_eq] at hsender
  have hwritten := ((messages_written_by_sender hrun).1 message hmessage).resolve_left
    List.not_mem_nil
  rw [hsender] at hwritten
  exact ⟨events, state, message, hrun, hmessage, hsender, hwritten⟩

end Authors

end ChatRoom
