import ChatRoom.Client.Messages
import ChatRoom.Server.Input

/-!
# Chat text from client to client

A message goes from the client through the server to the clients of both users: the client codes the
content, the server decodes the command line and codes the content again in its live, offline and
echo lines, and the clients take these apart.
-/

namespace ChatRoom

variable {content active start groupName : Bytes} {id : Nat} {offline : Bool}

/-! ### Fields of a line -/

/-- A byte that ends neither a line nor a word nor a field in brackets. -/
def isFieldByte (c : UInt8) : Bool := 32 < c && c ≠ 93

structure IsField (text : Bytes) : Prop where
  ne_nil : text ≠ []
  bytes : ∀ c ∈ text, isFieldByte c = true

def SingleLine (text : Bytes) : Prop := ∀ c ∈ text, c ≠ newline ∧ c ≠ carriageReturn

instance (text : Bytes) : Decidable (SingleLine text) :=
  inferInstanceAs (Decidable (∀ c ∈ text, c ≠ newline ∧ c ≠ carriageReturn))

theorem SingleLine.append {left right : Bytes} (hleft : SingleLine left)
    (hright : SingleLine right) : SingleLine (left ++ right) := by
  intro c hmem
  rcases List.mem_append.mp hmem with hmem | hmem
  · exact hleft c hmem
  · exact hright c hmem

theorem isFieldByte_cases : ∀ c : UInt8, isFieldByte c = true →
    isSpace c = false ∧ c ≠ 93 ∧ c ≠ newline ∧ c ≠ carriageReturn :=
  forall_byte (by decide +kernel)

namespace IsField

variable {text : Bytes} (hfield : IsField text)

include hfield

theorem isWord : IsWord text where
  ne_nil := hfield.ne_nil
  no_space := fun c hmem => (isFieldByte_cases c (hfield.bytes c hmem)).1

theorem bracket_notMem : 93 ∉ text := fun hmem =>
  (isFieldByte_cases 93 (hfield.bytes 93 hmem)).2.1 rfl

theorem singleLine : SingleLine text := fun c hmem => (isFieldByte_cases c (hfield.bytes c hmem)).2.2

end IsField

theorem isFieldByte_of_unreserved : ∀ c : UInt8, isUnreserved c = true ∨ c = percentSign →
    isFieldByte c = true :=
  forall_byte (by decide +kernel)

theorem isFieldByte_of_name : ∀ c : UInt8, (isAlnum c || c = 95 || c = 45) = true →
    isFieldByte c = true :=
  forall_byte (by decide +kernel)

theorem isField_decimal (value : Nat) : IsField (decimal value) where
  ne_nil := decimal_ne_nil value
  bytes := by
    intro c hmem
    apply isFieldByte_of_name
    simp [isAlnum, isDigit_of_mem_decimal hmem]

theorem isField_username {username : Bytes} (hvalid : isValidUsername username = true) :
    IsField username := by
  simp only [isValidUsername, Bool.and_eq_true, decide_eq_true_eq, List.all_eq_true] at hvalid
  obtain ⟨⟨hlength, -⟩, hbytes⟩ := hvalid
  constructor
  · rintro rfl
    simp at hlength
  · intro c hmem
    apply isFieldByte_of_name
    rw [hbytes c hmem, Bool.true_or]

theorem isField_groupName (hvalid : isValidGroupName groupName = true) :
    IsField groupName := by
  simp only [isValidGroupName, Bool.and_eq_true, decide_eq_true_eq, List.all_eq_true] at hvalid
  obtain ⟨⟨hlength, -⟩, hbytes⟩ := hvalid
  constructor
  · rintro rfl
    simp at hlength
  · exact fun c hmem => isFieldByte_of_name c (hbytes c hmem)

theorem isField_percentEncode (hcontent : content ≠ []) :
    IsField (percentEncode content) where
  ne_nil := fun hnil => hcontent (percentEncode_injective hnil)
  bytes := fun c hmem => isFieldByte_of_unreserved c (mem_percentEncode hmem)

theorem firstLine_append {line : Bytes} (hline : SingleLine line) (rest : Bytes) :
    firstLine (line ++ utf8 "\n" ++ rest) = line := by
  have htake : (line ++ utf8 "\n" ++ rest).takeWhile (fun c => c ≠ newline) = line := by
    rw [List.append_assoc, List.takeWhile_append_of_pos fun c hmem => by simp [hline c hmem]]
    exact List.append_nil line
  have hlast : line.getLast? ≠ some carriageReturn := fun hlast =>
    (hline _ (List.mem_of_getLast? hlast)).2 rfl
  rw [firstLine, htake, withoutReturn, if_neg hlast]

/-! ### From the client to the server -/

/-- The server takes the line as a request with the target and the coded content as its arguments. -/
def ReadsChatLine (wire : Bytes) (request : Bytes → Request) (target content : Bytes) : Prop :=
  ∃ arguments encoded,
    commandRequest (parseCommand (firstLine wire)) = some (request arguments) ∧
      splitFirstToken arguments = some (target, encoded) ∧ percentDecode encoded = .ok content

theorem readsChatLine {name target : Bytes} {request : Bytes → Request} (hname : IsWord name)
    (hline : SingleLine name) (htarget : IsField target) (hcontent : content ≠ [])
    (hroute : ∀ arguments, commandRequest ⟨toUpperAscii name, arguments⟩ = some (request arguments)) :
    ReadsChatLine (name ++ utf8 " " ++ target ++ utf8 " " ++ encodeTextToken content ++ utf8 "\n")
      request target content := by
  have hencoded := isField_percentEncode hcontent
  have hspace : SingleLine (utf8 " ") := by decide
  have hwire : SingleLine (name ++ utf8 " " ++ target ++ utf8 " " ++ encodeTextToken content) :=
    (((hline.append hspace).append htarget.singleLine).append hspace).append hencoded.singleLine
  have hfirst := firstLine_append hwire []
  rw [List.append_nil] at hfirst
  have hcommand : parseCommand (name ++ utf8 " " ++ target ++ utf8 " " ++ encodeTextToken content) =
      ⟨toUpperAscii name, target ++ utf8 " " ++ encodeTextToken content⟩ := by
    have hsame : name ++ utf8 " " ++ target ++ utf8 " " ++ encodeTextToken content =
        name ++ space :: (target ++ utf8 " " ++ encodeTextToken content) := by
      simp only [List.append_assoc]
      rfl
    rw [hsame]
    exact parseCommand_line hname htarget.isWord hencoded.isWord
  refine ⟨target ++ utf8 " " ++ encodeTextToken content, encodeTextToken content, ?_, ?_,
    percentDecode_percentEncode content⟩
  · rw [hfirst, hcommand, hroute]
  · rw [List.append_assoc]
    exact splitFirstToken_words htarget.isWord hencoded.isWord

/-! ### From the server to the clients -/

theorem privateLineStart_live (id : Nat) (rest : Bytes) :
    privateLineStart (utf8 "[#" ++ decimal id ++ rest) = some (false, decimal id ++ rest) := by
  obtain ⟨digit, digits, hdigits⟩ := List.exists_cons_of_ne_nil (decimal_ne_nil id)
  have hdigit : isDigit digit = true := isDigit_of_mem_decimal (hdigits ▸ List.mem_cons_self)
  have hletter : digit ≠ 71 := by
    rintro rfl
    exact absurd hdigit (by decide)
  have hgroup : (utf8 "[#" ++ decimal id ++ rest).dropPrefix? (utf8 "[#G") = none := by
    rw [hdigits]
    show (digit :: digits ++ rest).dropPrefix? [71] = none
    simp [List.dropPrefix?, hletter]
  have hoffline : (utf8 "[#" ++ decimal id ++ rest).dropPrefix? (utf8 "[offline #") = none := rfl
  rw [privateLineStart, hoffline, hgroup, List.append_assoc, dropPrefix?_append]
  rfl

theorem privateLineStart_offline (id : Nat) (rest : Bytes) :
    privateLineStart (utf8 "[offline #" ++ decimal id ++ rest) = some (true, decimal id ++ rest) := by
  rw [privateLineStart, List.append_assoc, dropPrefix?_append]

theorem privateLineMarker_from (rest : Bytes) :
    privateLineMarker (utf8 " [private from " ++ rest) = some (false, rest) := by
  rw [privateLineMarker, dropPrefix?_append]

theorem privateLineMarker_to (rest : Bytes) :
    privateLineMarker (utf8 " [private to " ++ rest) = some (true, rest) := by
  have hfrom : (utf8 " [private to " ++ rest).dropPrefix? (utf8 " [private from ") = none := rfl
  have hlegacy : (utf8 " [private to " ++ rest).dropPrefix? (utf8 " [private，来源：") = none := rfl
  rw [privateLineMarker, hfrom, hlegacy, dropPrefix?_append]
  rfl

theorem groupLineStart_live (id : Nat) (rest : Bytes) :
    groupLineStart (utf8 "[#G" ++ decimal id ++ rest) = some (false, decimal id ++ rest) := by
  have hoffline : (utf8 "[#G" ++ decimal id ++ rest).dropPrefix? (utf8 "[offline #G") = none := rfl
  rw [groupLineStart, hoffline, List.append_assoc, dropPrefix?_append]
  rfl

theorem groupLineStart_offline (id : Nat) (rest : Bytes) :
    groupLineStart (utf8 "[offline #G" ++ decimal id ++ rest) = some (true, decimal id ++ rest) := by
  rw [groupLineStart, List.append_assoc, dropPrefix?_append]

theorem firstLine_codedLine (hstart : SingleLine start) (hcontent : content ≠ []) (rest : Bytes) :
    firstLine ((codedLine start content).bytes ++ rest) = start ++ encodeTextToken content :=
  firstLine_append (hstart.append (isField_percentEncode hcontent).singleLine) rest

theorem parsePrivateMessageLine_fields {now : Int} {marker peer : Bytes} {outgoing : Bool}
    (hid : id < 2 ^ 64) (hpeer : IsField peer) (hactive : active ≠ [])
    (hstart : ∀ rest, privateLineStart (start ++ decimal id ++ rest) =
      some (offline, decimal id ++ rest))
    (hmarker : ∀ rest, privateLineMarker (marker ++ rest) = some (outgoing, rest)) :
    parsePrivateMessageLine now (start ++ decimal id ++ utf8 "]" ++ marker ++ peer ++ utf8 "] " ++
      encodeTextToken content) active =
    some
      { serverMessageId := id
        accountUsername := active
        peerUsername := peer
        senderUsername := if outgoing then active else peer
        recipientUsername := if outgoing then peer else active
        content := decodedContent (encodeTextToken content)
        receivedAtUnixMs := now
        outgoing
        offlineDelivery := offline } := by
  have hsplitId := splitAtFirst_append (rfl : (utf8 "]").head? = some 93) (isField_decimal id).bracket_notMem
    (marker ++ peer ++ utf8 "] " ++ encodeTextToken content)
  have hsplitPeer := splitAtFirst_append (rfl : (utf8 "] ").head? = some 93) hpeer.bracket_notMem
    (encodeTextToken content)
  simp only [List.append_assoc] at hstart hsplitId hsplitPeer ⊢
  simp [parsePrivateMessageLine, hactive, hstart, hsplitId, parseUint64Value_decimal hid, hmarker,
    hsplitPeer, hpeer.ne_nil]

theorem parseGroupMessageLine_fields {now : Int} {sender : Bytes} (hid : id < 2 ^ 64)
    (hgroup : IsField groupName) (hsender : IsField sender) (hactive : active ≠ [])
    (hstart : ∀ rest, groupLineStart (start ++ decimal id ++ rest) =
      some (offline, decimal id ++ rest)) :
    parseGroupMessageLine now (start ++ decimal id ++ utf8 "]" ++ utf8 " [group " ++ groupName ++
      utf8 "] [" ++ sender ++ utf8 "] " ++ encodeTextToken content) active =
    some
      { serverMessageId := id
        accountUsername := active
        groupName
        senderUsername := sender
        content := decodedContent (encodeTextToken content)
        receivedAtUnixMs := now
        outgoing := sender = active
        offlineDelivery := offline } := by
  have hsplitId := splitAtFirst_append (rfl : (utf8 "]").head? = some 93)
    (isField_decimal id).bracket_notMem (utf8 " [group " ++ groupName ++ utf8 "] [" ++ sender ++
      utf8 "] " ++ encodeTextToken content)
  have hsplitGroup := splitAtFirst_append (rfl : (utf8 "] [").head? = some 93) hgroup.bracket_notMem
    (sender ++ utf8 "] " ++ encodeTextToken content)
  have hsplitSender := splitAtFirst_append (rfl : (utf8 "] ").head? = some 93)
    hsender.bracket_notMem (encodeTextToken content)
  simp only [List.append_assoc] at hstart hsplitId hsplitGroup hsplitSender ⊢
  simp [parseGroupMessageLine, hactive, hstart, hsplitId, parseUint64Value_decimal hid,
    dropPrefix?_append, hsplitGroup, hsplitSender, hgroup.ne_nil, hsender.ne_nil]

/-! ### The round trips -/

/-- What the clients of the two users should make of a private message. -/
def StoredMessage.localMessage (message : StoredMessage) (now : Int) (outgoing offline : Bool) :
    LocalPrivateMessage where
  serverMessageId := message.id
  accountUsername :=
    if outgoing then message.payload.senderUsername else message.payload.recipientUsername
  peerUsername :=
    if outgoing then message.payload.recipientUsername else message.payload.senderUsername
  senderUsername := message.payload.senderUsername
  recipientUsername := message.payload.recipientUsername
  content := message.payload.content
  receivedAtUnixMs := now
  outgoing
  offlineDelivery := offline

/-- What the client of a user should make of a group message. -/
def StoredGroupMessage.localMessage (message : StoredGroupMessage) (now : Int) (active : Bytes)
    (offline : Bool) : LocalGroupMessage where
  serverMessageId := message.id
  accountUsername := active
  groupName := message.payload.groupName
  senderUsername := message.payload.senderUsername
  content := message.payload.content
  receivedAtUnixMs := now
  outgoing := message.payload.senderUsername = active
  offlineDelivery := offline

/-- The message reaches the server and all clients unchanged. -/
structure PrivateRoundTrip (now : Int) (message : StoredMessage) : Prop where
  sent : ∃ wire, chatMessageLine .privateChat message.payload.recipientUsername
      message.payload.content = some wire ∧
    ReadsChatLine wire .privateMessage message.payload.recipientUsername message.payload.content
  live : parsePrivateMessageLine now (firstLine message.liveLine.bytes)
    message.payload.recipientUsername = some (message.localMessage now false false)
  offline : parsePrivateMessageLine now (firstLine message.offlineLine.bytes)
    message.payload.recipientUsername = some (message.localMessage now false true)
  echo : ∀ notice, parsePrivateMessageLine now (firstLine (message.echoLine ++ .plain notice).bytes)
    message.payload.senderUsername = some (message.localMessage now true false)

structure GroupRoundTrip (now : Int) (message : StoredGroupMessage) : Prop where
  sent : ∃ wire, chatMessageLine .groupChat message.payload.groupName message.payload.content =
      some wire ∧
    ReadsChatLine wire .groupMessage message.payload.groupName message.payload.content
  live : ∀ active, isValidUsername active = true →
    parseGroupMessageLine now (firstLine message.liveLine.bytes) active =
      some (message.localMessage now active false)
  offline : ∀ active, isValidUsername active = true →
    parseGroupMessageLine now (firstLine message.offlineLine.bytes) active =
      some (message.localMessage now active true)

section Lines

variable (now : Int)

def arrivedContent (content : Bytes) : Bytes := if content = utf8 "-" then [] else content

theorem arrivedContent_eq_iff :
    arrivedContent content = content ↔ content ≠ utf8 "-" := by
  unfold arrivedContent
  constructor
  · rintro harrived rfl
    exact absurd harrived (by decide)
  · intro hcontent
    rw [if_neg hcontent]

theorem parse_privateLine {marker peer : Bytes} {outgoing : Bool} (hid : id < 2 ^ 64)
    (hpeer : IsField peer) (hactive : active ≠ []) (hcontent : content ≠ [])
    (hstartLine : SingleLine start) (hmarkerLine : SingleLine marker)
    (hstart : ∀ rest, privateLineStart (start ++ decimal id ++ rest) =
      some (offline, decimal id ++ rest))
    (hmarker : ∀ rest, privateLineMarker (marker ++ rest) = some (outgoing, rest)) (rest : Bytes) :
    parsePrivateMessageLine now (firstLine ((codedLine (start ++ decimal id ++
      (utf8 "]" ++ marker) ++ peer ++ utf8 "] ") content).bytes ++ rest)) active =
    some
      { serverMessageId := id
        accountUsername := active
        peerUsername := peer
        senderUsername := if outgoing then active else peer
        recipientUsername := if outgoing then peer else active
        content := arrivedContent content
        receivedAtUnixMs := now
        outgoing
        offlineDelivery := offline } := by
  have hline : SingleLine (start ++ decimal id ++ (utf8 "]" ++ marker) ++ peer ++ utf8 "] ") := by
    have hclose : SingleLine (utf8 "]") ∧ SingleLine (utf8 "] ") := by decide
    exact (((hstartLine.append (isField_decimal id).singleLine).append
      (hclose.1.append hmarkerLine)).append hpeer.singleLine).append hclose.2
  rw [firstLine_codedLine hline hcontent, arrivedContent, ← decodedContent_encodeTextToken,
    ← parsePrivateMessageLine_fields hid hpeer hactive hstart hmarker]
  simp only [List.append_assoc]

theorem parse_groupLine {sender : Bytes} (hid : id < 2 ^ 64) (hgroup : IsField groupName)
    (hsender : IsField sender) (hactive : active ≠ []) (hcontent : content ≠ [])
    (hstartLine : SingleLine start) (hstart : ∀ rest, groupLineStart (start ++ decimal id ++ rest) =
      some (offline, decimal id ++ rest)) :
    parseGroupMessageLine now (firstLine (codedLine (start ++ decimal id ++ utf8 "] [group " ++
      groupName ++ utf8 "] [" ++ sender ++ utf8 "] ") content).bytes) active =
    some
      { serverMessageId := id
        accountUsername := active
        groupName
        senderUsername := sender
        content := arrivedContent content
        receivedAtUnixMs := now
        outgoing := sender = active
        offlineDelivery := offline } := by
  have hmarkers : SingleLine (utf8 "] [group ") ∧ SingleLine (utf8 "] [") ∧
      SingleLine (utf8 "] ") := by decide
  have hline : SingleLine (start ++ decimal id ++ utf8 "] [group " ++ groupName ++ utf8 "] [" ++
      sender ++ utf8 "] ") :=
    (((((hstartLine.append (isField_decimal id).singleLine).append hmarkers.1).append
      hgroup.singleLine).append hmarkers.2.1).append hsender.singleLine).append hmarkers.2.2
  have hmarker : utf8 "] [group " = utf8 "]" ++ utf8 " [group " := rfl
  have hfirst := firstLine_codedLine hline hcontent []
  rw [List.append_nil] at hfirst
  rw [hfirst, arrivedContent, ← decodedContent_encodeTextToken,
    ← parseGroupMessageLine_fields hid hgroup hsender hactive hstart, hmarker]
  simp only [List.append_assoc]

end Lines

def StoredMessage.arrived (message : StoredMessage) : StoredMessage :=
  { message with payload := { message.payload with content := arrivedContent message.payload.content } }

def StoredGroupMessage.arrived (message : StoredGroupMessage) : StoredGroupMessage :=
  { message with payload := { message.payload with content := arrivedContent message.payload.content } }

section Private

variable (now : Int) {message : StoredMessage} (hid : message.id < 2 ^ 64)
  (hsender : isValidUsername message.payload.senderUsername = true)
  (hrecipient : isValidUsername message.payload.recipientUsername = true)
  (hcontent : message.payload.content ≠ [])

include hid hsender hrecipient hcontent

theorem parse_liveLine :
    parsePrivateMessageLine now (firstLine message.liveLine.bytes)
      message.payload.recipientUsername = some (message.arrived.localMessage now false false) := by
  have hparse := parse_privateLine now hid (isField_username hsender)
    (isField_username hrecipient).ne_nil hcontent (by decide) (by decide)
    (privateLineStart_live message.id) privateLineMarker_from []
  rw [List.append_nil] at hparse
  exact hparse

theorem parse_offlineLine :
    parsePrivateMessageLine now (firstLine message.offlineLine.bytes)
      message.payload.recipientUsername = some (message.arrived.localMessage now false true) := by
  have hparse := parse_privateLine now hid (isField_username hsender)
    (isField_username hrecipient).ne_nil hcontent (by decide) (by decide)
    (privateLineStart_offline message.id) privateLineMarker_from []
  rw [List.append_nil] at hparse
  exact hparse

theorem parse_echoLine (notice : Bytes) :
    parsePrivateMessageLine now (firstLine (message.echoLine ++ .plain notice).bytes)
      message.payload.senderUsername = some (message.arrived.localMessage now true false) :=
  parse_privateLine now hid (isField_username hrecipient) (isField_username hsender).ne_nil hcontent
    (by decide) (by decide) (privateLineStart_live message.id) privateLineMarker_to notice

theorem privateRoundTrip_iff
    (hlength : message.payload.content.length ≤ kMaxEditableChatMessage) :
    PrivateRoundTrip now message ↔ message.payload.content ≠ utf8 "-" := by
  have hlive := parse_liveLine now hid hsender hrecipient hcontent
  have hoffline := parse_offlineLine now hid hsender hrecipient hcontent
  have hecho := parse_echoLine now hid hsender hrecipient hcontent
  rw [← arrivedContent_eq_iff]
  constructor
  · intro htrip
    rw [htrip.live, Option.some.injEq] at hlive
    exact (congrArg LocalPrivateMessage.content hlive).symm
  · intro harrived
    have hsame : message.arrived = message := by
      unfold StoredMessage.arrived
      rw [harrived]
    rw [hsame] at hlive hoffline hecho
    have haccepted : ¬(message.payload.content.isEmpty ||
        kMaxEditableChatMessage < message.payload.content.length) = true := by
      simp [hcontent, hlength]
    have hword : IsWord (utf8 "MSG") := ⟨by decide, by decide⟩
    refine ⟨⟨_, if_neg haccepted, ?_⟩, hlive, hoffline, hecho⟩
    exact readsChatLine hword (by decide) (isField_username hrecipient) hcontent fun _ => rfl

end Private

section Group

variable (now : Int) {message : StoredGroupMessage} (hid : message.id < 2 ^ 64)
  (hgroup : isValidGroupName message.payload.groupName = true)
  (hsender : isValidUsername message.payload.senderUsername = true)
  (hcontent : message.payload.content ≠ [])

include hid hgroup hsender hcontent

theorem parse_groupLiveLine (hactive : isValidUsername active = true) :
    parseGroupMessageLine now (firstLine message.liveLine.bytes) active =
      some (message.arrived.localMessage now active false) :=
  parse_groupLine now hid (isField_groupName hgroup) (isField_username hsender)
    (isField_username hactive).ne_nil hcontent (by decide) (groupLineStart_live message.id)

theorem parse_groupOfflineLine (hactive : isValidUsername active = true) :
    parseGroupMessageLine now (firstLine message.offlineLine.bytes) active =
      some (message.arrived.localMessage now active true) :=
  parse_groupLine now hid (isField_groupName hgroup) (isField_username hsender)
    (isField_username hactive).ne_nil hcontent (by decide) (groupLineStart_offline message.id)

theorem groupRoundTrip_iff
    (hlength : message.payload.content.length ≤ kMaxEditableChatMessage) :
    GroupRoundTrip now message ↔ message.payload.content ≠ utf8 "-" := by
  rw [← arrivedContent_eq_iff]
  constructor
  · intro htrip
    -- the sender's own line
    have hecho := parse_groupLiveLine now hid hgroup hsender hcontent hsender
    rw [htrip.live _ hsender, Option.some.injEq] at hecho
    exact (congrArg LocalGroupMessage.content hecho).symm
  · intro harrived
    have hsame : message.arrived = message := by
      unfold StoredGroupMessage.arrived
      rw [harrived]
    have haccepted : ¬(message.payload.content.isEmpty ||
        kMaxEditableChatMessage < message.payload.content.length) = true := by
      simp [hcontent, hlength]
    have hword : IsWord (utf8 "GROUP_MSG") := ⟨by decide, by decide⟩
    refine ⟨⟨_, if_neg haccepted, ?_⟩, fun active hactive => ?_, fun active hactive => ?_⟩
    · exact readsChatLine hword (by decide) (isField_groupName hgroup) hcontent fun _ => rfl
    · rw [parse_groupLiveLine now hid hgroup hsender hcontent hactive, hsame]
    · rw [parse_groupOfflineLine now hid hgroup hsender hcontent hactive, hsame]

end Group

/-- **Chat text.** A content of at most 1000 bytes goes unchanged from the client of its sender to
the server and to all clients, in private and in group messages, unless it is a single `-`. -/
theorem chat_text_round_trip {now : Int} {id groupId : Nat} {createdAt : Int}
    {sender recipient groupName content : Bytes} (hid : id < 2 ^ 64)
    (hsender : isValidUsername sender = true) (hrecipient : isValidUsername recipient = true)
    (hgroup : isValidGroupName groupName = true) (hcontent : content ≠ [])
    (hlength : content.length ≤ 1000) :
    (PrivateRoundTrip now ⟨id, ⟨.privateMessage, sender, recipient, content, createdAt⟩⟩ ∧
      GroupRoundTrip now ⟨id, ⟨groupId, groupName, sender, content, createdAt⟩⟩) ↔
      content ≠ utf8 "-" := by
  rw [privateRoundTrip_iff now hid hsender hrecipient hcontent hlength,
    groupRoundTrip_iff now hid hgroup hsender hcontent hlength, and_self]

theorem chat_text_round_trip_two_lines :
    PrivateRoundTrip 0 ⟨7, ⟨.privateMessage, utf8 "amy", utf8 "bob", utf8 "5%] \n-", 0⟩⟩ ∧
      GroupRoundTrip 0 ⟨7, ⟨1, utf8 "club", utf8 "amy", utf8 "5%] \n-", 0⟩⟩ :=
  (chat_text_round_trip (by decide) (by decide) (by decide) (by decide) (by decide)
    (by decide)).mpr (by decide)

/-- **A single `-`.** Bob's client shows an empty message. -/
theorem dash_arrives_empty :
    let message : StoredMessage := ⟨7, ⟨.privateMessage, utf8 "amy", utf8 "bob", utf8 "-", 0⟩⟩
    (parsePrivateMessageLine 0 (firstLine message.liveLine.bytes) (utf8 "bob")).map
        LocalPrivateMessage.content = some [] ∧
      ¬PrivateRoundTrip 0 message := by
  refine ⟨by decide +kernel, fun htrip => ?_⟩
  have hlive := congrArg (Option.map LocalPrivateMessage.content) htrip.live
  exact absurd hlive (by decide +kernel)

end ChatRoom
