import ChatRoom.FileUtils

/-!
# Chat messages in the client

`send_chat_message` builds the line of a message, and `parse_private_message_line` and
`parse_group_message_line` take the lines of the server apart.
-/

namespace ChatRoom

def splitAtFirst (pattern : Bytes) : Bytes → Option (Bytes × Bytes)
  | [] => none
  | c :: text =>
    match (c :: text).dropPrefix? pattern with
    | some rest => some ([], rest)
    | none => (splitAtFirst pattern text).map fun (before, rest) => (c :: before, rest)

def encodeTextToken (text : Bytes) : Bytes := percentEncode text

def decodeTextToken (encoded : Bytes) : Except Bytes Bytes :=
  if encoded = utf8 "-" then .ok [] else percentDecode encoded

def decodedContent (encoded : Bytes) : Bytes :=
  match decodeTextToken encoded with
  | .ok content => content
  | .error _ => encoded

/-! ### Sending -/

inductive ClientChatScope where
  | none
  | privateChat
  | groupChat
  deriving DecidableEq, Repr

def kMaxEditableChatMessage : Nat := 1000

/-- The line that `send_chat_message` queues, if it accepts the message. -/
def chatMessageLine (scope : ClientChatScope) (target message : Bytes) : Option Bytes :=
  if message.isEmpty || kMaxEditableChatMessage < message.length then
    none
  else
    let command := if scope = .privateChat then utf8 "MSG" else utf8 "GROUP_MSG"
    some (command ++ utf8 " " ++ target ++ utf8 " " ++ encodeTextToken message ++ utf8 "\n")

/-! ### Receiving -/

/-- A line without its line feed, as both sides pass it on: a carriage return at the end is not part
of it. -/
def withoutReturn (line : Bytes) : Bytes :=
  if line.getLast? = some carriageReturn then line.dropLast else line

def firstLine (text : Bytes) : Bytes := withoutReturn (text.takeWhile fun c => c ≠ newline)

structure LocalPrivateMessage where
  serverMessageId : Nat
  accountUsername : Bytes
  peerUsername : Bytes
  senderUsername : Bytes
  recipientUsername : Bytes
  content : Bytes
  receivedAtUnixMs : Int
  outgoing : Bool
  offlineDelivery : Bool
  deriving DecidableEq, Repr

structure LocalGroupMessage where
  serverMessageId : Nat
  accountUsername : Bytes
  groupName : Bytes
  senderUsername : Bytes
  content : Bytes
  receivedAtUnixMs : Int
  outgoing : Bool
  offlineDelivery : Bool
  deriving DecidableEq, Repr

/-- Whether the line is that of an offline message, and what follows the start of the line. -/
def privateLineStart (line : Bytes) : Option (Bool × Bytes) :=
  match line.dropPrefix? (utf8 "[offline #") with
  | some rest => some (true, rest)
  | none =>
    if (line.dropPrefix? (utf8 "[#G")).isSome then
      none
    else
      (line.dropPrefix? (utf8 "[#")).map fun rest => (false, rest)

/-- Whether the message was sent by the user of the client, and what follows the marker. The second
marker was sent by an earlier version of the server. -/
def privateLineMarker (text : Bytes) : Option (Bool × Bytes) :=
  match text.dropPrefix? (utf8 " [private from ") with
  | some rest => some (false, rest)
  | none =>
    match text.dropPrefix? (utf8 " [private，来源：") with
    | some rest => some (false, rest)
    | none => (text.dropPrefix? (utf8 " [private to ")).map fun rest => (true, rest)

def parsePrivateMessageLine (now : Int) (line activeUsername : Bytes) :
    Option LocalPrivateMessage := do
  guard (activeUsername ≠ [])
  let (offline, text) ← privateLineStart line
  let (digits, text) ← splitAtFirst (utf8 "]") text
  let id ← parseUint64Value digits
  let (outgoing, text) ← privateLineMarker text
  let (peer, encodedContent) ← splitAtFirst (utf8 "] ") text
  guard (peer ≠ [])
  pure
    { serverMessageId := id
      accountUsername := activeUsername
      peerUsername := peer
      senderUsername := if outgoing then activeUsername else peer
      recipientUsername := if outgoing then peer else activeUsername
      content := decodedContent encodedContent
      receivedAtUnixMs := now
      outgoing
      offlineDelivery := offline }

def groupLineStart (line : Bytes) : Option (Bool × Bytes) :=
  match line.dropPrefix? (utf8 "[offline #G") with
  | some rest => some (true, rest)
  | none => (line.dropPrefix? (utf8 "[#G")).map fun rest => (false, rest)

def parseGroupMessageLine (now : Int) (line activeUsername : Bytes) :
    Option LocalGroupMessage := do
  guard (activeUsername ≠ [])
  let (offline, text) ← groupLineStart line
  let (digits, text) ← splitAtFirst (utf8 "]") text
  let id ← parseUint64Value digits
  let text ← text.dropPrefix? (utf8 " [group ")
  let (groupName, text) ← splitAtFirst (utf8 "] [") text
  let (sender, encodedContent) ← splitAtFirst (utf8 "] ") text
  guard (groupName ≠ [] ∧ sender ≠ [])
  pure
    { serverMessageId := id
      accountUsername := activeUsername
      groupName
      senderUsername := sender
      content := decodedContent encodedContent
      receivedAtUnixMs := now
      outgoing := sender = activeUsername
      offlineDelivery := offline }

/-! ### What is found again -/

theorem dropPrefix?_append (start rest : Bytes) : (start ++ rest).dropPrefix? start = some rest :=
  List.dropPrefix?_append_of_beq rest (beq_self_eq_true start)

theorem splitAtFirst_append {pattern text : Bytes} {first : UInt8}
    (hpattern : pattern.head? = some first) (htext : first ∉ text) (rest : Bytes) :
    splitAtFirst pattern (text ++ pattern ++ rest) = some (text, rest) := by
  obtain ⟨tail, rfl⟩ := List.head?_eq_some_iff.mp hpattern
  induction text with
  | nil =>
    have hdrop : (first :: (tail ++ rest)).dropPrefix? (first :: tail) = some rest :=
      dropPrefix?_append (first :: tail) rest
    simp only [List.nil_append, List.cons_append, splitAtFirst, hdrop]
  | cons c text ih =>
    rw [List.mem_cons, not_or] at htext
    have hdrop : (c :: (text ++ first :: tail ++ rest)).dropPrefix? (first :: tail) = none := by
      simp [List.dropPrefix?, Ne.symm htext.1]
    rw [List.cons_append, List.cons_append, splitAtFirst, hdrop]
    simp only [ih htext.2, Option.map_some]

theorem decodeTextToken_percentEncode (text : Bytes) :
    decodeTextToken (percentEncode text) = .ok (if text = utf8 "-" then [] else text) := by
  unfold decodeTextToken
  by_cases hdash : text = utf8 "-"
  · subst hdash
    rfl
  · have hcoded : percentEncode text ≠ utf8 "-" := fun heq => hdash (percentEncode_injective heq)
    rw [if_neg hcoded, percentDecode_percentEncode, if_neg hdash]

/-- **Contents.** A content is read back from its coded form, except for a single `-`. -/
theorem decodedContent_encodeTextToken (content : Bytes) :
    decodedContent (encodeTextToken content) = if content = utf8 "-" then [] else content := by
  rw [decodedContent, encodeTextToken, decodeTextToken_percentEncode]

end ChatRoom
