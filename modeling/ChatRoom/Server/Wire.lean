import ChatRoom.Database
import ChatRoom.FileUtils

/-!
# The text that the server sends

A text remembers which of its characters come from the content of a message. The lines that carry
messages are given here once: the live, offline and echo lines, in which the content is percent
coded, and the public line and the lines of the histories, in which it is written as it is.
-/

namespace ChatRoom

inductive WireText where
  | plain (bytes : Bytes)
  | content (bytes : Bytes)
  | append (left right : WireText)
  deriving DecidableEq, Repr

namespace WireText

instance : Append WireText := ⟨append⟩

def bytes : WireText → Bytes
  | plain bytes => bytes
  | content bytes => bytes
  | append left right => left.bytes ++ right.bytes

def contents : WireText → List Bytes
  | plain _ => []
  | content bytes => [bytes]
  | append left right => left.contents ++ right.contents

variable {left right : WireText} {text : Bytes}

@[simp] theorem bytes_plain : (plain text).bytes = text := rfl

@[simp] theorem bytes_content : (content text).bytes = text := rfl

@[simp] theorem bytes_append : (left ++ right).bytes = left.bytes ++ right.bytes := rfl

@[simp] theorem contents_plain : (plain text).contents = [] := rfl

@[simp] theorem contents_content : (content text).contents = [text] := rfl

@[simp] theorem contents_append : (left ++ right).contents = left.contents ++ right.contents := rfl

end WireText

open WireText

/-! ### Lines with a percent coded content -/

def codedLine (start content : Bytes) : WireText :=
  plain start ++ .content (percentEncode content) ++ plain (utf8 "\n")

def StoredMessage.liveLine (message : StoredMessage) : WireText :=
  codedLine (utf8 "[#" ++ decimal message.id ++ utf8 "] [private from " ++
    message.payload.senderUsername ++ utf8 "] ") message.payload.content

def StoredMessage.echoLine (message : StoredMessage) : WireText :=
  codedLine (utf8 "[#" ++ decimal message.id ++ utf8 "] [private to " ++
    message.payload.recipientUsername ++ utf8 "] ") message.payload.content

def StoredMessage.offlineLine (message : StoredMessage) : WireText :=
  codedLine (utf8 "[offline #" ++ decimal message.id ++ utf8 "] [private from " ++
    message.payload.senderUsername ++ utf8 "] ") message.payload.content

def StoredGroupMessage.liveLine (message : StoredGroupMessage) : WireText :=
  codedLine (utf8 "[#G" ++ decimal message.id ++ utf8 "] [group " ++ message.payload.groupName ++
    utf8 "] [" ++ message.payload.senderUsername ++ utf8 "] ") message.payload.content

def StoredGroupMessage.offlineLine (message : StoredGroupMessage) : WireText :=
  codedLine (utf8 "[offline #G" ++ decimal message.id ++ utf8 "] [group " ++
    message.payload.groupName ++ utf8 "] [" ++ message.payload.senderUsername ++ utf8 "] ")
    message.payload.content

/-! ### Lines with the content as it is -/

def rawLine (start content : Bytes) : WireText :=
  plain start ++ .content content ++ plain (utf8 "\n")

def StoredMessage.publicLine (message : StoredMessage) : WireText :=
  rawLine (utf8 "[#" ++ decimal message.id ++ utf8 "] [" ++ message.payload.senderUsername ++
    utf8 "] ") message.payload.content

/-- `formatUnixMs` is `format_unix_ms`, which depends on the time zone of the host. -/
def StoredMessage.historyPublicLine (formatUnixMs : Int → Bytes) (message : StoredMessage) :
    WireText :=
  rawLine (utf8 "  #" ++ decimal message.id ++ utf8 " " ++
    formatUnixMs message.payload.createdAtUnixMs ++ utf8 " [" ++ message.payload.senderUsername ++
    utf8 "] ") message.payload.content

def StoredMessage.historyPrivateLine (formatUnixMs : Int → Bytes) (message : StoredMessage) :
    WireText :=
  rawLine (utf8 "  #" ++ decimal message.id ++ utf8 " " ++
    formatUnixMs message.payload.createdAtUnixMs ++ utf8 " " ++ message.payload.senderUsername ++
    utf8 " -> " ++ message.payload.recipientUsername ++ utf8 ": ") message.payload.content

def StoredGroupMessage.historyLine (formatUnixMs : Int → Bytes) (message : StoredGroupMessage) :
    WireText :=
  rawLine (utf8 "  #G" ++ decimal message.id ++ utf8 " " ++
    formatUnixMs message.payload.createdAtUnixMs ++ utf8 " [" ++ message.payload.senderUsername ++
    utf8 "] ") message.payload.content

def historyText {α : Type} (heading : Bytes) (line : α → WireText) (messages : List α) : WireText :=
  messages.foldl (fun text message => text ++ line message)
    (plain (heading ++ utf8 "showing " ++ decimal messages.length ++ utf8 " message(s):\n"))

end ChatRoom
