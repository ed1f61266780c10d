import ChatRoom.ChatText
import ChatRoom.Server.Files
import ChatRoom.Client.FileTransfer

/-! # Offers of files -/

namespace ChatRoom

open Client

variable {first last : Bytes} {middle : List Bytes}

/-! ### Lines of words -/

def argumentsOf (first : Bytes) (middle : List Bytes) (last : Bytes) : Bytes :=
  first ++ middle.flatMap (fun word => space :: word) ++ space :: last

theorem splitWords_argumentsOf (hfirst : IsWord first) (hmiddle : ∀ word ∈ middle, IsWord word)
    (hlast : IsWord last) :
    splitWords (argumentsOf first middle last) = first :: middle ++ [last] := by
  induction middle generalizing first with
  | nil => simp [argumentsOf, splitWords_cons hfirst, splitWords_word hlast]
  | cons word middle ih =>
    obtain ⟨hword, hmiddle⟩ := List.forall_mem_cons.mp hmiddle
    have hcons : argumentsOf first (word :: middle) last =
        first ++ space :: argumentsOf word middle last := by
      simp [argumentsOf]
    rw [hcons, splitWords_cons hfirst, ih hword hmiddle]
    rfl

theorem singleLine_argumentsOf (hfirst : SingleLine first)
    (hmiddle : ∀ word ∈ middle, SingleLine word) (hlast : SingleLine last) :
    SingleLine (argumentsOf first middle last) := by
  have hspace : SingleLine [space] := by decide
  refine (hfirst.append fun c hmem => ?_).append (hspace.append hlast)
  obtain ⟨word, hword, hc⟩ := List.mem_flatMap.mp hmem
  exact hspace.append (hmiddle word hword) c hc

/-- **Lines round trip.** The command and the words of a line are read back. -/
theorem parseCommand_words {name : Bytes} (hname : IsField name) (hfirst : IsField first)
    (hmiddle : ∀ word ∈ middle, IsField word) (hlast : IsField last) :
    parseCommand (firstLine (name ++ space :: argumentsOf first middle last ++ utf8 "\n")) =
        ⟨toUpperAscii name, argumentsOf first middle last⟩ ∧
      splitWords (argumentsOf first middle last) = first :: middle ++ [last] := by
  constructor
  · have hline : SingleLine (name ++ ([space] ++ argumentsOf first middle last)) :=
      hname.singleLine.append (SingleLine.append (by decide) (singleLine_argumentsOf
        hfirst.singleLine (fun word hword => (hmiddle word hword).singleLine) hlast.singleLine))
    have hfirstLine := firstLine_append hline []
    rw [List.append_nil] at hfirstLine
    have hsplit : argumentsOf first middle last =
        first ++ (middle.flatMap (fun word => space :: word) ++ [space]) ++ last := by
      simp [argumentsOf]
    refine (congrArg parseCommand hfirstLine).trans ?_
    rw [List.singleton_append, hsplit]
    exact parseCommand_line hname.isWord hfirst.isWord hlast.isWord
  · exact splitWords_argumentsOf hfirst.isWord (fun word hword => (hmiddle word hword).isWord)
      hlast.isWord

/-! ### Offers -/

/-- What the handlers of `FILE_BEGIN` store. -/
structure FileTransferMetadata.Storable (metadata : FileTransferMetadata) : Prop where
  sender : isValidUsername metadata.senderUsername = true
  group : match metadata.scope with
    | .privateFile => metadata.groupName = []
    | .groupFile => isValidGroupName metadata.groupName = true
  fileName : ∃ name : Bytes, name ≠ [] ∧ name.length ≤ 255 ∧
    metadata.fileName = sanitizeFilename name
  fileSize : metadata.fileSize ≤ ChatRoom.kMaxFileSize
  digest : isValidSha256Hex metadata.sha256Hex = true

structure Client.IncomingDownload.Describes (download : IncomingDownload) (transferId : Nat)
    (metadata : FileTransferMetadata) : Prop where
  transferId : download.transferId = transferId
  scope : download.scope = .privateFile ↔ metadata.scope = .privateFile
  sender : download.senderUsername = metadata.senderUsername
  group : download.groupName = metadata.groupName
  fileName : download.fileName = metadata.fileName
  size : download.expectedSize = metadata.fileSize
  digest : download.sha256Hex = metadata.sha256Hex

variable {metadata : FileTransferMetadata}

def groupWord (groupName : Bytes) : Bytes :=
  if groupName.isEmpty then utf8 "-" else percentEncode groupName

theorem isField_groupWord (groupName : Bytes) : IsField (groupWord groupName) := by
  unfold groupWord
  split
  · exact ⟨by decide, by decide⟩
  · rename_i hgroup
    exact isField_percentEncode fun hnil => hgroup (List.isEmpty_iff.mpr hnil)

theorem isField_scopeText (scope : FileTransferScope) : IsField (scopeText scope) := by
  cases scope <;> exact ⟨by decide, by decide⟩

theorem isField_digest (hdigest : isValidSha256Hex metadata.sha256Hex = true) :
    IsField metadata.sha256Hex := by
  simp only [isValidSha256Hex, Bool.and_eq_true, decide_eq_true_eq, List.all_eq_true] at hdigest
  refine ⟨fun hnil => by simp [hnil] at hdigest, fun c hmem => isFieldByte_of_name c ?_⟩
  have hdigit : ∀ c : UInt8, isXDigit c = true → (isAlnum c || c = 95 || c = 45) = true :=
    forall_byte (by decide +kernel)
  exact hdigit c (hdigest.2 c hmem)

def argumentWords (line : Bytes) : List Bytes := splitWords (parseCommand (firstLine line)).rawArguments

theorem argumentWords_makeOfferLine (transferId : Nat) (hstorable : metadata.Storable) :
    argumentWords (makeOfferLine transferId metadata) =
      [decimal transferId, scopeText metadata.scope, metadata.senderUsername,
        groupWord metadata.groupName, percentEncode metadata.fileName, decimal metadata.fileSize,
        metadata.sha256Hex] := by
  obtain ⟨name, -, -, hsanitized⟩ := hstorable.fileName
  have hfile : IsField (percentEncode metadata.fileName) :=
    isField_percentEncode (hsanitized ▸ (safeName_sanitizeFilename name).ne_nil)
  have hname : IsField (utf8 "FILE_OFFER") := ⟨by decide, by decide⟩
  have hmiddle : ∀ word ∈ [scopeText metadata.scope, metadata.senderUsername,
      groupWord metadata.groupName, percentEncode metadata.fileName, decimal metadata.fileSize],
      IsField word := by
    simp [isField_scopeText, isField_username hstorable.sender, isField_groupWord, hfile,
      isField_decimal]
  have hwords := parseCommand_words hname (isField_decimal transferId) hmiddle
    (isField_digest hstorable.digest)
  have hline : makeOfferLine transferId metadata = utf8 "FILE_OFFER" ++ space :: argumentsOf
      (decimal transferId) [scopeText metadata.scope, metadata.senderUsername,
        groupWord metadata.groupName, percentEncode metadata.fileName, decimal metadata.fileSize]
      metadata.sha256Hex ++ utf8 "\n" := by
    simp only [makeOfferLine, argumentsOf, groupWord, List.flatMap_cons, List.flatMap_nil,
      List.append_assoc, List.cons_append, List.append_nil]
    rfl
  rw [argumentWords, hline, hwords.1]
  exact hwords.2

theorem decodeTextToken_groupWord (hstorable : metadata.Storable) :
    decodeTextToken (groupWord metadata.groupName) = .ok metadata.groupName := by
  unfold groupWord
  split
  · rename_i hempty
    rw [List.isEmpty_iff.mp hempty]
    rfl
  · rename_i hgroup
    have hdash : metadata.groupName ≠ utf8 "-" := by
      intro hdash
      have hvalid := hstorable.group
      split at hvalid
      · exact hgroup (List.isEmpty_iff.mpr hvalid)
      · rw [hdash] at hvalid
        exact absurd hvalid (by decide)
    rw [decodeTextToken_percentEncode, if_neg hdash]

theorem offeredDownload_makeOfferLine {state : ClientState} (hlogin : state.activeUsername ≠ [])
    {transferId : Nat} (hid : transferId < 2 ^ 64) (hstorable : metadata.Storable) :
    ∃ download, offeredDownload state (argumentWords (makeOfferLine transferId metadata)) =
        some download ∧
      download.Describes transferId
        { metadata with fileName :=
            sanitizeFilename (if metadata.fileName = utf8 "-" then [] else metadata.fileName) } := by
  have hsize : metadata.fileSize < 2 ^ 64 :=
    hstorable.fileSize.trans_lt (by decide)
  have hscope : parseScope (scopeText metadata.scope) =
      some (match metadata.scope with | .privateFile => .privateFile | .groupFile => .groupFile) := by
    cases metadata.scope <;> rfl
  have hlimits : metadata.fileSize ≤ Client.kMaxFileSize ∧
      isValidSha256Hex metadata.sha256Hex = true := ⟨hstorable.fileSize, hstorable.digest⟩
  rw [argumentWords_makeOfferLine transferId hstorable]
  simp only [offeredDownload, ne_eq, hlogin, not_false_eq_true, guard_true, Option.pure_def,
    parseUint64Value_decimal hid, hscope, parseUint64Value_decimal hsize, hlimits, and_true,
    Except.toOption, decodeTextToken_groupWord hstorable, decodeTextToken_percentEncode,
    List.append_assoc, Option.bind_eq_bind, Option.bind_some, Option.some.injEq, exists_eq_left']
  refine ⟨rfl, ?_, rfl, rfl, rfl, rfl, rfl⟩
  cases metadata.scope <;> simp

/-- **Offers round trip** for all names of files but a dash. -/
theorem file_offer_round_trip {state : ClientState} (hlogin : state.activeUsername ≠ [])
    {transferId : Nat} (hid : transferId < 2 ^ 64) {metadata : FileTransferMetadata}
    (hstorable : metadata.Storable) :
    (∃ download, offeredDownload state (argumentWords (makeOfferLine transferId metadata)) =
        some download ∧ download.Describes transferId metadata) ↔
      metadata.fileName ≠ utf8 "-" := by
  obtain ⟨download, hdownload, hdescribes⟩ := offeredDownload_makeOfferLine hlogin hid hstorable
  obtain ⟨name, -, -, hname⟩ := hstorable.fileName
  have hsafe : sanitizeFilename metadata.fileName = metadata.fileName := by
    rw [hname]
    exact (safeName_sanitizeFilename name).sanitizeFilename_eq
  constructor
  · rintro ⟨download', hdownload', hdescribes'⟩ hdash
    obtain rfl : download = download' := Option.some.inj (hdownload.symm.trans hdownload')
    have hnames : sanitizeFilename (if metadata.fileName = utf8 "-" then [] else metadata.fileName) =
        metadata.fileName := hdescribes.fileName.symm.trans hdescribes'.fileName
    rw [if_pos hdash, hdash] at hnames
    exact absurd hnames (by decide)
  · intro hdash
    rw [if_neg hdash, hsafe] at hdescribes
    exact ⟨download, hdownload, hdescribes⟩

def note (fileName : Bytes) : FileTransferMetadata where
  transferToken := []
  scope := .privateFile
  senderUsername := utf8 "amy"
  recipientUsername := utf8 "bob"
  groupId := 0
  groupName := []
  fileName := fileName
  fileSize := 0
  sha256Hex := List.replicate 64 48
  createdAtUnixMs := 0
  storedRelativePath := []

theorem storable_note {fileName : Bytes} (hne : fileName ≠ []) (hlength : fileName.length ≤ 255)
    (hsafe : sanitizeFilename fileName = fileName) : (note fileName).Storable where
  sender := (by decide : isValidUsername (utf8 "amy") = true)
  group := rfl
  fileName := ⟨fileName, hne, hlength, hsafe.symm⟩
  fileSize := Nat.zero_le _
  digest := (by decide : isValidSha256Hex (List.replicate 64 48) = true)

theorem file_offer_round_trip_note :
    (∃ download, offeredDownload { activeUsername := utf8 "bob" }
        (argumentWords (makeOfferLine 7 (note (utf8 "a.txt")))) = some download ∧
      download.Describes 7 (note (utf8 "a.txt"))) ↔ utf8 "a.txt" ≠ utf8 "-" :=
  file_offer_round_trip (by decide) (by decide)
    (storable_note (by decide) (by decide) (by decide))

theorem dash_offered_as_default_name :
    (note (utf8 "-")).Storable ∧
      ∀ download, offeredDownload { activeUsername := utf8 "bob" }
          (argumentWords (makeOfferLine 7 (note (utf8 "-")))) = some download →
        download.fileName = utf8 "file.bin" := by
  have hstorable : (note (utf8 "-")).Storable := storable_note (by decide) (by decide) (by decide)
  have hlogin : ({ activeUsername := utf8 "bob" } : ClientState).activeUsername ≠ [] := by decide
  refine ⟨hstorable, fun download hdownload => ?_⟩
  obtain ⟨_, hdownload', hdescribes⟩ :=
    offeredDownload_makeOfferLine hlogin (by decide : 7 < 2 ^ 64) hstorable
  obtain rfl := Option.some.inj (hdownload'.symm.trans hdownload)
  exact hdescribes.fileName

/-! ### Where files are stored -/

def DirectChild (directory path : Bytes) : Prop :=
  ∃ name, path = joinPath directory name ∧ 47 ∉ name ∧ name ≠ [] ∧ name ≠ utf8 "." ∧ name ≠ utf8 ".."

theorem SafeName.slash_notMem {name : Bytes} (hsafe : SafeName name) : 47 ∉ name := fun hmem =>
  absurd (hsafe.bytes 47 hmem) (by decide)

theorem directChild_joinPath (directory : Bytes) {start name rest : Bytes} (hstart : 47 ∉ start)
    (hname : SafeName name) (hrest : 47 ∉ rest) :
    DirectChild directory (joinPath directory (start ++ utf8 "_" ++ name ++ rest)) := by
  have hmem : 95 ∈ start ++ utf8 "_" ++ name ++ rest := by simp [show utf8 "_" = [95] from rfl]
  refine ⟨_, rfl, ?_, List.ne_nil_of_mem hmem, ?_, ?_⟩
  · have hunder : 47 ∉ utf8 "_" := by decide
    simp only [List.mem_append, not_or]
    exact ⟨⟨⟨hstart, hunder⟩, hname.slash_notMem⟩, hrest⟩
  · intro hdot
    exact absurd (hdot ▸ hmem) (by decide)
  · intro hdots
    exact absurd (hdots ▸ hmem) (by decide)

theorem slash_notMem_token {token : Bytes} (htoken : isValidTransferToken token = true) :
    47 ∉ token := by
  simp only [isValidTransferToken, Bool.and_eq_true, List.all_eq_true] at htoken
  exact fun hmem => absurd (htoken.2 47 hmem) (by decide)

theorem directChild_storedRelativePath {token : Bytes} (htoken : isValidTransferToken token = true)
    (name : Bytes) : DirectChild (utf8 "files") (storedRelativePath token name) := by
  have hchild := directChild_joinPath (utf8 "files") (slash_notMem_token htoken)
    (safeName_sanitizeFilename name) List.not_mem_nil
  rw [List.append_nil] at hchild
  exact hchild

theorem slash_notMem_decimal (value : Nat) : 47 ∉ decimal value := fun hmem =>
  absurd (isDigit_of_mem_decimal hmem) (by decide)

theorem joinPath_append (directory name rest : Bytes) :
    joinPath directory (name ++ rest) = joinPath directory name ++ rest := by
  unfold joinPath
  split <;> simp

theorem directChild_offeredDownload {state : ClientState} {words : List Bytes}
    {download : IncomingDownload} (hdownload : offeredDownload state words = some download) :
    DirectChild (joinPath state.downloadRoot (sanitizeFilename state.activeUsername))
        download.finalPath ∧
      DirectChild (joinPath state.downloadRoot (sanitizeFilename state.activeUsername))
        download.tempPath := by
  unfold offeredDownload at hdownload
  split at hdownload
  · simp only [Option.bind_eq_bind, Option.bind_eq_some_iff, Option.pure_def,
      Option.some.injEq] at hdownload
    obtain ⟨-, -, transferId, -, -, -, -, -, -, -, -, -, fileName, -, rfl⟩ := hdownload
    have hchild : ∀ {rest : Bytes}, 47 ∉ rest → _ := directChild_joinPath
      (joinPath state.downloadRoot (sanitizeFilename state.activeUsername))
      (slash_notMem_decimal transferId) (safeName_sanitizeFilename fileName)
    constructor
    · have hfinal := hchild List.not_mem_nil
      rw [List.append_nil] at hfinal
      exact hfinal
    · rw [← joinPath_append]
      exact hchild (by decide)
  · exact absurd hdownload nofun

theorem parseFileBegin_filename {checks : FileBeginChecks}
    {token target encodedName size sha256Hex : Bytes} {request : FileBegin}
    (hparsed : parseFileBegin checks [token, target, encodedName, size, sha256Hex] = .ok request) :
    percentDecode encodedName = .ok request.filename := by
  grind [parseFileBegin]

/-- **Names of files.** A cleaned name is not cleaned again, so that what a client announces is what
the server stores, and on both sides the file lies in its directory. -/
theorem sanitized_names (n : Bytes) :
    (sanitizeFilename n ≠ [] ∧ (sanitizeFilename n).length ≤ 180 ∧
      (∀ c ∈ sanitizeFilename n, isAlnum c = true ∨ c ∈ utf8 "._-") ∧
      sanitizeFilename n ≠ utf8 "." ∧ sanitizeFilename n ≠ utf8 ".." ∧
      sanitizeFilename (sanitizeFilename n) = sanitizeFilename n) ∧
    (∀ token, isValidTransferToken token = true →
      DirectChild (utf8 "files") (storedRelativePath token n)) ∧
    (∀ state words download, offeredDownload state words = some download →
      DirectChild (joinPath state.downloadRoot (sanitizeFilename state.activeUsername))
          download.finalPath ∧
        DirectChild (joinPath state.downloadRoot (sanitizeFilename state.activeUsername))
          download.tempPath) ∧
    ∀ checks token target size sha256Hex request,
      parseFileBegin checks [token, target, encodeTextToken (sanitizeFilename n), size, sha256Hex] =
          .ok request →
        sanitizeFilename request.filename = sanitizeFilename n ∧
          storedRelativePath token (sanitizeFilename request.filename) =
            utf8 "files/" ++ token ++ utf8 "_" ++ sanitizeFilename n := by
  have hsafe := safeName_sanitizeFilename n
  refine ⟨⟨hsafe.ne_nil, hsafe.length_le, fun c hmem => ?_, hsafe.ne_dot, hsafe.ne_dots,
    hsafe.sanitizeFilename_eq⟩, fun token htoken => directChild_storedRelativePath htoken n,
    fun state words download => directChild_offeredDownload, ?_⟩
  · have hcases : ∀ c : UInt8, (isAlnum c || c = 46 || c = 95 || c = 45) = true →
        isAlnum c = true ∨ c ∈ utf8 "._-" := forall_byte (by decide +kernel)
    exact hcases c (hsafe.bytes c hmem)
  · intro checks token target size sha256Hex request hparsed
    have hname := parseFileBegin_filename hparsed
    rw [encodeTextToken, percentDecode_percentEncode] at hname
    rw [← Except.ok.inj hname, storedRelativePath, hsafe.sanitizeFilename_eq,
      hsafe.sanitizeFilename_eq]
    exact ⟨rfl, rfl⟩

end ChatRoom
