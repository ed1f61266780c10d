import ChatRoom.Lib.Answers
import ChatRoom.Client.State

/-!
# File transfers of the client

The functions of `client_file_transfer.cpp`: uploads are queued, announced, and sent when the server
asks for them; an offer makes a download.
-/

namespace ChatRoom.Client

open Answers MixedStream

/-- How a call of `send` or `send_file` ends. A time-out, a full queue or a local file that cannot be
read makes it fail while the connection stays. -/
inductive SendOutcome where
  | sent
  | failed
  | lost
  deriving DecidableEq, Repr

inductive Reply where
  | sent (outcome : SendOutcome)
  /-- Whether a call of the file system or of SQLite succeeds, or finds something. -/
  | flag (success : Bool)
  | fileSize (size : Option Nat)
  | digest (sha256Hex : Option Bytes)
  | token (token : Option TransferToken)
  | time (unixMs : Int)
  | uploads (saved : Option (List PendingUpload))
  deriving DecidableEq

/-- The client and its surroundings: `sent` is what it has handed to the transport, with the data of
files marked as raw, and `files` has the contents of the local files. -/
structure World where
  state : ClientState
  connected : Bool := true
  sent : List (Octet UInt8) := []
  files : Bytes → Bytes := fun _ => []

abbrev Procedure (α : Type) := Io Reply α

def askFlag : Procedure Bool := Io.ask fun
  | .flag success => some success
  | _ => none

def askSize : Procedure (Option Nat) := Io.ask fun
  | .fileSize size => some size
  | _ => none

def askDigest : Procedure (Option Bytes) := Io.ask fun
  | .digest sha256Hex => some sha256Hex
  | _ => none

def askOutcome : Procedure SendOutcome := Io.ask fun
  | .sent outcome => some outcome
  | _ => none

def askToken : Procedure (Option TransferToken) := Io.ask fun
  | .token token => some token
  | _ => none

def askTime : Procedure Int := Io.ask fun
  | .time unixMs => some unixMs
  | _ => none

def askUploads : Procedure (Option (List PendingUpload)) := Io.ask fun
  | .uploads saved => some saved
  | _ => none

namespace World

variable (world : World)

def modify (f : ClientState → ClientState) : World := { world with state := f world.state }

def transmit : Procedure (Bool × World) :=
  if world.connected then do
    match ← askOutcome with
    | .sent => pure (true, world)
    | .failed => pure (false, world)
    | .lost => pure (false, { world with connected := false })
  else
    pure (false, world)

def sendAll (data : Bytes) : Procedure (Bool × World) :=
  transmit { world with sent := world.sent ++ text data }

/-- `send_file`, whichever way it takes. -/
def sendFile (path : Bytes) (offset byteCount : Nat) : Procedure (Bool × World) :=
  let data := ((world.files path).drop offset).take byteCount
  transmit { world with sent := world.sent ++ rawData data }

end World

/-! ### Uploads -/

def uploadSourceMatches (upload : PendingUpload) : Procedure (Option PendingUpload) := do
  if ← askFlag then
    if (← askSize) = some upload.fileSize then
      if upload.sourceShaVerified then
        pure (some upload)
      else if (← askDigest) = some upload.sha256Hex then
        pure (some { upload with sourceShaVerified := true })
      else
        pure none
    else
      pure none
  else
    pure none

def PendingUpload.beginLine (upload : PendingUpload) : Bytes :=
  utf8 (if upload.scope = .privateFile then "FILE_BEGIN_PRIVATE " else "FILE_BEGIN_GROUP ") ++
    upload.token.text ++ utf8 " " ++ upload.target ++ utf8 " " ++ encodeTextToken upload.fileName ++
    utf8 " " ++ decimal upload.fileSize ++ utf8 " " ++ upload.sha256Hex ++ utf8 "\n"

def startQueuedUploads : List Bytes → World → Procedure (Bool × World)
  | [], world => pure (true, world)
  | token :: rest, world => do
    let world := world.modify fun state => { state with uploadQueue := rest }
    match world.state.findUpload token with
    | none => startQueuedUploads rest world
    | some upload =>
      match ← uploadSourceMatches upload with
      | none => startQueuedUploads rest (world.modify fun state => state.eraseUpload token)
      | some upload =>
        let world := world.modify fun state =>
          { state.insertUpload upload with activeUploadToken := token }
        match ← world.sendAll upload.beginLine with
        | (true, world) => pure (true, world)
        | (false, world) =>
          pure (false, world.modify fun state =>
            { state with activeUploadToken := [], uploadQueue := token :: state.uploadQueue })

def startNextQueuedUpload (world : World) : Procedure (Bool × World) :=
  if world.state.activeUploadToken ≠ [] then
    pure (true, world)
  else
    startQueuedUploads world.state.uploadQueue world

def ClientState.enqueueUpload (state : ClientState) (upload : PendingUpload) : ClientState :=
  { state.insertUpload upload with uploadQueue := state.uploadQueue ++ [upload.token.text] }

def loadAndResumePendingUploads (world : World) : Procedure (Bool × World) := do
  match ← askUploads with
  | none => pure (true, world)
  | some saved =>
    startNextQueuedUpload (world.modify fun state =>
      saved.foldl ClientState.enqueueUpload
        { state with pendingUploads := [], uploadQueue := [], activeUploadToken := [] })

def prepareUpload (world : World) (scope : TransferScope) (target rawPath : Bytes) :
    Procedure (Bool × World) := do
  let sourcePath := trim rawPath
  if world.state.activeUsername = [] ∨ sourcePath = [] then
    pure (true, world)
  else if ← askFlag then
    match ← askSize with
    | none => pure (true, world)
    | some fileSize =>
      if kMaxFileSize < fileSize then
        pure (true, world)
      else
        match ← askDigest with
        | none => pure (true, world)
        | some sha256Hex =>
          match ← askToken with
          | none => pure (true, world)
          | some token =>
            let createdAtUnixMs ← askTime
            if ← askFlag then
              startNextQueuedUpload (world.modify fun state => state.enqueueUpload
                { token
                  scope
                  target
                  sourcePath
                  fileName := sanitizeFilename (pathFilename sourcePath)
                  fileSize
                  sha256Hex
                  sourceShaVerified := true
                  createdAtUnixMs })
            else
              pure (true, world)
  else
    pure (true, world)

def uploadRound (upload : PendingUpload) :
    Nat × World → Procedure ((Nat × World) ⊕ (Bool × World))
  | (offset, world) => do
    if offset < upload.fileSize then
      let frameSize := uploadFrameSize upload.fileSize offset
      match ← world.sendAll (fileChunkLine upload.token.text offset frameSize) with
      | (false, world) => pure (.inr (false, world))
      | (true, world) =>
        match ← world.sendFile upload.sourcePath offset frameSize with
        | (false, world) => pure (.inr (false, world))
        | (true, world) => pure (.inl (offset + frameSize, world))
    else do
      let result ← world.sendAll (fileEndLine upload.token.text)
      pure (.inr result)

def sendUploadData (world : World) (upload : PendingUpload) (startOffset : Nat) :
    Procedure (Bool × World) :=
  if upload.fileSize < startOffset then
    pure (false, world)
  else
    Io.loop (uploadRound upload) (startOffset, world)

/-! ### The lines of the server about uploads -/

def fileReady (world : World) (words : List Bytes) : Procedure World :=
  match words with
  | [token, offset] =>
    match parseUint64Value offset, world.state.findUpload token with
    | some startOffset, some upload => do
      let world := world.modify fun state => { state with activeUploadToken := token }
      match ← sendUploadData world upload startOffset with
      | (true, world) => pure world
      | (false, world) => pure (world.modify fun state => { state with activeUploadToken := [] })
    | _, _ => pure world
  | _ => pure world

def ClientState.deactivate (state : ClientState) (token : Bytes) : ClientState :=
  if state.activeUploadToken = token then { state with activeUploadToken := [] } else state

def filePaused (world : World) (words : List Bytes) : World :=
  match words with
  | token :: _ :: _ => world.modify fun state => state.deactivate token
  | _ => world

def dropUpload (world : World) (token : Bytes) : Procedure World := do
  let (_, world) ← startNextQueuedUpload
    (world.modify fun state => (state.eraseUpload token).deactivate token)
  pure world

def fileReject (world : World) (words : List Bytes) : Procedure World :=
  match words with
  | token :: _ :: _ => dropUpload world token
  | _ => pure world

def fileUploadOk (world : World) (words : List Bytes) : Procedure World :=
  match words with
  | [token, transferId] =>
    if (parseUint64Value transferId).isSome ∧ (world.state.findUpload token).isSome then
      dropUpload world token
    else
      pure world
  | _ => pure world

/-- `handle_file_protocol_line` for the lines about uploads. -/
def handleUploadLine (world : World) (line : Bytes) : Procedure World :=
  let command := parseCommand line
  let words := splitWords command.rawArguments
  if command.name = utf8 "FILE_READY" then
    fileReady world words
  else if command.name = utf8 "FILE_PAUSED" then
    pure (filePaused world words)
  else if command.name = utf8 "FILE_REJECT" then
    fileReject world words
  else if command.name = utf8 "FILE_UPLOAD_OK" then
    fileUploadOk world words
  else
    pure world

/-! ### Downloads -/

/-- `operator/` of `std::filesystem::path` for a file name without slashes. -/
def joinPath (directory name : Bytes) : Bytes :=
  if directory = [] ∨ directory.getLast? = some 47 then directory ++ name
  else directory ++ utf8 "/" ++ name

def parseScope (word : Bytes) : Option TransferScope :=
  if word = utf8 "PRIVATE" then some .privateFile
  else if word = utf8 "GROUP" then some .groupFile
  else none

/-- The download that `begin_incoming_download` makes of an offer, before it looks for a file. -/
def offeredDownload (state : ClientState) (words : List Bytes) : Option IncomingDownload :=
  match words with
  | [transferId, scope, sender, group, file, size, sha256Hex] => do
    guard (state.activeUsername ≠ [])
    let transferId ← parseUint64Value transferId
    let scope ← parseScope scope
    let expectedSize ← parseUint64Value size
    guard (expectedSize ≤ kMaxFileSize ∧ isValidSha256Hex sha256Hex = true)
    let groupName ← (decodeTextToken group).toOption
    let fileName ← (decodeTextToken file).toOption
    let accountDirectory := joinPath state.downloadRoot (sanitizeFilename state.activeUsername)
    let safeName := sanitizeFilename fileName
    let finalPath := joinPath accountDirectory (decimal transferId ++ utf8 "_" ++ safeName)
    pure
      { transferId
        scope
        senderUsername := sender
        groupName
        fileName := safeName
        expectedSize
        receivedSize := 0
        sha256Hex
        tempPath := finalPath ++ utf8 ".part"
        finalPath }
  | _ => none

end ChatRoom.Client
