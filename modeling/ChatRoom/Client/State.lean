import ChatRoom.Client.Messages
import ChatRoom.Client.Upload

/-!
# The state of the client

`ClientState` and its tables of transfers. The maps of the source are lists here; the caches of
messages that only serve the display are left out.
-/

namespace ChatRoom.Client

def kMaxFileSize : Nat := 100 * 1024 * 1024 * 1024

/-- What `make_transfer_token` returns. -/
structure TransferToken where
  text : Bytes
  valid : isValidTransferToken text = true
  deriving DecidableEq

inductive TransferScope where
  | privateFile
  | groupFile
  deriving DecidableEq, Repr

structure PendingUpload where
  token : TransferToken
  scope : TransferScope
  target : Bytes
  sourcePath : Bytes
  fileName : Bytes
  fileSize : Nat
  sha256Hex : Bytes
  sourceShaVerified : Bool
  createdAtUnixMs : Int
  deriving DecidableEq

structure IncomingDownload where
  transferId : Nat
  scope : TransferScope
  senderUsername : Bytes
  groupName : Bytes
  fileName : Bytes
  expectedSize : Nat
  receivedSize : Nat
  sha256Hex : Bytes
  tempPath : Bytes
  finalPath : Bytes
  deriving DecidableEq

structure PendingBinaryDownloadFrame where
  transferId : Nat := 0
  remainingBytes : Nat := 0
  deriving DecidableEq

inductive ChatInputMode where
  | none
  | instant
  | multiLine
  deriving DecidableEq, Repr

inductive GroupRequestAction where
  | none
  | approve
  | reject
  deriving DecidableEq, Repr

structure PendingGroupJoinRequestItem where
  groupName : Bytes
  username : Bytes
  deriving DecidableEq

/-- File offers wait with the friend or group in whose chat they are to be accepted. -/
structure ClientState where
  activeUsername : Bytes := []
  pendingLoginUsername : Bytes := []
  chatScope : ClientChatScope := .none
  chatTarget : Bytes := []
  pendingChatScope : ClientChatScope := .none
  pendingChatTarget : Bytes := []
  chatEntryPending : Bool := false
  chatModeSelectionActive : Bool := false
  chatInputMode : ChatInputMode := .none
  chatMultilineFinished : Bool := false
  chatMessageLines : List Bytes := []
  groupRequestAction : GroupRequestAction := .none
  groupRequestLoading : Bool := false
  groupRequestSelectionActive : Bool := false
  groupRequestItems : List PendingGroupJoinRequestItem := []
  pendingPrivateFileOffers : List (Bytes × Bytes) := []
  pendingGroupFileOffers : List (Bytes × Bytes) := []
  downloadRoot : Bytes := []
  pendingUploads : List PendingUpload := []
  uploadQueue : List Bytes := []
  activeUploadToken : Bytes := []
  downloads : List IncomingDownload := []
  binaryDownload : PendingBinaryDownloadFrame := {}

namespace ClientState

variable (state : ClientState)

def findUpload (token : Bytes) : Option PendingUpload :=
  state.pendingUploads.find? fun upload => upload.token.text = token

def eraseUpload (token : Bytes) : ClientState :=
  { state with
    pendingUploads := state.pendingUploads.filter fun upload => upload.token.text ≠ token }

def insertUpload (upload : PendingUpload) : ClientState :=
  { state with
    pendingUploads :=
      (state.pendingUploads.filter fun other => other.token.text ≠ upload.token.text) ++ [upload] }

end ClientState

end ChatRoom.Client
