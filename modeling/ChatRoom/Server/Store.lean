import ChatRoom.Database
import ChatRoom.FileUtils

/-!
# The upload store of `FileTransferService`

Uploads are collected in `tmp/<token>.part` next to `tmp/<token>.resume.pb` and moved to
`files/<token>_<name>` when they are complete. Every operation holds `upload_mutex_`, so each is one
step. The system calls of an operation can fail; which ones do is part of its outcome.
-/

namespace ChatRoom

structure FileUploadResumeState where
  metadata : FileTransferMetadata
  recipientUsernames : List Bytes
  deriving DecidableEq, Repr

/-- The files below the storage root: partial uploads and resume states by token, finished files by
relative path. -/
structure Store where
  parts : Bytes → Option Bytes := fun _ => none
  resumes : Bytes → Option FileUploadResumeState := fun _ => none
  files : Bytes → Option Bytes := fun _ => none

inductive FileOutcome where
  | done
  | failed (error : Bytes)
  | cleared (error : Bytes)
  | shortWrite (written : Nat) (error : Bytes)
  /-- The operation succeeds but does not get rid of the partial file or of its resume state. -/
  | leftovers (part resume : Bool)
  /-- Neither `rename` nor `copy_file` succeeds; the copy may have put `left` at the target. -/
  | copyFailed (left : Option Bytes) (error : Bytes)
  deriving DecidableEq, Repr

def sameMetadataIdentity (left right : FileTransferMetadata) : Bool :=
  left.transferToken = right.transferToken && left.scope = right.scope &&
    left.senderUsername = right.senderUsername &&
    left.recipientUsername = right.recipientUsername && left.groupId = right.groupId &&
    left.groupName = right.groupName && left.fileName = right.fileName &&
    left.fileSize = right.fileSize && left.sha256Hex = right.sha256Hex

/-- `generic_string` of `files / (token + "_" + safe_name)`. -/
def storedRelativePath (token originalFileName : Bytes) : Bytes :=
  utf8 "files/" ++ token ++ utf8 "_" ++ sanitizeFilename originalFileName

namespace Store

variable (store : Store)

def dropPart (token : Bytes) : Store :=
  { store with parts := Function.update store.parts token none }

def dropResume (token : Bytes) : Store :=
  { store with resumes := Function.update store.resumes token none }

def putFile (path : Bytes) (content : Option Bytes) : Store :=
  { store with files := Function.update store.files path content }

def beginOrResumeUpload (requested : FileUploadResumeState) :
    FileOutcome → Option (Except Bytes (FileUploadResumeState × Nat) × Store)
  | .done =>
    let token := requested.metadata.transferToken
    if !isValidTransferToken token then
      some (.error (utf8 "文件传输令牌无效"), store)
    else
      match store.parts token, store.resumes token with
      | some part, some existing =>
        if !sameMetadataIdentity requested.metadata existing.metadata then
          some (.error (utf8 "文件传输令牌已经属于另一份上传元数据"), store)
        else if requested.metadata.fileSize < part.length then
          some (.error (utf8 "服务端临时文件大于声明的文件大小"), store)
        else
          some (.ok (existing, part.length), store)
      | _, _ =>
        some (.ok (requested, 0), { store with
          parts := Function.update store.parts token (some [])
          resumes := Function.update store.resumes token (some requested) })
  | .failed error => some (.error error, store)
  | .cleared error =>
    let token := requested.metadata.transferToken
    if (store.parts token).isSome && (store.resumes token).isSome then
      none
    else
      some (.error error, (store.dropPart token).dropResume token)
  | _ => none

def appendUploadBytes (token : Bytes) (expectedOffset : Nat) (bytes : Bytes) :
    FileOutcome → Option (Except Bytes Nat × Store)
  | .done =>
    match store.parts token with
    | none => none
    | some part =>
      if part.length ≠ expectedOffset then
        some (.error (utf8 "服务端上传临时文件偏移量发生变化"), store)
      else
        some (.ok (expectedOffset + bytes.length), { store with
          parts := Function.update store.parts token (some (part ++ bytes)) })
  | .failed error => some (.error error, store)
  | .shortWrite written error =>
    match store.parts token with
    | none => none
    | some part =>
      if part.length ≠ expectedOffset then
        none
      else
        some (.error error, { store with
          parts := Function.update store.parts token (some (part ++ bytes.take written)) })
  | _ => none

def finishedError (sha256Hex : Bytes → Bytes) (content : Bytes) (expectedSize : Nat)
    (expectedSha256Hex : Bytes) : Option Bytes :=
  if content.length ≠ expectedSize then
    some (utf8 "上传文件大小与 FILE_BEGIN 声明不一致")
  else if sha256Hex content ≠ expectedSha256Hex.map toLower then
    some (utf8 "上传文件 SHA-256 校验不一致")
  else
    none

def dropUpload (token : Bytes) (partLeft resumeLeft : Bool) : Store :=
  let store := if partLeft then store else store.dropPart token
  if resumeLeft then store else store.dropResume token

def finalizeUpload (sha256Hex : Bytes → Bytes) (token originalFileName : Bytes)
    (expectedSize : Nat) (expectedSha256Hex : Bytes) (outcome : FileOutcome) :
    Option (Except Bytes Bytes × Store) :=
  let path := storedRelativePath token originalFileName
  match outcome, store.parts token with
  | .failed error, _ => some (.error error, store)
  | _, none => none
  | outcome, some content =>
    match finishedError sha256Hex content expectedSize expectedSha256Hex, outcome with
    | some error, _ => some (.error error, store)
    | none, .done =>
      some (.ok path, (store.putFile path (some content)).dropUpload token false false)
    | none, .leftovers part resume =>
      some (.ok path, (store.putFile path (some content)).dropUpload token part resume)
    | none, .copyFailed none error => some (.error error, store)
    | none, .copyFailed (some left) error => some (.error error, store.putFile path (some left))
    | none, _ => none

def cancelUpload (token : Bytes) : FileOutcome → Option (Unit × Store)
  | .done =>
    some ((), if isValidTransferToken token then store.dropUpload token false false else store)
  | .leftovers part resume =>
    some ((), if isValidTransferToken token then store.dropUpload token part resume else store)
  | _ => none

/-- `std::filesystem::remove` of a finished file, whose error is ignored. -/
def removeStored (path : Bytes) : FileOutcome → Option (Unit × Store)
  | .done => some ((), store.putFile path none)
  | .failed _ => some ((), store)
  | _ => none

end Store

end ChatRoom
