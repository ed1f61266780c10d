import ChatRoom.Server.Common

/-!
# File uploads and deliveries

An upload runs from `FILE_BEGIN_*` over binary frames to `FILE_END`, which checks the permission
again, moves the file to its final place and records the transfer. Recipients are offered the file
and ask for it with `FILE_RESUME_REQUEST`.
-/

namespace ChatRoom

open Handler

def kMaxFileSize : Nat := 100 * 1024 * 1024 * 1024

def kMaxFileFrameBytes : Nat := 16 * 1024 * 1024

def kOfflineFileDeliveryBatch : Nat := 10

def pauseFileUpload (conn : ConnId) (token reason : Bytes) : Handler Unit := do
  assign .detachUpload
  send conn (utf8 "FILE_PAUSED " ++ token ++ utf8 " " ++ percentEncode reason ++ utf8 "\n")

def fileReject (token reason : Bytes) : Bytes :=
  utf8 "FILE_REJECT " ++ token ++ utf8 " " ++ percentEncode reason ++ utf8 "\n"

def rejectFileUpload (conn : ConnId) (token reason : Bytes) : Handler Unit := do
  assign .detachUpload
  send conn (fileReject token reason)

/-! ### Beginning an upload -/

structure FileBeginChecks where
  countError : String
  isValidTarget : Bytes → Bool
  targetError : String
  sizeError : String

structure FileBegin where
  target : Bytes
  filename : Bytes
  fileSize : Nat
  sha256Hex : Bytes

def parseFileBegin (checks : FileBeginChecks) (words : List Bytes) : Except Bytes FileBegin :=
  match words with
  | [token, target, encodedName, size, sha256Hex] =>
    if !isValidTransferToken token then
      .error (utf8 "the token is fault")
    else if !checks.isValidTarget target then
      .error (utf8 checks.targetError)
    else
      match parseUint64Value size with
      | none => .error (utf8 checks.sizeError)
      | some fileSize =>
        if kMaxFileSize < fileSize then
          .error (utf8 "your file size is too large")
        else if !isValidSha256Hex sha256Hex then
          .error (utf8 "your haxi format is fault")
        else
          match percentDecode encodedName with
          | .error error => .error error
          | .ok filename =>
            if filename.isEmpty then
              .error (utf8 "your file name is empty")
            else if 255 < filename.length then
              .error (utf8 "the size of filename is too large")
            else
              .ok ⟨target, filename, fileSize, sha256Hex⟩
  | _ => .error (utf8 checks.countError)

def firstWord (words : List Bytes) : Bytes := words.headD (utf8 "unknown")

def beginUpload (conn : ConnId) (token : Bytes) (requested : FileUploadResumeState) :
    Handler Unit := do
  match ← act (.beginOrResumeUpload requested) with
  | .error error => rejectFileUpload conn token error
  | .ok (persisted, acceptedOffset) =>
    assign (.upload ⟨token, acceptedOffset, persisted⟩)
    send conn (utf8 "FILE_READY " ++ token ++ utf8 " " ++ decimal acceptedOffset ++ utf8 "\n")

def privateFileChecks : FileBeginChecks where
  countError := "your parameter is not five"
  isValidTarget := isValidUsername
  targetError := "the username is fault"
  sizeError := "your file size is not available"

def handleFileBeginPrivate (conn : ConnId) (session : ClientSession) (arguments : Bytes) :
    Handler Unit :=
  requireLogin conn session <|
    let words := splitWords arguments
    let token := firstWord words
    match parseFileBegin privateFileChecks words with
    | .error error => rejectFileUpload conn token error
    | .ok ⟨target, filename, fileSize, sha256Hex⟩ =>
      if session.upload.isSome then
        rejectFileUpload conn token (utf8 "another upload is already active")
      else if target = session.username then
        rejectFileUpload conn token (utf8 "cannot send a private file to yourself")
      else do
        let decision ← withMutex .friend do
          let decision ← evaluate session.username target
          let reject := fun reason : String => stop (rejectFileUpload conn token (utf8 reason))
          match decision with
          | .databaseError _ => reject "数据库操作出错：checking direct-file policy"
          | .targetMissing => reject "target account does not exist"
          | .notFriends => reject "private files are allowed only between friends"
          | .blockedByRecipient => reject "recipient 有 blocked you"
          | .blockedBySender => reject "you have blocked this user, please unblock first"
          | .allowed => pure (some ())
        match decision with
        | none => pure ()
        | some () =>
          let now ← nowUnixMs
          beginUpload conn token ⟨⟨token, .privateFile, session.username, target, 0, [],
            sanitizeFilename filename, fileSize, sha256Hex, now, []⟩, [target]⟩

def groupFileChecks : FileBeginChecks where
  countError := "the count of parameter is not five"
  isValidTarget := isValidGroupName
  targetError := "the groupname is fault"
  sizeError := "your file size is not +zhengshu"

def handleFileBeginGroup (conn : ConnId) (session : ClientSession) (arguments : Bytes) :
    Handler Unit :=
  requireLogin conn session <|
    let words := splitWords arguments
    let token := firstWord words
    match parseFileBegin groupFileChecks words with
    | .error error => rejectFileUpload conn token error
    | .ok ⟨groupName, filename, fileSize, sha256Hex⟩ =>
      let reject := fun reason : String => rejectFileUpload conn token (utf8 reason)
      if session.upload.isSome then
        reject "another upload is already active"
      else do
        match ← query (.getGroup groupName) with
        | .error _ => reject "数据库操作出错：checking group membership"
        | .ok group =>
          match ← query (.getGroupRole groupName session.username) with
          | .error _ => reject "数据库操作出错：checking group membership"
          | .ok role =>
            match group, role with
            | none, _ => reject "group does not exist"
            | some _, none => reject "only group members can send group files"
            | some group, some _ =>
              match ← query (.listGroupMemberUsernames groupName) with
              | .error _ => reject "数据库操作出错：loading group members"
              | .ok members =>
                let recipients := members.filter fun member => member ≠ session.username
                if recipients.isEmpty then
                  reject "group 有 no other members to receive the file"
                else
                  let now ← nowUnixMs
                  beginUpload conn token ⟨⟨token, .groupFile, session.username, [], group.id,
                    groupName, sanitizeFilename filename, fileSize, sha256Hex, now, []⟩, recipients⟩

/-! ### Frames -/

def parseFileChunk (session : ClientSession) (words : List Bytes) :
    Except Bytes PendingBinaryUploadFrame :=
  match words with
  | [token, offset, byteCount] =>
    match session.upload with
    | none => .error (utf8 "the  server donot have the client session")
    | some upload =>
      if upload.token ≠ token then
        .error (utf8 "the token of client is false")
      else if session.binaryUpload.isSome then
        .error (utf8 "the previous chunk is not receive completely")
      else
        match parseUint64Value offset, parseUint64Value byteCount with
        | some offset, some byteCount =>
          if byteCount = 0 || kMaxFileFrameBytes < byteCount || offset ≠ upload.receivedSize ||
              upload.expectedSize < upload.receivedSize + byteCount then
            .error (utf8 "invalid binary file frame offset/length")
          else
            .ok ⟨token, offset, offset, byteCount, []⟩
        | _, _ => .error (utf8 "invalid binary file frame offset/length")
  | _ => .error (utf8 "your count of parameter is false")

def handleFileChunk (conn : ConnId) (session : ClientSession) (arguments : Bytes) :
    Handler Unit :=
  requireLogin conn session <|
    let words := splitWords arguments
    match parseFileChunk session words with
    | .error error => pauseFileUpload conn (firstWord words) error
    | .ok frame => assign (.binaryUpload frame)

/-- The binary branch of `on_message`: bytes of the announced frame have arrived. -/
def onFrameBytes (conn : ConnId) (session : ClientSession) (bytes : Bytes) : Handler Unit :=
  match session.binaryUpload with
  | none => pure ()
  | some frame =>
    match session.upload.filter fun upload => upload.token = frame.token with
    | none => do
      assign .dropBinaryUpload
      send conn (utf8 "[error] 二进制上传状态无效：上传任务已失效或传输令牌不匹配。\n")
      act (.setPhase .disconnecting)
    | some upload =>
      let frame' := frame.take bytes
      if frame'.remainingBytes = 0 then do
        match ← act (.appendUploadBytes upload.token frame'.startOffset frame'.bytes) with
        | .error error => pauseFileUpload conn upload.token error
        | .ok acceptedOffset => assign (.frameStored acceptedOffset)
      else
        assign (.binaryUpload frame')

/-! ### Ending an upload -/

def cancelAndReject (conn : ConnId) (token reason : Bytes) : Handler Unit := do
  act (.cancelUpload token)
  send conn (fileReject token reason)

def privateRejectReason : DirectMessageDecision → String
  | .blockedByRecipient => "接收方已屏蔽你"
  | .blockedBySender => "你已屏蔽接收方"
  | .notFriends => "接收方已不再是你的好友"
  | .targetMissing => "接收方账户已不存在"
  | _ => "上传过程中权限发生变化"

/-- The permission check of `FILE_END`; its result are the recipients of the file. -/
def checkUpload (conn : ConnId) (session : ClientSession) (upload : IncomingFileUpload) :
    Handler (Option (List Bytes)) :=
  match upload.scope with
  | .privateFile => withMutex .friend do
    match ← evaluate session.username upload.target with
    | .allowed => pure (some upload.recipients)
    | decision => stop (cancelAndReject conn upload.token (utf8 (privateRejectReason decision)))
  | .groupFile => withMutex .group do
    match ← query (.getGroupRole upload.target session.username) with
    | .error _ => stop (cancelAndReject conn upload.token (utf8 "重新检查群成员权限时数据库出错"))
    | .ok senderRole =>
      match ← query (.listGroupMemberUsernames upload.target) with
      | .error _ => stop (cancelAndReject conn upload.token (utf8 "重新检查群成员权限时数据库出错"))
      | .ok members =>
        let recipients := members.filter fun member => member ≠ session.username
        if senderRole = none then
          stop (cancelAndReject conn upload.token (utf8 "你已不再是该群成员"))
        else if recipients.isEmpty then
          stop (cancelAndReject conn upload.token (utf8 "当前群内没有其他可接收该文件的成员"))
        else
          pure (some recipients)

def unreadKind : FileTransferScope → String
  | .privateFile => "private_file"
  | .groupFile => "group_file"

/-- What follows the recording of a transfer. A delivery to another connection is queued in that
connection's loop; a call in the same loop is a queued one that runs at once. -/
def announceTransfer (conn : ConnId) (upload : IncomingFileUpload) (stored : StoredFileTransfer)
    (recipients : List Bytes) : Handler Unit := do
  forEach (fun recipient => adjustRedisUnreadBestEffort recipient (unreadKind upload.scope) 1)
    recipients
  send conn (utf8 "FILE_UPLOAD_OK " ++ upload.token ++ utf8 " " ++ decimal stored.id ++ utf8 "\n")
  send conn (utf8 "[file #F" ++ decimal stored.id ++ utf8 "] 已保存 " ++ upload.fileName ++
    utf8 "（" ++ decimal upload.expectedSize ++
    utf8 " 字节）。在线接收方会立即收到，离线接收方登录后接收。\n")
  forEach (fun recipient => do
    match ← findOnlineUser recipient with
    | some target => act (.queueInLoop target (.deliverFileToUser stored recipient))
    | none => pure ()) recipients

/-- `handle_file_end` from the move of the file on. -/
def recordUpload (conn : ConnId) (upload : IncomingFileUpload) (recipients : List Bytes) :
    Handler Unit := do
  match ← act (.finalizeUpload upload) with
  | .error error => cancelAndReject conn upload.token error
  | .ok storedRelativePath =>
    let metadata := { upload.resumeState.metadata with storedRelativePath }
    match ← update (.addFileTransfer metadata recipients) with
    | .error error =>
      act (.removeStored storedRelativePath)
      databaseError conn error
      send conn (fileReject upload.token (utf8 "数据库未能保存文件传输记录"))
    | .ok transferId => announceTransfer conn upload ⟨transferId, metadata⟩ recipients

def handleFileEnd (conn : ConnId) (session : ClientSession) (arguments : Bytes) : Handler Unit :=
  requireLogin conn session <|
    let words := splitWords arguments
    let token := firstWord words
    match session.upload.filter fun upload => words = [upload.token] with
    | none =>
      pauseFileUpload conn token (utf8 "no matching active upload; resend FILE_BEGIN to resume")
    | some upload =>
      if upload.receivedSize ≠ upload.expectedSize then
        pauseFileUpload conn token
          (utf8 "uploaded byte count is incomplete; resume，来源：server offset")
      else do
        assign .takeUpload
        match ← checkUpload conn session upload with
        | none => pure ()
        | some recipients => recordUpload conn upload recipients

def handleFileAbort (conn : ConnId) (session : ClientSession) (arguments : Bytes) :
    Handler Unit :=
  match splitWords arguments with
  | [token] =>
    if !isValidTransferToken token then
      pure ()
    else if !session.upload.any fun upload => upload.token = token then
      send conn (utf8 "[error] 没有匹配的活动上传任务可取消。\n")
    else do
      assign .takeUpload
      cancelAndReject conn token (utf8 "client cancelled upload")
  | _ => pure ()

/-! ### Deliveries -/

def scopeText : FileTransferScope → Bytes
  | .privateFile => utf8 "PRIVATE"
  | .groupFile => utf8 "GROUP"

def makeOfferLine (transferId : Nat) (metadata : FileTransferMetadata) : Bytes :=
  let encodedGroup :=
    if metadata.groupName.isEmpty then utf8 "-" else percentEncode metadata.groupName
  utf8 "FILE_OFFER " ++ decimal transferId ++ utf8 " " ++ scopeText metadata.scope ++ utf8 " " ++
    metadata.senderUsername ++ utf8 " " ++ encodedGroup ++ utf8 " " ++
    percentEncode metadata.fileName ++ utf8 " " ++ decimal metadata.fileSize ++ utf8 " " ++
    metadata.sha256Hex ++ utf8 "\n"

def mayDeliver (transfer : StoredFileTransfer) (recipient : Bytes) : Handler Bool :=
  match transfer.metadata.scope with
  | .privateFile => do
    match ← query (.isFriendBlocked recipient transfer.metadata.senderUsername) with
    | .error _ => pure false
    | .ok blocked => pure !blocked
  | .groupFile => do
    match ← query (.getGroupRole transfer.metadata.groupName recipient) with
    | .error _ => pure false
    | .ok role => pure role.isSome

def deliverFileToUser (conn : ConnId) (session : ClientSession) (transfer : StoredFileTransfer)
    (recipient : Bytes) : Handler Unit :=
  if !session.loggedIn || session.username ≠ recipient then
    pure ()
  else do
    if ← mayDeliver transfer recipient then
      let current ← currentSession
      if current.fileDeliveriesInProgress.contains transfer.id then
        pure ()
      else
        assign (.offer transfer)
        send conn (makeOfferLine transfer.id transfer.metadata)
    else
      pure ()

def deliverPendingFiles (conn : ConnId) (session : ClientSession) : Handler Unit := do
  match ← query (.pendingFileTransfers session.username kOfflineFileDeliveryBatch) with
  | .error _ => pure ()
  | .ok transfers =>
    if transfers.isEmpty then
      pure ()
    else
      send conn (utf8 "[system] 正在提供 " ++ decimal transfers.length ++
        utf8 " pending file(s); local partial files will resume，来源：their saved offsets.\n")
    forEach (fun transfer => deliverFileToUser conn session transfer session.username) transfers
    if transfers.length = kOfflineFileDeliveryBatch then
      send conn
        (utf8 "[system] 可能还有待接收文件；use command 37 again after current downloads finish.\n")
    else
      pure ()

def handleFileResumeRequest (conn : ConnId) (session : ClientSession) (arguments : Bytes) :
    Handler Unit :=
  requireLogin conn session <|
    match (splitWords arguments).map parseUint64Value with
    | [some transferId, some startOffset] => do
      let current ← currentSession
      match current.offeredFiles.find? fun offer => offer.id = transferId with
      | none =>
        send conn (utf8 "[error] 文件 #F" ++ decimal transferId ++
          utf8 " 当前不在可接收列表中，请使用数字命令 37 重新拉取。\n")
      | some transfer =>
        let member : Except Bytes (Option GroupRole) ←
          if transfer.metadata.scope = .groupFile then
            query (.getGroupRole transfer.metadata.groupName session.username)
          else
            pure (.ok (some .member))
        match member with
        | .error _ =>
          send conn (utf8 "[error] 重新检查群文件成员权限失败，文件 #F" ++ decimal transferId ++
            utf8 ".\n")
        | .ok none =>
          assign (.eraseOffer transferId)
          send conn (utf8 "FILE_ACCESS_REVOKED " ++ decimal transferId ++ utf8 " " ++
            percentEncode (utf8 "你已不再是该群成员") ++ utf8 "\n")
        | .ok (some _) =>
          if transfer.metadata.fileSize < startOffset then
            send conn
              (utf8 "[error] 断点位置超过文件大小；客户端应删除本地临时文件并从 0 重新接收。\n")
          else
            let current ← currentSession
            if current.fileDeliveriesInProgress.contains transferId then
              pure ()
            else
              act (.deliverAsync transfer startOffset)
    | _ => send conn (utf8 "[error] 文件断点续传请求无效。\n")

def handleFileReceived (conn : ConnId) (session : ClientSession) (arguments : Bytes) :
    Handler Unit :=
  let invalid := send conn (utf8 "[error] 文件接收确认格式无效。\n")
  requireLogin conn session <|
    match splitWords arguments with
    | [idText, sha256Hex] =>
      match parseUint64Value idText with
      | none => invalid
      | some transferId =>
        if !isValidSha256Hex sha256Hex then
          invalid
        else do
          match ← query (.fileTransferForRecipient transferId session.username) with
          | .error error => databaseError conn error
          | .ok none =>
            assign (.eraseDelivery transferId)
            assign (.eraseOffer transferId)
          | .ok (some transfer) =>
            if sha256Hex.map toLower ≠ transfer.metadata.sha256Hex then
              assign (.eraseDelivery transferId)
              send conn
                (utf8 "[error] 文件 SHA-256 接收确认不匹配；the file remains pending for retry.\n")
            else
              let now ← nowUnixMs
              match ← update (.markFileTransferDelivered transferId session.username now) with
              | .error error => databaseError conn error
              | .ok () =>
                assign (.eraseDelivery transferId)
                assign (.eraseOffer transferId)
                adjustRedisUnreadBestEffort session.username
                  (unreadKind transfer.metadata.scope) (-1)
                send conn (utf8 "FILE_ACK_OK " ++ decimal transferId ++ utf8 "\n")
    | _ => invalid

/-- This handler does not ask for a login. -/
def handleFileReceiveFailed (conn : ConnId) (arguments : Bytes) : Handler Unit :=
  match (splitWords arguments).map parseUint64Value with
  | [some transferId] => do
    assign (.eraseDelivery transferId)
    send conn (utf8 "[system] 文件 #F" ++ decimal transferId ++
      utf8 " remains pending; use command 37 to retry/resume.\n")
  | _ => pure ()

def deliveryFailed (transferId : Nat) (error : Bytes) : Handler Unit := do
  assign (.eraseDelivery transferId)
  if error = utf8 "delivery permission revoked" then assign (.eraseOffer transferId) else pure ()

end ChatRoom
