import ChatRoom.FileUtils
import ChatRoom.Server.Common

/-!
# Chat messages and chat sessions

`MSG` and `GROUP_MSG` skip the permission queries when the session's realtime cache carries the
current generation. Their handlers take a flag that says whether the cache is consulted: the server
runs them with `true`, and with `false` they are the handlers of a server without the fast path.
-/

namespace ChatRoom

open Handler

def kMaxChatMessage : Nat := 1000

def handlePublicMessage (conn : ConnId) (session : ClientSession) (message : Bytes) :
    Handler Unit :=
  requireLogin conn session do
    let cleaned := trim message
    if cleaned.isEmpty || kMaxChatMessage < cleaned.length then
      send conn (utf8 "[error] 公共消息长度必须为 1-1000 字节。of message text.\n")
    else
      let now ← nowUnixMs
      let payload : ChatMessagePayload := ⟨.publicMessage, session.username, [], cleaned, now⟩
      match ← update (.addMessage payload) with
      | .error error => databaseError conn error
      | .ok messageId => broadcastText (StoredMessage.publicLine ⟨messageId, payload⟩) none

/-! ### Private messages -/

/-- The part of `handle_private_message` under the friend mutex. The result is the identifier of the
message and the generation its permission was established in. -/
def storePrivateMessage (useCache : Bool) (conn : ConnId) (session : ClientSession)
    (payload : ChatMessagePayload) : Handler (Option (Nat × Nat)) := do
  let target := payload.recipientUsername
  let currentGeneration ← loadGeneration .direct
  let cachedAllowed := useCache && session.realtimePrivateTarget = target &&
    session.realtimePrivateGeneration = currentGeneration
  let decision ← if cachedAllowed then pure .allowed else evaluate session.username target
  match decision with
  | .databaseError error => stop (databaseError conn error)
  | .targetMissing => stop (send conn (utf8 "[error] 目标账户不存在。\n"))
  | .notFriends =>
    stop (send conn (utf8 "[error] 当前不允许向该用户发送私聊消息，只有好友之间可以私聊。\n"))
  | .blockedByRecipient => stop (send conn (utf8 "[error] 对方已屏蔽你。\n"))
  | .blockedBySender => stop (send conn (utf8 "[error] 你已屏蔽该用户，请先解除屏蔽。\n"))
  | .allowed =>
    if cachedAllowed then pure () else assign (.privateCache target currentGeneration)
    match ← update (.addPrivateMessageWithDelivery payload) with
    | .error error => stop (databaseError conn error)
    | .ok messageId => pure (some (messageId, currentGeneration))

/-- The permission is evaluated again if the policy has changed while the message was stored. -/
def liveDeliveryAllowed (session : ClientSession) (target : Bytes) (generationUsed : Nat) :
    Handler Bool := do
  let currentGeneration ← loadGeneration .direct
  if generationUsed = currentGeneration then
    pure true
  else
    withMutex .friend do
      match ← evaluate session.username target with
      | .allowed =>
        assign (.privateTarget target)
        let generation ← loadGeneration .direct
        assign (.privateGeneration generation)
        pure true
      | _ => pure false

/-- The end of `handle_private_message`: the recipient's line, if there is a connection for it, and
the sender's echo. -/
def deliverPrivateMessage (conn : ConnId) (stored : StoredMessage) (live : Bool) :
    Handler Unit := do
  let target := stored.payload.recipientUsername
  let targetConnection ← if live then findOnlineUser target else pure none
  match targetConnection with
  | some targetConnection =>
    sendMessage targetConnection stored.liveLine
      (some ⟨.privateMessage, stored.id, target, false⟩)
    sendMessage conn stored.echoLine none
  | none =>
    adjustRedisUnreadBestEffort target "private" 1
    sendMessage conn (stored.echoLine ++
      .plain (utf8 "[system] 消息已保存；对方满足投递条件后会自动收到。\n")) none

def handlePrivateMessage (useCache : Bool) (conn : ConnId) (session : ClientSession)
    (arguments : Bytes) : Handler Unit :=
  requireLogin conn session <|
    match splitFirstToken arguments with
    | none => send conn (utf8 "[error] 用法：MSG <用户名> <百分号编码消息>\n")
    | some (target, encodedMessage) =>
      if !isValidUsername target || encodedMessage.isEmpty then
        send conn (utf8 "[error] 用法：MSG <用户名> <百分号编码消息>\n")
      else
        match percentDecode encodedMessage with
        | .error _ => send conn (utf8 "[error] 私聊消息编码无效。\n")
        | .ok message =>
          if message.isEmpty || kMaxChatMessage < message.length then
            send conn (utf8 "[error] 私聊消息解码后长度必须为 1-1000 字节。\n")
          else if target = session.username then
            send conn (utf8 "[error] 不能给自己发送私聊消息。\n")
          else do
            let now ← nowUnixMs
            let payload : ChatMessagePayload :=
              ⟨.privateMessage, session.username, target, message, now⟩
            let stored ← withMutex .friend <| storePrivateMessage useCache conn session payload
            match stored with
            | none => pure ()
            | some (messageId, generationUsed) =>
              let live ← liveDeliveryAllowed session target generationUsed
              deliverPrivateMessage conn ⟨messageId, payload⟩ live

/-! ### Group messages -/

/-- The group's identifier and the recipients of a message, from the cache or from the tables. -/
def groupRecipients (useCache : Bool) (conn : ConnId) (session : ClientSession)
    (groupName : Bytes) : Handler (Option (Nat × List Bytes)) := do
  let currentGeneration ← loadGeneration .group
  if useCache && session.realtimeGroupName = groupName && session.realtimeGroupId ≠ 0 &&
      session.realtimeGroupGeneration = currentGeneration then
    pure (some (session.realtimeGroupId, session.realtimeGroupRecipients))
  else
    match ← query (.getGroup groupName) with
    | .error error => stop (databaseError conn error)
    | .ok group =>
      match ← query (.getGroupRole groupName session.username) with
      | .error error => stop (databaseError conn error)
      | .ok role =>
        match ← query (.listGroupMemberUsernames groupName) with
        | .error error => stop (databaseError conn error)
        | .ok members =>
          match group, role with
          | none, _ => stop (send conn (utf8 "[error] 群不存在。\n"))
          | some _, none => stop (send conn (utf8 "[error] 只有群成员可以发送群消息。\n"))
          | some group, some _ =>
            let recipients := members.filter fun member => member ≠ session.username
            assign (.groupCache groupName group.id recipients currentGeneration)
            pure (some (group.id, recipients))

/-- The end of `handle_group_message`: the sender's echo and the lines of the recipients that are
online. -/
def deliverGroupMessage (conn : ConnId) (stored : StoredGroupMessage) (recipients : List Bytes) :
    Handler Unit := do
  sendMessage conn stored.liveLine none
  forEach (fun recipient => do
    match ← findOnlineUser recipient with
    | some target =>
      sendMessage target stored.liveLine (some ⟨.groupMessage, stored.id, recipient, false⟩)
    | none => adjustRedisUnreadBestEffort recipient "group" 1) recipients

def handleGroupMessage (useCache : Bool) (conn : ConnId) (session : ClientSession)
    (arguments : Bytes) : Handler Unit :=
  requireLogin conn session <|
    match splitFirstToken arguments with
    | none => send conn (utf8 "[error] 用法：GROUP_MSG <群名称> <百分号编码消息>。\n")
    | some (groupName, encodedMessage) =>
      if !isValidGroupName groupName || encodedMessage.isEmpty then
        send conn (utf8 "[error] 用法：GROUP_MSG <群名称> <百分号编码消息>。\n")
      else
        match percentDecode encodedMessage with
        | .error _ => send conn (utf8 "[error] 群消息编码无效。\n")
        | .ok message =>
          if message.isEmpty || kMaxChatMessage < message.length then
            send conn (utf8 "[error] 群消息解码后长度必须为 1-1000 字节。\n")
          else do
            match ← groupRecipients useCache conn session groupName with
            | none => pure ()
            | some (groupId, recipients) =>
              let now ← nowUnixMs
              let payload : GroupMessagePayload :=
                ⟨groupId, groupName, session.username, message, now⟩
              match ← update (.addGroupMessage payload recipients) with
              | .error error => databaseError conn error
              | .ok messageId => deliverGroupMessage conn ⟨messageId, payload⟩ recipients

/-! ### Histories -/

def kDefaultHistoryCount : Nat := 20

def kMaxHistoryCount : Nat := 100

def historyCount : List Bytes → Option Nat
  | [] => some kDefaultHistoryCount
  | count :: _ => parseCount count 1 kMaxHistoryCount

def handleHistoryPublic (formatUnixMs : Int → Bytes) (conn : ConnId) (session : ClientSession)
    (arguments : Bytes) : Handler Unit :=
  requireLogin conn session <|
    let given := if (trim arguments).isEmpty then [] else [trim arguments]
    match historyCount given with
    | none =>
      send conn (utf8 "[error] 用法：HISTORY_PUBLIC [条数]，条数必须在 1-100 之间。\n")
    | some count => do
      match ← query (.recentPublicMessages count) with
      | .error error => databaseError conn error
      | .ok messages =>
        sendMessage conn (historyText (utf8 "[history public] ")
          (StoredMessage.historyPublicLine formatUnixMs) messages) none

def handleHistoryPrivate (formatUnixMs : Int → Bytes) (conn : ConnId) (session : ClientSession)
    (arguments : Bytes) : Handler Unit :=
  let usage := send conn (utf8 "[error] 用法：HISTORY_PRIVATE <用户名> [条数]\n")
  requireLogin conn session <|
    match splitWords arguments with
    | [] => usage
    | peer :: rest =>
      if 1 < rest.length || !isValidUsername peer then
        usage
      else
        match historyCount rest with
        | none => send conn (utf8 "[error] HISTORY_PRIVATE count must be 1-100.\n")
        | some count => do
          match ← query (.userExists peer) with
          | .error error => databaseError conn error
          | .ok false => send conn (utf8 "[error] 用户不存在。\n")
          | .ok true =>
            match ← query (.recentPrivateMessages session.username peer count) with
            | .error error => databaseError conn error
            | .ok messages =>
              sendMessage conn (historyText
                (utf8 "[history private with " ++ peer ++ utf8 "] ")
                (StoredMessage.historyPrivateLine formatUnixMs) messages) none

def handleHistoryGroup (formatUnixMs : Int → Bytes) (conn : ConnId) (session : ClientSession)
    (arguments : Bytes) : Handler Unit :=
  let usage := send conn (utf8 "[error] 用法：HISTORY_GROUP <群名称> [条数]\n")
  requireLogin conn session <|
    match splitWords arguments with
    | [] => usage
    | groupName :: rest =>
      if 1 < rest.length || !isValidGroupName groupName then
        usage
      else
        match historyCount rest with
        | none => send conn (utf8 "[error] 群历史条数必须在 1-100 之间。\n")
        | some count => do
          match ← query (.getGroupRole groupName session.username) with
          | .error error => databaseError conn error
          | .ok none => send conn (utf8 "[error] 只有群成员可以查看该内容。group history.\n")
          | .ok (some _) =>
            match ← query (.recentGroupMessages groupName count) with
            | .error error => databaseError conn error
            | .ok messages =>
              sendMessage conn (historyText (utf8 "[history group " ++ groupName ++ utf8 "] ")
                (StoredGroupMessage.historyLine formatUnixMs) messages) none

/-! ### Entering a chat session -/

def sendEnterError (conn : ConnId) (scope reason : String) : Handler Unit :=
  send conn (utf8 "[chat-enter-error] " ++ utf8 scope ++ utf8 " " ++ percentEncode (utf8 reason) ++
    utf8 "\n")

def handleEnterPrivate (conn : ConnId) (session : ClientSession) (arguments : Bytes) :
    Handler Unit :=
  if !session.loggedIn || session.username.isEmpty then
    sendEnterError conn "PRIVATE" "请先登录"
  else
    match splitWords arguments with
    | [target] =>
      if !isValidUsername target then
        sendEnterError conn "PRIVATE" "用户名无效"
      else if target = session.username then
        sendEnterError conn "PRIVATE" "不能与自己建立好友私聊会话"
      else do
        match ← evaluate session.username target with
        | .allowed =>
          assign (.privateTarget target)
          let generation ← loadGeneration .direct
          assign (.enteredPrivate generation)
          send conn (utf8 "[chat-enter-ok] PRIVATE " ++ target ++ utf8 "\n")
        | .targetMissing => sendEnterError conn "PRIVATE" "目标账户不存在"
        | .notFriends => sendEnterError conn "PRIVATE" "只有好友之间才能进入私聊"
        | .blockedByRecipient => sendEnterError conn "PRIVATE" "对方已屏蔽你的消息"
        | .blockedBySender => sendEnterError conn "PRIVATE" "你已屏蔽该用户，请先解除屏蔽"
        | .databaseError _ => sendEnterError conn "PRIVATE" "校验私聊权限时数据库出错"
    | _ => sendEnterError conn "PRIVATE" "用户名无效"

def handleEnterGroup (conn : ConnId) (session : ClientSession) (arguments : Bytes) :
    Handler Unit :=
  if !session.loggedIn || session.username.isEmpty then
    sendEnterError conn "GROUP" "请先登录"
  else
    match splitWords arguments with
    | [groupName] =>
      if !isValidGroupName groupName then
        sendEnterError conn "GROUP" "群名称无效"
      else do
        match ← query (.getGroup groupName) with
        | .error _ => sendEnterError conn "GROUP" "检查群信息时数据库出错"
        | .ok none => sendEnterError conn "GROUP" "群不存在"
        | .ok (some group) =>
          match ← query (.getGroupRole groupName session.username) with
          | .error _ => sendEnterError conn "GROUP" "检查群成员身份时数据库出错"
          | .ok none => sendEnterError conn "GROUP" "你不是该群成员"
          | .ok (some _) =>
            match ← query (.listGroupMemberUsernames groupName) with
            | .error _ => sendEnterError conn "GROUP" "加载群成员列表时数据库出错"
            | .ok members =>
              assign (.groupEntry groupName group.id
                (members.filter fun member => member ≠ session.username))
              let generation ← loadGeneration .group
              assign (.enteredGroup generation)
              send conn (utf8 "[chat-enter-ok] GROUP " ++ groupName ++ utf8 "\n")
    | _ => sendEnterError conn "GROUP" "群名称无效"

end ChatRoom
