import ChatRoom.Server.Files

/-!
# Accounts and connections

`handle_login` does not touch the realtime cache and the file deliveries of its session;
`handle_logout` clears the cache only, and `handle_delete_account` clears the offers and the
deliveries only.
-/

namespace ChatRoom

open Handler

def kOfflineDeliveryBatch : Nat := 100

def handleRegister (conn : ConnId) (session : ClientSession) (arguments : Bytes) :
    Handler Unit :=
  let usage := send conn (utf8 "[error] 用法：REGISTER <用户名> <密码>；" ++
    utf8 "用户名长度 3-20，只能包含字母、数字、下划线；密码长度 4-64，不能包含空格。\n")
  if session.loggedIn then
    send conn (utf8 "[error] 当前连接已经登录，请先退出登录后再注册其他账户。\n")
  else
    match splitWords arguments with
    | [username, password] =>
      if !isValidUsername username || !isValidPassword password then
        usage
      else do
        match ← query (.userExists username) with
        | .error error => databaseError conn error
        | .ok true => send conn (utf8 "[error] 用户名已存在。\n")
        | .ok false =>
          match ← act (.hashPassword password) with
          | none => send conn (utf8 "[error] 密码哈希处理失败。\n")
          | some encoded =>
            match ← update (.createUser username encoded) with
            | .error error => databaseError conn error
            | .ok () => send conn (utf8 "[system] 注册成功。请使用数字命令 2 登录。\n")
    | _ => usage

/-! ### What a user is told after a login -/

def notifyPendingRequests (conn : ConnId) (username : Bytes) : Handler Unit := do
  match ← query (.listIncomingRequests username) with
  | .error _ => pure ()
  | .ok pendingFriends =>
    if pendingFriends.isEmpty then
      pure ()
    else
      send conn (utf8 "[system] 你有 " ++ decimal pendingFriends.length ++
        utf8 " pending friend request(s). Use command 16.\n")
  match ← query (.listManagedGroupRequestCounts username) with
  | .error _ => pure ()
  | .ok groupRequests =>
    forEach (fun request => send conn (utf8 "[system] 群 " ++ request.groupName ++ utf8 " 有 " ++
      decimal request.pendingCount ++
      utf8 " pending join request(s). Use command 32 for group requests: 32 " ++
      request.groupName ++ utf8 ".\n")) groupRequests

def signedDecimal (value : Int) : Bytes :=
  if value < 0 then utf8 "-" ++ decimal value.natAbs else decimal value.natAbs

def sendRedisUnreadSummaryBestEffort (conn : ConnId) (username : Bytes) : Handler Unit := do
  match ← redis (.unreadCounts username) with
  | .counts counts =>
    if counts = ⟨0, 0, 0, 0⟩ then
      pure ()
    else
      send conn (utf8 "[system] Redis 未读缓存：私聊消息=" ++ signedDecimal counts.privateMessages ++
        utf8 "，群消息=" ++ signedDecimal counts.groupMessages ++ utf8 "，私聊文件=" ++
        signedDecimal counts.privateFiles ++ utf8 "，群文件=" ++ signedDecimal counts.groupFiles ++
        utf8 "。最终持久化投递状态仍以 MySQL 为准。\n")
  | _ => pure ()

def deliverPendingPrivateMessages (conn : ConnId) (username : Bytes) : Handler Unit := do
  match ← query (.pendingPrivateMessages username kOfflineDeliveryBatch) with
  | .error _ => pure ()
  | .ok messages =>
    if messages.isEmpty then
      pure ()
    else
      send conn (utf8 "[system] 正在投递 " ++ decimal messages.length ++
        utf8 " 条离线私聊消息。\n")
    forEach (fun message => do
      match ← query (.isFriendBlocked username message.payload.senderUsername) with
      | .ok false =>
        sendMessage conn message.offlineLine (some ⟨.privateMessage, message.id, username, true⟩)
      | _ => pure ()) messages
    if messages.length = kOfflineDeliveryBatch then
      send conn (utf8 "[system] 可能还有离线私聊消息；请再次使用数字命令 37。\n")
    else
      pure ()

def deliverPendingGroupMessages (conn : ConnId) (username : Bytes) : Handler Unit := do
  match ← query (.pendingGroupMessages username kOfflineDeliveryBatch) with
  | .error _ => pure ()
  | .ok messages =>
    if messages.isEmpty then
      pure ()
    else
      send conn (utf8 "[system] 正在投递 " ++ decimal messages.length ++
        utf8 " 条离线群消息。\n")
    forEach (fun message => sendMessage conn message.offlineLine
      (some ⟨.groupMessage, message.id, username, true⟩)) messages
    if messages.length = kOfflineDeliveryBatch then
      send conn (utf8 "[system] 可能还有离线群消息；请再次使用数字命令 37。\n")
    else
      pure ()

def deliverPendingMessages (conn : ConnId) (username : Bytes) : Handler Unit := do
  deliverPendingPrivateMessages conn username
  deliverPendingGroupMessages conn username

def deliverPending (conn : ConnId) (session : ClientSession) : Handler Unit := do
  notifyPendingRequests conn session.username
  sendRedisUnreadSummaryBestEffort conn session.username
  deliverPendingMessages conn session.username
  deliverPendingFiles conn session

def handlePending (conn : ConnId) (session : ClientSession) : Handler Unit :=
  requireLogin conn session (deliverPending conn session)

/-! ### Login and logout -/

def claimRedisPresence (serverInstanceId : Bytes) (conn : ConnId) (username : Bytes) :
    Handler Bool := do
  let unavailable : Handler Bool := do
    send conn (utf8 "[error] Redis 在线状态服务不可用；login cannot complete.\n")
    pure false
  match ← redis (.claimPresence username) with
  | .flag true => pure true
  | .flag false =>
    match ← redis (.presenceOwner username) with
    | .owner owner =>
      if owner = some serverInstanceId then
        match ← redis (.refreshPresenceIfOwned username) with
        | .flag true => pure true
        | _ =>
          send conn (utf8 "[error] Redis 在线状态刷新失败；login cannot complete.\n")
          pure false
      else
        send conn (utf8 "[error] 该账号已经在线。on another server instance.\n")
        pure false
    | _ => unavailable
  | _ => unavailable

def handleLogin (crypto : Crypto) (serverInstanceId : Bytes) (conn : ConnId)
    (session : ClientSession) (arguments : Bytes) : Handler Unit :=
  if session.loggedIn then
    send conn (utf8 "[error] 当前连接已经登录。\n")
  else
    match splitWords arguments with
    | [username, password] => do
      match ← query (.getPasswordHash username) with
      | .error error => databaseError conn error
      | .ok passwordHash =>
        if !passwordHash.any fun encoded => crypto.verifyPassword password encoded then
          send conn (utf8 "[error] 用户名或密码错误。\n")
        else
          let registered : Bool ← act (.addOnline username)
          if !registered then
            send conn (utf8 "[error] 该账号已经登录。\n")
          else
            let claimed ← claimRedisPresence serverInstanceId conn username
            if !claimed then
              act (.removeOnline username)
            else
              assign (.login username)
              send conn (utf8 "[system] 登录成功，欢迎 " ++ username ++ utf8 ".\n")
              broadcastToLoggedIn (utf8 "[system] " ++ username ++ utf8 " 已上线。\n") (some conn)
              deliverPending conn { session with loggedIn := true, username }
    | _ => send conn (utf8 "[error] 用法：LOGIN <用户名> <密码>\n")

def handleLogout (conn : ConnId) (session : ClientSession) : Handler Unit :=
  requireLogin conn session do
    assign .detachUpload
    act (.removeOnline session.username)
    removeRedisPresenceBestEffort session.username
    assign .logout
    send conn (utf8 "[system] 退出登录成功。\n")
    broadcastToLoggedIn (utf8 "[system] " ++ session.username ++ utf8 " 已离线。\n") (some conn)

/-- `std::scoped_lock` takes both mutexes; no other handler ever holds one and waits for the
other. -/
def withBothMutexes {α : Type} (body : Handler α) : Handler α :=
  withMutex .friend (withMutex .group body)

def handleDeleteAccount (crypto : Crypto) (conn : ConnId) (session : ClientSession)
    (arguments : Bytes) : Handler Unit :=
  let usage := send conn (utf8 "[error] 用法：DELETE_ACCOUNT <current_password> CONFIRM\n")
  requireLogin conn session <|
    match splitWords arguments with
    | [password, confirmation] =>
      if confirmation ≠ utf8 "CONFIRM" then
        usage
      else do
        let current ← currentSession
        if current.upload.isSome || current.binaryUpload.isSome ||
            !current.fileDeliveriesInProgress.isEmpty then
          send conn (utf8 "[error] 请先完成或取消当前文件传输，再执行账户操作。" ++
            utf8 "before deleting the account.\n")
        else
          match ← query (.getPasswordHash session.username) with
          | .error error => databaseError conn error
          | .ok passwordHash =>
            if !passwordHash.any fun encoded => crypto.verifyPassword password encoded then
              send conn (utf8 "[error] 当前密码错误。\n")
            else
              let deleted ← withBothMutexes do
                match ← update (.deleteUser session.username) with
                | .error error => stop (databaseError conn error)
                | .ok removed => pure (some removed)
              match deleted with
              | none => pure ()
              | some false => send conn (utf8 "[error] 账户已不存在。\n")
              | some true =>
                bumpGeneration .direct
                bumpGeneration .group
                act (.removeOnline session.username)
                removeRedisPresenceBestEffort session.username
                let _ ← redis (.clearUnread session.username)
                assign .accountDeleted
                send conn (utf8 "[system] 账户注销成功。You are now logged out.\n")
                broadcastToLoggedIn (utf8 "[system] " ++ session.username ++ utf8 " 已离线。\n")
                  (some conn)
    | _ => usage

/-! ### Connections -/

def onConnect (conn : ConnId) : Handler Unit := do
  act (.setPhase .connected)
  send conn (utf8 "[system] 已连接到聊天室服务（TLS、客户端心跳、好友屏蔽、文件断点续传已启用）。\n" ++
    utf8 "[system] 可输入数字命令 38 查看帮助。\n")

/-- `on_connection` for a connection that is down; the session keeps its user. -/
def onDisconnect (conn : ConnId) (session : ClientSession) : Handler Unit := do
  act (.setPhase .closed)
  assign .detachUpload
  if session.loggedIn then
    act (.removeOnline session.username)
    removeRedisPresenceBestEffort session.username
    broadcastToLoggedIn (utf8 "[system] " ++ session.username ++ utf8 " 已离线。\n") (some conn)
  else
    pure ()

def handleQuit (conn : ConnId) : Handler Unit := do
  send conn (utf8 "[system] goodbye.\n")
  act (.setPhase .disconnecting)

end ChatRoom
