import ChatRoom.Server.Groups

/-!
# Commands that only read

`HELP`, `WHO`, `PING`, the lists, and the answer to a command that no route knows. None of them
changes anything but the registry of online users, from which entries of closed connections are
dropped when they are met.
-/

namespace ChatRoom

open Handler

def helpText : Bytes :=
  utf8 "[system] 数字命令帮助：\n" ++
    utf8 "  1  注册账户\n" ++
    utf8 "  2  登录账户\n" ++
    utf8 "  3  退出登录\n" ++
    utf8 "  4  注销账户\n" ++
    utf8 "  5  发送公共消息\n" ++
    utf8 "  6  当前好友/群会话发送消息（客户端会继续让你选择输入模式）\n" ++
    utf8 "  8  进入好友私聊\n" ++
    utf8 "  9  进入群聊\n" ++
    utf8 " 10  退出当前会话\n" ++
    utf8 " 11  查看私聊历史\n" ++
    utf8 " 12  查看群聊历史\n" ++
    utf8 " 13  查看当前会话文件记录\n" ++
    utf8 " 14  向当前会话发送文件\n" ++
    utf8 " 15  好友列表\n" ++
    utf8 " 16  好友申请\n" ++
    utf8 " 17  添加好友\n" ++
    utf8 " 18  通过好友申请\n" ++
    utf8 " 19  拒绝好友申请\n" ++
    utf8 " 20  删除好友\n" ++
    utf8 " 21  屏蔽好友\n" ++
    utf8 " 22  解除屏蔽\n" ++
    utf8 " 23  屏蔽列表\n" ++
    utf8 " 24  创建群\n" ++
    utf8 " 25  解散群\n" ++
    utf8 " 26  申请加入群\n" ++
    utf8 " 27  我的群\n" ++
    utf8 " 28  退出群\n" ++
    utf8 " 29  查看群成员\n" ++
    utf8 " 30  设置群管理员\n" ++
    utf8 " 31  取消群管理员\n" ++
    utf8 " 33  自动列出全部可处理申请并通过\n" ++
    utf8 " 34  自动列出全部可处理申请并拒绝\n" ++
    utf8 " 35  移出群成员\n" ++
    utf8 " 36  在线用户\n" ++
    utf8 " 37  拉取待处理离线消息/文件\n" ++
    utf8 " 38  查看本帮助\n" ++
    utf8 " 39  查看客户端完整数字命令帮助\n" ++
    utf8 " 40  查看本地数据库/下载路径\n" ++
    utf8 " 41  查看公共消息历史\n" ++
    utf8 "[system] 注意：进入好友或群会话后不会自动弹出消息模式；" ++
    utf8 "必须先输入 6，再选择 1=回车立即发送、2=长文本编辑模式。\n" ++
    utf8 "[system] 数字 32 已取消用户入口，33/34 会自动查询你作为群主或管理员可处理的全部入群申请。\n"

def joinNames (names : List Bytes) : Bytes :=
  if names.isEmpty then utf8 "(none)" else List.intercalate (utf8 ", ") names

def groupRoleName : GroupRole → Bytes
  | .owner => utf8 "群主"
  | .admin => utf8 "管理员"
  | .member => utf8 "成员"

def concatFor {α : Type} (describe : α → Handler Bytes) : List α → Handler Bytes
  | [] => pure []
  | item :: items => do
    let text ← describe item
    let rest ← concatFor describe items
    pure (text ++ rest)

def isUserOnline (username : Bytes) : Handler Bool := do
  let found ← findOnlineUser username
  pure found.isSome

def handleWho (conn : ConnId) (session : ClientSession) : Handler Unit :=
  requireLogin conn session do
    let names ← onlineUsernames
    send conn (utf8 "[system] 在线用户（" ++ decimal names.length ++ utf8 "): " ++ joinNames names ++
      utf8 "\n")

def handleFriends (conn : ConnId) (session : ClientSession) : Handler Unit :=
  requireLogin conn session do
    match ← query (.listFriends session.username) with
    | .error error => databaseError conn error
    | .ok friends =>
      let lines ← concatFor (fun name => do
        let online ← isUserOnline name
        pure (utf8 "  " ++ name ++ utf8 " [" ++ utf8 (if online then "在线" else "离线") ++
          utf8 "]\n")) friends
      send conn (utf8 "[system] 好友列表（" ++ decimal friends.length ++ utf8 "）：\n" ++ lines ++
        if friends.isEmpty then utf8 "  （无）\n" else [])

def handleFriendRequests (conn : ConnId) (session : ClientSession) : Handler Unit :=
  requireLogin conn session do
    match ← query (.listIncomingRequests session.username) with
    | .error error => databaseError conn error
    | .ok incoming =>
      match ← query (.listOutgoingRequests session.username) with
      | .error error => databaseError conn error
      | .ok outgoing =>
        send conn (utf8 "[system] 收到的好友申请（" ++ decimal incoming.length ++ utf8 "）：" ++
          joinNames incoming ++ utf8 "\n[system] 已发出的好友申请（" ++ decimal outgoing.length ++
          utf8 "）：" ++ joinNames outgoing ++ utf8 "\n")

def handleBlockedFriends (conn : ConnId) (session : ClientSession) : Handler Unit :=
  requireLogin conn session do
    match ← query (.listBlockedFriends session.username) with
    | .error error => databaseError conn error
    | .ok blocked =>
      send conn (utf8 "[system] 已屏蔽好友（" ++ decimal blocked.length ++ utf8 "）：" ++
        joinNames blocked ++ utf8 "\n")

def handleMyGroups (conn : ConnId) (session : ClientSession) : Handler Unit :=
  requireLogin conn session do
    match ← query (.listUserGroups session.username) with
    | .error error => databaseError conn error
    | .ok groups =>
      let lines := groups.flatMap fun membership =>
        utf8 "  " ++ membership.group.name ++ utf8 " [" ++ groupRoleName membership.role ++
          utf8 "] 群主=" ++ membership.group.ownerUsername ++ utf8 "\n"
      send conn (utf8 "[system] 已加入的群（" ++ decimal groups.length ++ utf8 "）：\n" ++ lines ++
        if groups.isEmpty then utf8 "  （无）\n" else [])

def handleGroupMembers (conn : ConnId) (session : ClientSession) (arguments : Bytes) :
    Handler Unit :=
  requireLogin conn session <|
    extractSingleGroupName conn arguments "GROUP_MEMBERS <group_name>" fun groupName => do
      match ← query (.getGroupRole groupName session.username) with
      | .error error => databaseError conn error
      | .ok none => send conn (utf8 "[error] 只有群成员可以查看该内容。the member list.\n")
      | .ok (some _) =>
        match ← query (.listGroupMembers groupName) with
        | .error error => databaseError conn error
        | .ok members =>
          let lines ← concatFor (fun (member : Bytes × GroupRole) => do
            let online ← isUserOnline member.1
            pure (utf8 "  " ++ member.1 ++ utf8 " [" ++ groupRoleName member.2 ++ utf8 "] [" ++
              utf8 (if online then "online" else "offline") ++ utf8 "]\n")) members
          send conn (utf8 "[group " ++ groupName ++ utf8 "] members (" ++ decimal members.length ++
            utf8 "):\n" ++ lines)

def handleGroupRequests (conn : ConnId) (session : ClientSession) (arguments : Bytes) :
    Handler Unit :=
  requireLogin conn session <|
    extractSingleGroupName conn arguments "GROUP_REQUESTS <group_name>" fun groupName => do
      match ← query (.getGroupRole groupName session.username) with
      | .error error => databaseError conn error
      | .ok role =>
        if !role.any isGroupManager then
          send conn (utf8 "[error] 只有群主或管理员可以查看入群申请。\n")
        else
          match ← query (.listGroupJoinRequests groupName) with
          | .error error => databaseError conn error
          | .ok users =>
            send conn (utf8 "[group " ++ groupName ++ utf8 "] 待处理入群申请（" ++
              decimal users.length ++ utf8 "): " ++ joinNames users ++ utf8 "\n")

/-- The applicants of the groups, one group after another up to the first that cannot be read. -/
def listManagedRequests (conn : ConnId) : List ManagedGroupRequestCount → Handler Unit
  | [] => send conn (utf8 "[group-requests-end]\n")
  | group :: groups => do
    match ← query (.listGroupJoinRequests group.groupName) with
    | .error error =>
      send conn (utf8 "[group-requests-error] " ++ percentEncode (utf8 "加载群 " ++
        group.groupName ++ utf8 " 的入群申请失败：" ++ error) ++ utf8 "\n")
    | .ok users =>
      forEach (fun username => send conn (utf8 "[group-request-item] " ++
        percentEncode group.groupName ++ utf8 " " ++ percentEncode username ++ utf8 "\n")) users
      listManagedRequests conn groups

def handleGroupRequestsAll (conn : ConnId) (session : ClientSession) : Handler Unit :=
  requireLogin conn session do
    match ← query (.listManagedGroupRequestCounts session.username) with
    | .error error =>
      send conn (utf8 "[group-requests-error] " ++
        percentEncode (utf8 "加载可管理群的入群申请失败：" ++ error) ++ utf8 "\n")
    | .ok groups =>
      send conn (utf8 "[group-requests-begin]\n")
      listManagedRequests conn groups

def handlePing (conn : ConnId) (arguments : Bytes) : Handler Unit :=
  match parseUint64Value (trim arguments) with
  | some nonce => send conn (utf8 "PONG " ++ decimal nonce ++ utf8 "\n")
  | none => pure ()

def handleLookup (conn : ConnId) (session : ClientSession) : Lookup → Handler Unit
  | .help => send conn helpText
  | .who => handleWho conn session
  | .friends => handleFriends conn session
  | .friendRequests => handleFriendRequests conn session
  | .blockedFriends => handleBlockedFriends conn session
  | .myGroups => handleMyGroups conn session
  | .groupMembers arguments => handleGroupMembers conn session arguments
  | .groupRequests arguments => handleGroupRequests conn session arguments
  | .groupRequestsAll => handleGroupRequestsAll conn session
  | .ping arguments => handlePing conn arguments
  | .unknown =>
    send conn (utf8 "[error] 未知命令，请输入当前状态支持的数字命令。 \n" ++
      utf8 "Type HELP to see available commands.\n")

end ChatRoom
