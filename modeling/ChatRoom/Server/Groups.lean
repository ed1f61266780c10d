import ChatRoom.Server.Common

/-!
# Group administration

The handlers that create or dissolve a group or change its member list do so while they hold the
group mutex and increment `group_policy_generation_` after they have released it. Join requests and
roles are changed without an increment.
-/

namespace ChatRoom

open Handler

def isGroupManager (role : GroupRole) : Bool := role = .owner || role = .admin

def handleCreateGroup (conn : ConnId) (session : ClientSession) (arguments : Bytes) :
    Handler Unit :=
  requireLogin conn session <|
    extractSingleGroupName conn arguments "CREATE_GROUP <group_name>" fun groupName => do
      let created ← withMutex .group do
        match ← query (.getGroup groupName) with
        | .error error => stop (databaseError conn error)
        | .ok (some _) => stop (send conn (utf8 "[error] 群名称已被使用。\n"))
        | .ok none =>
          match ← update (.createGroup groupName session.username) with
          | .error error => stop (databaseError conn error)
          | .ok groupId => pure (some groupId)
      match created with
      | none => pure ()
      | some groupId =>
        bumpGeneration .group
        send conn (utf8 "[system] 群 " ++ groupName ++ utf8 " 创建成功，你是群主。群ID=" ++
          decimal groupId ++ utf8 "。\n")

def handleDissolveGroup (conn : ConnId) (session : ClientSession) (arguments : Bytes) :
    Handler Unit :=
  requireLogin conn session <|
    extractSingleGroupName conn arguments "DISSOLVE_GROUP <group_name>" fun groupName => do
      let dissolved ← withMutex .group do
        match ← query (.getGroupRole groupName session.username) with
        | .error error => stop (databaseError conn error)
        | .ok role =>
          if role ≠ some .owner then
            stop (send conn (utf8 "[error] 只有群主可以解散该群。\n"))
          else
            match ← query (.listGroupMemberUsernames groupName) with
            | .error error => stop (databaseError conn error)
            | .ok members =>
              match ← update (.dissolveGroup groupName session.username) with
              | .error error => stop (databaseError conn error)
              | .ok false => stop (send conn (utf8 "[error] 群已不存在。\n"))
              | .ok true => pure (some members)
      match dissolved with
      | none => pure ()
      | some members =>
        bumpGeneration .group
        send conn (utf8 "[system] 群 " ++ groupName ++ utf8 " 已解散。\n")
        forEach (fun member => notifyUserIfOnline member (utf8 "[system] 群 " ++ groupName ++
            utf8 " 已被群主解散，群主：" ++ session.username ++ utf8 ".\n"))
          (members.filter fun member => member ≠ session.username)

def handleApplyGroup (conn : ConnId) (session : ClientSession) (arguments : Bytes) :
    Handler Unit :=
  requireLogin conn session <|
    extractSingleGroupName conn arguments "APPLY_GROUP <group_name>" fun groupName => do
      let saved ← withMutex .group do
        match ← query (.getGroup groupName) with
        | .error error => stop (databaseError conn error)
        | .ok none => stop (send conn (utf8 "[error] 群不存在。\n"))
        | .ok (some _) =>
          match ← query (.getGroupRole groupName session.username) with
          | .error error => stop (databaseError conn error)
          | .ok (some _) => stop (send conn (utf8 "[error] 你已经是该群成员。\n"))
          | .ok none =>
            match ← query (.hasGroupJoinRequest groupName session.username) with
            | .error error => stop (databaseError conn error)
            | .ok true => stop (send conn (utf8 "[error] 入群申请已经在等待处理。\n"))
            | .ok false =>
              match ← update (.addGroupJoinRequest groupName session.username) with
              | .error error => stop (databaseError conn error)
              | .ok () => pure (some ())
      match saved with
      | none => pure ()
      | some () =>
        send conn (utf8 "[system] 已向群 " ++ groupName ++ utf8 " 提交入群申请。\n")
        notifyGroupManagers groupName (utf8 "[system] " ++ session.username ++
          utf8 " 申请加入群 " ++ groupName ++
          utf8 "。请使用数字命令 33 通过或 34 拒绝，客户端会自动列出并编号。\n") session.username

def handleLeaveGroup (conn : ConnId) (session : ClientSession) (arguments : Bytes) :
    Handler Unit :=
  requireLogin conn session <|
    extractSingleGroupName conn arguments "LEAVE_GROUP <group_name>" fun groupName => do
      let left ← withMutex .group do
        match ← query (.getGroupRole groupName session.username) with
        | .error error => stop (databaseError conn error)
        | .ok none => stop (send conn (utf8 "[error] 你不是该群成员。\n"))
        | .ok (some .owner) =>
          stop (send conn (utf8 "[error] 群主不能直接退出群，请先解散群或转移职责。use command 25.\n"))
        | .ok (some _) =>
          match ← update (.removeGroupMember groupName session.username) with
          | .error error => stop (databaseError conn error)
          | .ok false => stop (send conn (utf8 "[error] 群成员关系已不存在。\n"))
          | .ok true => pure (some ())
      match left with
      | none => pure ()
      | some () =>
        bumpGeneration .group
        send conn (utf8 "[system] 已退出群 " ++ groupName ++ utf8 "。\n")
        notifyGroupManagers groupName (utf8 "[system] " ++ session.username ++
          utf8 " 已退出群 " ++ groupName ++ utf8 "。\n") session.username

def groupRoles (groupName current target : Bytes) :
    Handler (Except Bytes (Option GroupRole × Option GroupRole)) := do
  match ← query (.getGroupRole groupName current) with
  | .error error => pure (.error error)
  | .ok currentRole =>
    match ← query (.getGroupRole groupName target) with
    | .error error => pure (.error error)
    | .ok targetRole => pure (.ok (currentRole, targetRole))

def handleAddGroupAdmin (conn : ConnId) (session : ClientSession) (arguments : Bytes) :
    Handler Unit :=
  requireLogin conn session <|
    extractGroupAndUsername conn arguments "ADD_GROUP_ADMIN <group_name> <username>"
      fun groupName target => do
        let changed ← withMutex .group do
          match ← groupRoles groupName session.username target with
          | .error error => stop (databaseError conn error)
          | .ok (currentRole, targetRole) =>
            if currentRole ≠ some .owner then
              stop (send conn (utf8 "[error] 只有群主可以设置管理员。\n"))
            else
              match targetRole with
              | none => stop (send conn (utf8 "[error] 目标用户不是群成员。\n"))
              | some .owner => stop (send conn (utf8 "[error] 群主权限高于管理员，无需设置。\n"))
              | some .admin => stop (send conn (utf8 "[error] 目标用户已经是管理员。\n"))
              | some .member =>
                match ← update (.setGroupMemberRole groupName target .admin) with
                | .error error => stop (databaseError conn error)
                | .ok false => stop (send conn (utf8 "[error] 群角色没有发生变化。\n"))
                | .ok true => pure (some ())
        match changed with
        | none => pure ()
        | some () =>
          send conn (utf8 "[system] " ++ target ++ utf8 " 现在是管理员，群：" ++ groupName ++
            utf8 ".\n")
          notifyUserIfOnline target (utf8 "[system] 你已被提升为管理员，of group " ++ groupName ++
            utf8 "，操作者：" ++ session.username ++ utf8 ".\n")

def handleRemoveGroupAdmin (conn : ConnId) (session : ClientSession) (arguments : Bytes) :
    Handler Unit :=
  requireLogin conn session <|
    extractGroupAndUsername conn arguments "REMOVE_GROUP_ADMIN <group_name> <username>"
      fun groupName target => do
        let changed ← withMutex .group do
          match ← groupRoles groupName session.username target with
          | .error error => stop (databaseError conn error)
          | .ok (currentRole, targetRole) =>
            if currentRole ≠ some .owner then
              stop (send conn (utf8 "[error] 只有群主可以取消管理员。\n"))
            else if targetRole ≠ some .admin then
              stop (send conn (utf8 "[error] 目标用户不是管理员。\n"))
            else
              match ← update (.setGroupMemberRole groupName target .member) with
              | .error error => stop (databaseError conn error)
              | .ok false => stop (send conn (utf8 "[error] 群角色没有发生变化。\n"))
              | .ok true => pure (some ())
        match changed with
        | none => pure ()
        | some () =>
          send conn (utf8 "[system] " ++ target ++ utf8 " 现在是普通成员，群：" ++ groupName ++
            utf8 ".\n")
          notifyUserIfOnline target (utf8 "[system] 你在群 " ++ groupName ++
            utf8 " 的管理员身份已被取消，操作者：" ++ session.username ++ utf8 ".\n")

def handleApproveGroup (conn : ConnId) (session : ClientSession) (arguments : Bytes) :
    Handler Unit :=
  requireLogin conn session <|
    extractGroupAndUsername conn arguments "APPROVE_GROUP <group_name> <username>"
      fun groupName target => do
        let approved ← withMutex .group do
          match ← query (.getGroupRole groupName session.username) with
          | .error error => stop (databaseError conn error)
          | .ok role =>
            if !role.any isGroupManager then
              stop (send conn (utf8 "[error] 只有群主或管理员可以通过入群申请。\n"))
            else
              match ← query (.hasGroupJoinRequest groupName target) with
              | .error error => stop (databaseError conn error)
              | .ok false =>
                stop (send conn (utf8 "[error] 没有来自 " ++ target ++
                  utf8 " 的待处理入群申请。\n"))
              | .ok true =>
                match ← update (.approveGroupJoinRequest groupName target) with
                | .error error => stop (databaseError conn error)
                | .ok () => pure (some ())
        match approved with
        | none => pure ()
        | some () =>
          bumpGeneration .group
          send conn (utf8 "[system] " ++ target ++ utf8 " 已加入群 " ++ groupName ++ utf8 "。\n")
          notifyUserIfOnline target (utf8 "[system] 你申请加入群 " ++ groupName ++
            utf8 " 已通过，处理人：" ++ session.username ++ utf8 ".\n")

def handleRejectGroup (conn : ConnId) (session : ClientSession) (arguments : Bytes) :
    Handler Unit :=
  requireLogin conn session <|
    extractGroupAndUsername conn arguments "REJECT_GROUP <group_name> <username>"
      fun groupName target => do
        let rejected ← withMutex .group do
          match ← query (.getGroupRole groupName session.username) with
          | .error error => stop (databaseError conn error)
          | .ok role =>
            if !role.any isGroupManager then
              stop (send conn (utf8 "[error] 只有群主或管理员可以拒绝入群申请。\n"))
            else
              match ← update (.rejectGroupJoinRequest groupName target) with
              | .error error => stop (databaseError conn error)
              | .ok false =>
                stop (send conn (utf8 "[error] 没有来自 " ++ target ++
                  utf8 " 的待处理入群申请。\n"))
              | .ok true => pure (some ())
        match rejected with
        | none => pure ()
        | some () =>
          send conn (utf8 "[system] 已拒绝 " ++ target ++ utf8 " 加入群 " ++ groupName ++
            utf8 ".\n")
          notifyUserIfOnline target (utf8 "[system] 你申请加入群 " ++ groupName ++
            utf8 " 已被拒绝，处理人：" ++ session.username ++ utf8 ".\n")

def revokeGroupFiles (target groupName : Bytes) : Handler Unit := do
  match ← findOnlineUser target with
  | none => pure ()
  | some removedConnection =>
    let revoked : List Nat ← act (.revokeGroupOffers removedConnection groupName)
    forEach (fun transferId => send removedConnection (utf8 "FILE_ACCESS_REVOKED " ++
      decimal transferId ++ utf8 " " ++ percentEncode (utf8 "群成员权限已被撤销") ++ utf8 "\n"))
      revoked

def handleRemoveGroupMember (conn : ConnId) (session : ClientSession) (arguments : Bytes) :
    Handler Unit :=
  requireLogin conn session <|
    extractGroupAndUsername conn arguments "REMOVE_GROUP_MEMBER <group_name> <username>"
      fun groupName target => do
        if target = session.username then
          send conn (utf8 "[error] 不能通过移出成员操作移出自己，请使用退出群命令。\n")
        else
          let removed ← withMutex .group do
            match ← groupRoles groupName session.username target with
            | .error error => stop (databaseError conn error)
            | .ok (currentRole, targetRole) =>
              if !currentRole.any isGroupManager then
                stop (send conn (utf8 "[error] 只有群主或管理员可以移出成员。\n"))
              else if targetRole = none then
                stop (send conn (utf8 "[error] 目标用户不是群成员。\n"))
              else if targetRole = some .owner then
                stop (send conn (utf8 "[error] 不能移出群主。\n"))
              else if currentRole = some .admin ∧ targetRole = some .admin then
                stop (send conn
                  (utf8 "[error] 管理员不能移出同级或更高权限成员。another administrator.\n"))
              else
                match ← update (.removeGroupMember groupName target) with
                | .error error => stop (databaseError conn error)
                | .ok false => stop (send conn (utf8 "[error] 群成员关系已不存在。\n"))
                | .ok true => pure (some ())
          match removed with
          | none => pure ()
          | some () =>
            bumpGeneration .group
            send conn (utf8 "[system] 已将 " ++ target ++ utf8 " 移出群 " ++ groupName ++
              utf8 "。\n")
            revokeGroupFiles target groupName
            notifyUserIfOnline target (utf8 "[system] 你已被移出群 " ++ groupName ++
              utf8 "，操作者：" ++ session.username ++ utf8 "。\n")

end ChatRoom
