import ChatRoom.Server.Common

/-!
# Friend requests, friendships and blocks

The handlers that change a friendship or a block do so while they hold the friend mutex and
increment `direct_policy_generation_` after they have released it.
-/

namespace ChatRoom

open Handler

def addFriendEvent (type : FriendEventType) (actor target : Bytes) : Handler Unit := do
  let now ← nowUnixMs
  let _ ← update (.addFriendEvent ⟨type, actor, target, now⟩)
  pure ()

def handleAddFriend (conn : ConnId) (session : ClientSession) (arguments : Bytes) :
    Handler Unit :=
  requireLogin conn session <|
    extractSingleUsername conn arguments "ADD_FRIEND <username>" fun target => do
      let sender := session.username
      if sender = target then
        send conn (utf8 "[error] 不能添加自己为好友。\n")
      else
        let saved ← withMutex .friend do
          match ← query (.userExists target) with
          | .error error => stop (databaseError conn error)
          | .ok false => stop (send conn (utf8 "[error] 用户 " ++ target ++ utf8 " 不存在。\n"))
          | .ok true =>
            match ← query (.areFriends sender target) with
            | .error error => stop (databaseError conn error)
            | .ok true => stop (send conn (utf8 "[error] " ++ target ++ utf8 " 已经是你的好友。\n"))
            | .ok false =>
              match ← query (.hasFriendRequest sender target) with
              | .error error => stop (databaseError conn error)
              | .ok alreadySent =>
                match ← query (.hasFriendRequest target sender) with
                | .error error => stop (databaseError conn error)
                | .ok reverseRequest =>
                  if alreadySent then
                    stop (send conn (utf8 "[error] 好友申请已经发送过。\n"))
                  else if reverseRequest then
                    stop (send conn (utf8 "[error] " ++ target ++
                      utf8 " 已经向你发送好友申请，请使用数字命令 18 通过该申请。\n"))
                  else
                    match ← update (.addFriendRequest sender target) with
                    | .error error => stop (databaseError conn error)
                    | .ok () =>
                      addFriendEvent .requestSent sender target
                      pure (some ())
        match saved with
        | none => pure ()
        | some () =>
          send conn (utf8 "[system] 已向 " ++ target ++ utf8 " 发送好友申请。\n")
          notifyUserIfOnline target (utf8 "[system] 收到来自 " ++ sender ++
            utf8 " 的好友申请。使用 18 通过，或使用 19 拒绝。\n")

def handleAcceptFriend (conn : ConnId) (session : ClientSession) (arguments : Bytes) :
    Handler Unit :=
  requireLogin conn session <|
    extractSingleUsername conn arguments "ACCEPT_FRIEND <username>" fun requester => do
      let current := session.username
      let accepted ← withMutex .friend do
        match ← update (.acceptFriendRequest requester current) with
        | .error error =>
          -- the database layer reports this case in Chinese, so the comparison never succeeds
          if error = utf8 "friend request does not exist" then
            stop (send conn (utf8 "[error] 没有来自 " ++ requester ++
              utf8 " 的待处理好友申请。\n"))
          else
            stop (databaseError conn error)
        | .ok () =>
          addFriendEvent .requestAccepted current requester
          pure (some ())
      match accepted with
      | none => pure ()
      | some () =>
        bumpGeneration .direct
        send conn (utf8 "[system] 你和 " ++ requester ++ utf8 " 现在已经是好友。\n")
        notifyUserIfOnline requester
          (utf8 "[system] " ++ current ++ utf8 " 已通过你的好友申请。\n")

def handleRejectFriend (conn : ConnId) (session : ClientSession) (arguments : Bytes) :
    Handler Unit :=
  requireLogin conn session <|
    extractSingleUsername conn arguments "REJECT_FRIEND <username>" fun requester => do
      let current := session.username
      let rejected ← withMutex .friend do
        match ← update (.rejectFriendRequest requester current) with
        | .error error => stop (databaseError conn error)
        | .ok false =>
          stop (send conn (utf8 "[error] 没有来自 " ++ requester ++ utf8 " 的待处理好友申请。\n"))
        | .ok true =>
          addFriendEvent .requestRejected current requester
          pure (some ())
      match rejected with
      | none => pure ()
      | some () =>
        send conn (utf8 "[system] 已拒绝来自 " ++ requester ++ utf8 " 的好友申请。\n")
        notifyUserIfOnline requester
          (utf8 "[system] " ++ current ++ utf8 " 已拒绝你的好友申请。\n")

def handleRemoveFriend (conn : ConnId) (session : ClientSession) (arguments : Bytes) :
    Handler Unit :=
  requireLogin conn session <|
    extractSingleUsername conn arguments "REMOVE_FRIEND <username>" fun target => do
      let current := session.username
      let removed ← withMutex .friend do
        match ← update (.removeFriendship current target) with
        | .error error => stop (databaseError conn error)
        | .ok false => stop (send conn (utf8 "[error] " ++ target ++ utf8 " 不是你的好友。\n"))
        | .ok true =>
          addFriendEvent .removed current target
          pure (some ())
      match removed with
      | none => pure ()
      | some () =>
        bumpGeneration .direct
        send conn (utf8 "[system] 已从好友列表删除 " ++ target ++ utf8 "。\n")
        notifyUserIfOnline target
          (utf8 "[system] " ++ current ++ utf8 " 已将你从好友列表删除。\n")

def handleBlockFriend (conn : ConnId) (session : ClientSession) (arguments : Bytes) :
    Handler Unit :=
  requireLogin conn session <|
    extractSingleUsername conn arguments "BLOCK_FRIEND <username>" fun target => do
      if target = session.username then
        send conn (utf8 "[error] 不能屏蔽自己。\n")
      else
        let created ← withMutex .friend do
          match ← query (.areFriends session.username target) with
          | .error error => stop (databaseError conn error)
          | .ok false =>
            stop (send conn (utf8 "[error] 只能屏蔽当前好友的私聊消息和文件。\n"))
          | .ok true =>
            match ← update (.addFriendBlock session.username target) with
            | .error error => stop (databaseError conn error)
            | .ok created => pure (some created)
        match created with
        | none => pure ()
        | some false => send conn (utf8 "[system] " ++ target ++ utf8 " 已经在屏蔽列表中。\n")
        | some true =>
          bumpGeneration .direct
          send conn (utf8 "[system] 已屏蔽来自 " ++ target ++
            utf8 " 的私聊消息和文件。好友关系、历史记录、公共聊天和群聊不受影响。\n" ++
            utf8 "[system] 屏蔽期间，该好友发送的待处理私聊消息/文件仍会保存，但不会投递。\n")

def handleUnblockFriend (conn : ConnId) (session : ClientSession) (arguments : Bytes) :
    Handler Unit :=
  requireLogin conn session <|
    extractSingleUsername conn arguments "UNBLOCK_FRIEND <username>" fun target => do
      let removed ← withMutex .friend do
        match ← update (.removeFriendBlock session.username target) with
        | .error error => stop (databaseError conn error)
        | .ok removed => pure (some removed)
      match removed with
      | none => pure ()
      | some false => send conn (utf8 "[error] " ++ target ++ utf8 " 不在你的好友屏蔽列表中。\n")
      | some true =>
        bumpGeneration .direct
        send conn (utf8 "[system] 已解除对 " ++ target ++
          utf8 " 的私聊消息/文件屏蔽。可使用数字命令 37 立即重试已保存的离线投递。\n")

end ChatRoom
