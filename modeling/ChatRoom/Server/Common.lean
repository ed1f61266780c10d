import ChatRoom.Server.Action

/-!
# Helpers shared by the handlers

A handler takes its connection and the session it was called with. A part of the session that only
its own connection writes is read from that argument; the rest is read by the action `session`.
-/

namespace ChatRoom

abbrev Handler (α : Type) := Interleaving.Prog Act Act.Result α

namespace Handler

def act (action : Act) : Handler action.Result := Interleaving.Prog.perform action

def query (q : Query) : Handler (Except Bytes q.Answer) := act (.query q)

def update (u : Update) : Handler (Except Bytes u.Result) := act (.update u)

def loadGeneration (policy : Policy) : Handler Nat := act (.loadGeneration policy)

def bumpGeneration (policy : Policy) : Handler Unit := act (.bumpGeneration policy)

def nowUnixMs : Handler Int := act .now

def assign (a : Assign) : Handler Unit := act (.assign a)

def send (conn : ConnId) (text : Bytes) : Handler Unit := act (.send conn (.plain text) none)

/-- Send a text that carries messages. With a completion, the background thread is told to mark the
message as delivered when the text has been written. -/
def sendMessage (conn : ConnId) (text : WireText) (completion : Option DeliveryPersistTask) :
    Handler Unit :=
  act (.send conn text completion)

def redis (call : RedisCall) : Handler RedisReply := act (.redis call)

def findOnlineUser (username : Bytes) : Handler (Option ConnId) := act (.findOnline username)

def onlineConnections : Handler (List ConnId) := act .onlineConnections

def onlineUsernames : Handler (List Bytes) := act .onlineUsernames

def currentSession : Handler ClientSession := act .session

/-- `std::lock_guard` around a block; the block's result says how the handler goes on. -/
def withMutex {α : Type} (mutex : Mutex) (body : Handler α) : Handler α := do
  let _ ← act (.lock mutex)
  let result ← body
  let _ ← act (.unlock mutex)
  pure result

def stop {α : Type} (answer : Handler Unit) : Handler (Option α) := do
  answer
  pure none

def forEach {α : Type} (body : α → Handler Unit) : List α → Handler Unit
  | [] => pure ()
  | item :: items => do
    body item
    forEach body items

end Handler

open Handler

def databaseError (conn : ConnId) (error : Bytes) : Handler Unit :=
  send conn (utf8 "[error] 数据库操作失败：" ++ error ++ utf8 "\n")

def requireLogin (conn : ConnId) (session : ClientSession) (body : Handler Unit) : Handler Unit :=
  if session.loggedIn then body else send conn (utf8 "[error] 请先登录后再执行该操作。\n")

def isValidUsername (username : Bytes) : Bool :=
  3 ≤ username.length && username.length ≤ 20 && username.all fun c => isAlnum c || c = 95

def isValidPassword (password : Bytes) : Bool :=
  4 ≤ password.length && password.length ≤ 64 &&
    password.all fun c => !isSpace c && !isCntrl c

def isValidGroupName (groupName : Bytes) : Bool :=
  2 ≤ groupName.length && groupName.length ≤ 32 &&
    groupName.all fun c => isAlnum c || c = 95 || c = 45

def extractSingleUsername (conn : ConnId) (arguments : Bytes) (usage : String)
    (body : Bytes → Handler Unit) : Handler Unit :=
  match splitWords arguments with
  | [username] =>
    if isValidUsername username then
      body username
    else
      send conn (utf8 "[error] 用法：" ++ utf8 usage ++ utf8 "\n")
  | _ => send conn (utf8 "[error] 用法：" ++ utf8 usage ++ utf8 "\n")

def groupNameUsage (usage : String) : Bytes :=
  utf8 "[error] 用法：" ++ utf8 usage ++
    utf8 "；群名称长度 2-32，只能包含字母、数字、下划线或短横线。\n"

def extractSingleGroupName (conn : ConnId) (arguments : Bytes) (usage : String)
    (body : Bytes → Handler Unit) : Handler Unit :=
  match splitWords arguments with
  | [groupName] =>
    if isValidGroupName groupName then body groupName else send conn (groupNameUsage usage)
  | _ => send conn (groupNameUsage usage)

def extractGroupAndUsername (conn : ConnId) (arguments : Bytes) (usage : String)
    (body : Bytes → Bytes → Handler Unit) : Handler Unit :=
  match splitWords arguments with
  | [groupName, username] =>
    if isValidGroupName groupName && isValidUsername username then
      body groupName username
    else
      send conn (utf8 "[error] 用法：" ++ utf8 usage ++ utf8 "\n")
  | _ => send conn (utf8 "[error] 用法：" ++ utf8 usage ++ utf8 "\n")

def notifyUserIfOnline (username message : Bytes) : Handler Unit := do
  match ← findOnlineUser username with
  | some target => send target message
  | none => pure ()

def broadcastText (message : WireText) (except : Option ConnId) : Handler Unit := do
  let recipients ← onlineConnections
  forEach (fun recipient => sendMessage recipient message none)
    (recipients.filter fun recipient => some recipient ≠ except)

def broadcastToLoggedIn (message : Bytes) (except : Option ConnId) : Handler Unit :=
  broadcastText (.plain message) except

def notifyGroupManagers (groupName message exceptUsername : Bytes) : Handler Unit := do
  match ← query (.listGroupManagers groupName) with
  | .error _ => pure ()
  | .ok managers =>
    forEach (fun manager => notifyUserIfOnline manager message)
      (managers.filter fun manager => manager ≠ exceptUsername)

def adjustRedisUnreadBestEffort (username : Bytes) (kind : String) (delta : Int) :
    Handler Unit := do
  let _ ← redis (.adjustUnread username (utf8 kind) delta)
  pure ()

def removeRedisPresenceBestEffort (username : Bytes) : Handler Unit := do
  let _ ← redis (.removePresenceIfOwned username)
  pure ()

/-! ### `DirectMessagePolicy` -/

inductive DirectMessageDecision where
  | allowed
  | targetMissing
  | notFriends
  | blockedByRecipient
  | blockedBySender
  | databaseError (error : Bytes)
  deriving DecidableEq, Repr

def evaluate (sender recipient : Bytes) : Handler DirectMessageDecision := do
  match ← query (.userExists recipient) with
  | .error error => pure (.databaseError error)
  | .ok false => pure .targetMissing
  | .ok true =>
    match ← query (.areFriends sender recipient) with
    | .error error => pure (.databaseError error)
    | .ok false => pure .notFriends
    | .ok true =>
      match ← query (.isFriendBlocked recipient sender) with
      | .error error => pure (.databaseError error)
      | .ok true => pure .blockedByRecipient
      | .ok false =>
        match ← query (.isFriendBlocked sender recipient) with
        | .error error => pure (.databaseError error)
        | .ok true => pure .blockedBySender
        | .ok false => pure .allowed

end ChatRoom
