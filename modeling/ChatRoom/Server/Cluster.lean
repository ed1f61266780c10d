import ChatRoom.Server.System

/-!
# Several servers

Server processes share the tables and one Redis. For every user who is online somewhere, Redis keeps
the name of the server that claimed the online status; each command and each script is one step, and
keys do not expire. What Redis answers about the unread counts is left to the environment.
-/

namespace ChatRoom

open Interleaving

/-- What Redis does about an online status for the server of the given name. The calls about unread
counts are not answered here. -/
def presenceCall (serverInstanceId : Bytes) (presence : Bytes → Option Bytes) :
    RedisCall → Option (RedisReply × (Bytes → Option Bytes))
  | .claimPresence username =>
    -- `SET key server NX`
    match presence username with
    | none => some (.flag true, Function.update presence username (some serverInstanceId))
    | some _ => some (.flag false, presence)
  | .presenceOwner username => some (.owner (presence username), presence)
  | .refreshPresenceIfOwned username =>
    some (.flag (decide (presence username = some serverInstanceId)), presence)
  | .removePresenceIfOwned username =>
    if presence username = some serverInstanceId then
      some (.flag true, Function.update presence username none)
    else
      some (.flag false, presence)
  | .adjustUnread _ _ _ | .unreadCounts _ | .clearUnread _ => none

structure Cluster (ι : Type) where
  /-- The processes, without the tables, which they share. -/
  servers : ι → Shared
  db : Database
  presence : Bytes → Option Bytes

namespace Cluster

variable {ι : Type} (c : Cluster ι)

def server (i : ι) : Shared := { c.servers i with db := c.db }

variable [DecidableEq ι]

def setServer (i : ι) (s : Shared) : Cluster ι :=
  { c with servers := Function.update c.servers i s, db := s.db }

@[simp]
theorem server_setServer (i : ι) (s : Shared) : (c.setServer i s).server i = s := by
  rw [server, setServer]
  dsimp only
  rw [Function.update_self]

theorem server_setServer_of_ne {i j : ι} (hne : j ≠ i) (s : Shared) :
    (c.setServer i s).server j = { c.server j with db := s.db } := by
  rw [server, setServer]
  dsimp only
  rw [Function.update_of_ne hne]
  rfl

end Cluster

/-- The outcome of an action and the keys after it: the calls about an online status are answered by
Redis, everything else by the environment. -/
def answered (serverInstanceId : Bytes) (presence : Bytes → Option Bytes) :
    Act → Choice → Choice × (Bytes → Option Bytes)
  | .redis call, choice =>
    match presenceCall serverInstanceId presence call with
    | some (reply, presence) => (.reply reply, presence)
    | none => (choice, presence)
  | _, choice => (choice, presence)

variable {ι : Type} [DecidableEq ι]

/-- Server processes over one database and one Redis. A thread is a connection of one of them. -/
def cluster (configs : ι → ServerConfig) (useCache : Bool) :
    System (ι × ConnId) Act Act.Result Choice Request (Cluster ι) where
  exec := fun (i, conn) action choice c =>
    let (choice, presence) := answered (configs i).serverInstanceId c.presence action choice
    (exec (configs i).crypto conn action choice (c.server i)).map fun (result, s) =>
      (result, { c.setServer i s with presence })
  launch := fun (i, conn) request c =>
    (launch (configs i) useCache conn request (c.server i)).map fun (prog, s) =>
      (prog, c.setServer i s)

abbrev ClusterConfiguration (ι : Type) :=
  Interleaving.Config (ι × ConnId) Act Act.Result (Cluster ι)

abbrev ClusterEvent (ι : Type) := Interleaving.Event (ι × ConnId) Choice Request

def clusterInitial (db : Database) (stores : ι → Store) (presence : Bytes → Option Bytes) :
    ClusterConfiguration ι where
  shared := { servers := fun i => { store := stores i }, db, presence }
  code := fun _ => .ret ()

end ChatRoom
