import ChatRoom.Server.System

/-! # What the policy arguments look at -/

namespace ChatRoom

/-- What the permissions depend on in a session. -/
def ClientSession.core (session : ClientSession) : ClientSession :=
  { session with
    upload := none
    binaryUpload := none
    fileDeliveriesInProgress := []
    offeredFiles := []
    fileDeliveryCancelFlags := [] }

section Core

variable {session : ClientSession}

@[simp] theorem ClientSession.core_loggedIn : session.core.loggedIn = session.loggedIn := rfl

@[simp] theorem ClientSession.core_username : session.core.username = session.username := rfl

@[simp] theorem ClientSession.core_realtimePrivateTarget :
    session.core.realtimePrivateTarget = session.realtimePrivateTarget := rfl

@[simp] theorem ClientSession.core_realtimePrivateGeneration :
    session.core.realtimePrivateGeneration = session.realtimePrivateGeneration := rfl

@[simp] theorem ClientSession.core_realtimeGroupName :
    session.core.realtimeGroupName = session.realtimeGroupName := rfl

@[simp] theorem ClientSession.core_realtimeGroupId :
    session.core.realtimeGroupId = session.realtimeGroupId := rfl

@[simp] theorem ClientSession.core_realtimeGroupRecipients :
    session.core.realtimeGroupRecipients = session.realtimeGroupRecipients := rfl

@[simp] theorem ClientSession.core_realtimeGroupGeneration :
    session.core.realtimeGroupGeneration = session.realtimeGroupGeneration := rfl

end Core

theorem ClientSession.core_assign (session : ClientSession) (a : Assign) :
    (session.assign a).core = (session.core.assign a).core := by
  cases a <;> rfl

/-- The part of the state that permissions and caches depend on. -/
structure View where
  db : Database
  friendMutex : Option ConnId
  groupMutex : Option ConnId
  directGeneration : Nat
  groupGeneration : Nat
  core : ConnId → ClientSession
  running : ConnId → Option Task
  unpublishedDirect : ConnId → Option Update
  unpublishedGroup : ConnId → Option Update

namespace Shared

def view (s : Shared) : View where
  db := s.db
  friendMutex := s.friendMutex
  groupMutex := s.groupMutex
  directGeneration := s.directPolicyGeneration
  groupGeneration := s.groupPolicyGeneration
  core := fun conn => (s.sessions conn).core
  running := s.running
  unpublishedDirect := s.unpublishedDirect
  unpublishedGroup := s.unpublishedGroup

variable (s : Shared)

theorem view_setSession_core (conn : ConnId) (session : ClientSession) :
    (s.setSession conn session).view =
      { s.view with core := Function.update s.view.core conn session.core } := by
  have hcores : (fun other => (Function.update s.sessions conn session other).core) =
      Function.update (fun other => (s.sessions other).core) conn session.core := by
    funext other
    by_cases heq : other = conn
    · subst heq
      rw [Function.update_self, Function.update_self]
    · rw [Function.update_of_ne heq, Function.update_of_ne heq]
  simp only [view, setSession, hcores]

theorem view_setSession {conn : ConnId} {session : ClientSession}
    (hcore : session.core = (s.sessions conn).core) :
    (s.setSession conn session).view = s.view := by
  rw [view_setSession_core, hcore]
  exact congrArg (fun core => { s.view with core }) (Function.update_eq_self conn s.view.core)

def roll (s : Shared) : (ConnId → ConnPhase) × List (Bytes × ConnId) := (s.phase, s.onlineUsers)

def apart : View × (ConnId → ConnPhase) × List (Bytes × ConnId) := (s.view, s.roll)

@[simp]
theorem apart_sendText (conn : ConnId) (text : Bytes) : (s.sendText conn text).apart = s.apart := by
  unfold sendText
  split <;> rfl

@[simp]
theorem apart_sendInLoop (conn : ConnId) (text : Bytes) : (s.sendInLoop conn text).apart = s.apart :=
  rfl

@[simp]
theorem apart_setPump (index : Nat) (pump : Pump) : (s.setPump index pump).apart = s.apart := rfl

@[simp]
theorem apart_failPump (index : Nat) (pump : Pump) (error : String) :
    (s.failPump index pump error).apart = s.apart := rfl

@[simp]
theorem apart_sendNext (index : Nat) (pump : Pump) : (s.sendNext index pump).apart = s.apart := by
  unfold sendNext
  split_ifs <;> simp

@[simp]
theorem apart_deliverFile (index : Nat) (pump : Pump) :
    (s.deliverFile index pump).apart = s.apart := by
  unfold deliverFile
  split_ifs
  · simp
  · simp
  · split
    · simp
    · split_ifs <;> simp

theorem apart_advancePump {index : Nat} {s' : Shared} (hadvance : s.advancePump index = some s') :
    s'.apart = s.apart := by
  unfold advancePump at hadvance
  split at hadvance
  · cases hadvance
  · split at hadvance
    all_goals first
      | (cases hadvance; simp)
      | (split at hadvance <;> cases hadvance <;> simp)
      | cases hadvance

end Shared

/-- The part that uploads and deliveries depend on. -/
structure Rest where
  sessions : ConnId → ClientSession
  store : Store
  pumps : List Pump
  cancelFlags : List Bool
  loopCalls : List (ConnId × LoopCall)

def Shared.rest (s : Shared) : Rest where
  sessions := s.sessions
  store := s.store
  pumps := s.pumps
  cancelFlags := s.cancelFlags
  loopCalls := s.loopCalls

theorem Shared.rest_sendText (s : Shared) (target : ConnId) (text : Bytes) :
    (s.sendText target text).rest = s.rest := by
  unfold sendText
  split <;> rfl

def Act.visible : Act → Bool
  | .update _ | .lock _ | .unlock _ | .bumpGeneration _ | .assign _ | .finish => true
  | _ => false

def Act.enrols : Act → Bool
  | .setPhase _ | .addOnline _ | .removeOnline _ | .findOnline _ | .onlineConnections
  | .onlineUsernames => true
  | _ => false

namespace Act

def storing : Act → Bool
  | .beginOrResumeUpload _ | .appendUploadBytes _ _ _ | .finalizeUpload _ | .cancelUpload _
  | .removeStored _ => true
  | _ => false

def framed : Act → Bool
  | .assign _ | .revokeGroupOffers _ _ | .deliverAsync _ _ | .queueInLoop _ _ | .advancePump _ =>
    false
  | action => !action.storing

end Act

section Exec

variable {crypto : Crypto} {conn : ConnId} {action : Act} {choice : Choice} {s s' : Shared}
  {result : action.Result}

theorem store_of_withStore {α : Type} {outcome : Option (α × Store)} {value : α}
    (hstore : s.withStore outcome = some (value, s')) :
    ∃ store, outcome = some (value, store) ∧ s' = { s with store } := by
  cases outcome with
  | none => cases hstore
  | some pair =>
    cases hstore
    exact ⟨pair.2, rfl, rfl⟩

/-- **Frames.** The parts of the state that an action leaves alone. -/
structure ExecFrame (action : Act) (s s' : Shared) : Prop where
  view : action.visible = false → s'.view = s.view
  roll : action.enrols = false → s'.roll = s.roll
  rest : action.framed = true → s'.rest = s.rest

theorem execFrame_of_exec (hexec : exec crypto conn action choice s = some (result, s')) :
    ExecFrame action s s' := by
  cases action with
  | query => cases choice <;> cases hexec <;> constructor <;> intro _ <;> rfl
  | update u =>
    cases choice <;> simp only [exec, Shared.execUpdate] at hexec <;> try cases hexec
    · split at hexec <;> cases hexec <;> constructor <;> intro _ <;> trivial
    · constructor <;> intro _ <;> rfl
    · split at hexec <;> cases hexec
      constructor <;> intro _ <;> trivial
  | lock mutex | unlock mutex =>
    cases choice <;> simp only [exec] at hexec <;> try cases hexec
    split at hexec <;> cases hexec
    cases mutex <;> constructor <;> intro _ <;> trivial
  | bumpGeneration policy =>
    cases choice <;> cases hexec
    cases policy <;> constructor <;> intro _ <;> trivial
  | send target text =>
    cases choice <;> cases hexec
    obtain ⟨hview, hroll⟩ := Prod.mk.inj (s.apart_sendText target text.bytes)
    exact ⟨fun _ => hview, fun _ => hroll, fun _ => s.rest_sendText target text.bytes⟩
  | addOnline username =>
    cases choice with
    | proceed =>
      have hadd : s.addOnline conn username = (result, s') := Option.some.inj hexec
      unfold Shared.addOnline at hadd
      split at hadd <;> cases hadd <;> constructor <;> intro _ <;> trivial
    | _ => cases hexec
  | findOnline username =>
    cases choice <;> simp only [exec] at hexec <;> try cases hexec
    split at hexec <;> cases hexec <;> constructor <;> intro _ <;> trivial
  | beginOrResumeUpload | appendUploadBytes | finalizeUpload | cancelUpload | removeStored =>
    cases choice with
    | file outcome =>
      obtain ⟨store, -, rfl⟩ := store_of_withStore hexec
      constructor <;> intro _ <;> trivial
    | _ => cases hexec
  | revokeGroupOffers | deliverAsync =>
    cases choice <;> cases hexec
    exact ⟨fun _ => s.view_setSession rfl, fun _ => rfl, fun hframed => by cases hframed⟩
  | advancePump index =>
    cases choice <;> simp only [exec, Option.map_eq_some_iff] at hexec <;> try cases hexec
    rename_i hadvance
    obtain ⟨hadvance, heq⟩ := hadvance
    cases heq
    obtain ⟨hview, hroll⟩ := Prod.mk.inj (s.apart_advancePump hadvance)
    exact ⟨fun _ => hview, fun _ => hroll, fun hframed => by cases hframed⟩
  | _ =>
    cases choice <;> cases hexec
    constructor <;> intro _ <;> trivial

end Exec

end ChatRoom
