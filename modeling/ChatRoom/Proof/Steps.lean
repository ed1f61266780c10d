import ChatRoom.Proof.Handlers

/-!
# What one disciplined step can do

`Effect` lists the steps of a handler that keeps the discipline, with the progress of the handler
and the view of the state after each of them.
-/

namespace ChatRoom

open Interleaving

namespace View

variable (v : View)
variable {action : Act} {result : action.Result}

def commit (conn : ConnId) (update : Update) (result : update.Result) (db : Database) : View :=
  { v with
    db
    unpublishedDirect :=
      if update.published .direct result then
        Function.update v.unpublishedDirect conn (some update)
      else
        v.unpublishedDirect
    unpublishedGroup :=
      if update.published .group result then
        Function.update v.unpublishedGroup conn (some update)
      else
        v.unpublishedGroup }

def bumpDirect (conn : ConnId) : View :=
  { v with
    directGeneration := v.directGeneration + 1
    unpublishedDirect := Function.update v.unpublishedDirect conn none }

def bumpGroup (conn : ConnId) : View :=
  { v with
    groupGeneration := v.groupGeneration + 1
    unpublishedGroup := Function.update v.unpublishedGroup conn none }

def assign (conn : ConnId) (a : Assign) : View :=
  { v with core := Function.update v.core conn ((v.core conn).assign a).core }

def setRunning (conn : ConnId) (task : Option Task) : View :=
  { v with running := Function.update v.running conn task }

theorem assign_core_self (conn : ConnId) (a : Assign) :
    (v.assign conn a).core conn = ((v.core conn).assign a).core :=
  Function.update_self _ _ _

theorem assign_core_of_ne {conn other : ConnId} (hne : other ≠ conn) (a : Assign) :
    (v.assign conn a).core other = v.core other :=
  Function.update_of_ne hne _ _

end View

/-- **What a step does** to the view of the permissions, by the progress of its handler. -/
inductive Effect (conn : ConnId) (choice : Choice) (st : Progress) (v : View) :
    Act → Progress → View → Prop where
  | unseen {action : Act} (aside : Aside) :
      Effect conn choice st v action { st with toAside := aside } v
  | learned {q : Query} {facts : List Fact} (hfacts : ∀ fact ∈ facts, fact.Holds v.db)
      (hfound : ∀ fact ∈ facts, fact.Found v.db) :
      Effect conn choice st v (.query q) (st.learn facts) v
  | committed {u : Update} {result : u.Result} {db : Database} (hmay : st.MayUpdate u)
      (happly : v.db.apply u = .ok (result, db)) :
      Effect conn choice st v (.update u) (st.commit u result) (v.commit conn u result db)
  | late {u : Update} {result : u.Result} {db : Database} {error : Bytes} (hmay : st.MayUpdate u)
      (hchoice : choice = .failLate error) (happly : v.db.apply u = .ok (result, db)) :
      Effect conn choice st v (.update u) st.forget { v with db }
  | refused {u : Update} (hmay : st.MayUpdate u) :
      Effect conn choice st v (.update u) st.forget v
  | lockFriend (hfree : v.friendMutex = none) :
      Effect conn choice st v (.lock .friend)
        { st with friend := true, guarded := [], guardedDirect := none }
        { v with friendMutex := some conn }
  | lockGroup (hfree : v.groupMutex = none) :
      Effect conn choice st v (.lock .group) { st with group := true }
        { v with groupMutex := some conn }
  | unlockFriend (hheld : v.friendMutex = some conn) :
      Effect conn choice st v (.unlock .friend)
        { st with friend := false, guarded := [], guardedDirect := none }
        { v with friendMutex := none }
  | unlockGroup (hheld : v.groupMutex = some conn) :
      Effect conn choice st v (.unlock .group) { st with group := false }
        { v with groupMutex := none }
  | loadDirect :
      Effect conn choice st v (.loadGeneration .direct)
        { st with
          seenDirect := some v.directGeneration
          guardedDirect := if st.friend then some v.directGeneration else none } v
  | loadGroup :
      Effect conn choice st v (.loadGeneration .group)
        { st with seenGroup := some v.groupGeneration, fresh := [] } v
  | bumpDirect :
      Effect conn choice st v (.bumpGeneration .direct)
        { st with owedDirect := none, staleDirect := true, guardedDirect := none }
        (v.bumpDirect conn)
  | bumpGroup :
      Effect conn choice st v (.bumpGeneration .group)
        { st with owedGroup := none, staleGroup := true } (v.bumpGroup conn)
  | assigned {a : Assign} (hmay : st.MayAssign a) :
      Effect conn choice st v (.assign a) (st.afterAssign a) (v.assign conn a)

namespace Effect

variable {crypto : Crypto} {conn : ConnId} {choice : Choice} {st : Progress} {s s' : Shared}

theorem of_unseen (hvisible : action.visible = false)
    (hafter : ∃ aside, st.after action result = { st with toAside := aside })
    (hexec : exec crypto conn action choice s = some (result, s')) :
    Effect conn choice st s.view action (st.after action result) s'.view := by
  obtain ⟨aside, hafter⟩ := hafter
  rw [(execFrame_of_exec hexec).view hvisible, hafter]
  exact .unseen aside

theorem of_query {q : Query} {result : Except Bytes q.Answer}
    (hexec : exec crypto conn (.query q) choice s = some (result, s')) :
    Effect conn choice st s.view (.query q) (st.after (.query q) result) s'.view := by
  cases choice with
  | proceed =>
    cases hexec
    rcases s.db.read_cases q with hread | ⟨error, hread⟩
    · rw [hread]
      exact .learned (fun fact hfact => (Database.facts_answer q fact hfact).1)
        fun fact hfact => (Database.facts_answer q fact hfact).2
    · rw [hread]
      exact .unseen st.toAside
  | fail error =>
    cases hexec
    exact .unseen st.toAside
  | _ => cases hexec

theorem of_update {u : Update} {result : Except Bytes u.Result} (hmay : st.MayUpdate u)
    (hexec : exec crypto conn (.update u) choice s = some (result, s')) :
    Effect conn choice st s.view (.update u) (st.after (.update u) result) s'.view := by
  cases choice with
  | proceed =>
    simp only [exec, Shared.execUpdate] at hexec
    split at hexec
    · rename_i happly
      cases hexec
      exact .committed hmay happly
    · cases hexec
      exact .refused hmay
    · cases hexec
  | fail error =>
    cases hexec
    exact .refused hmay
  | failLate error =>
    simp only [exec, Shared.execUpdate] at hexec
    split at hexec
    · rename_i happly
      cases hexec
      exact .late hmay rfl happly
    · cases hexec
  | _ => cases hexec

theorem of_mutex {mutex : Mutex} (haction : action = .lock mutex ∨ action = .unlock mutex)
    (hexec : exec crypto conn action choice s = some (result, s')) :
    Effect conn choice st s.view action (st.after action result) s'.view := by
  rcases haction with rfl | rfl
  all_goals
    cases choice <;> simp only [exec] at hexec <;> try cases hexec
    split at hexec
    · rename_i howner
      cases hexec
      cases mutex
      all_goals first
        | exact .lockFriend howner
        | exact .lockGroup howner
        | exact .unlockFriend howner
        | exact .unlockGroup howner
    · cases hexec

theorem of_assign {a : Assign} {result : Unit} (hmay : st.MayAssign a)
    (hexec : exec crypto conn (.assign a) choice s = some (result, s')) :
    Effect conn choice st s.view (.assign a) (st.after (.assign a) result) s'.view := by
  cases choice with
  | proceed =>
    cases hexec
    have hview : (s.setSession conn ((s.sessions conn).assign a)).view = s.view.assign conn a := by
      rw [Shared.view_setSession_core, ClientSession.core_assign]
      rfl
    rw [hview]
    exact .assigned hmay
  | _ => cases hexec

theorem of_exec (hallowed : st.Allowed action)
    (hexec : exec crypto conn action choice s = some (result, s')) :
    Effect conn choice st s.view action (st.after action result) s'.view := by
  cases action with
  | query q => exact of_query hexec
  | update u => exact of_update hallowed.1 hexec
  | lock mutex => exact of_mutex (.inl rfl) hexec
  | unlock mutex => exact of_mutex (.inr rfl) hexec
  | loadGeneration policy =>
    cases choice <;> cases hexec
    cases policy with
    | direct => exact .loadDirect
    | group => exact .loadGroup
  | bumpGeneration policy =>
    cases choice <;> cases hexec
    cases policy with
    | direct => exact .bumpDirect
    | group => exact .bumpGroup
  | assign a => exact of_assign hallowed hexec
  | session => exact of_unseen rfl ⟨_, rfl⟩ hexec
  | beginOrResumeUpload requested =>
    refine of_unseen rfl ?_ hexec
    cases result <;> exact ⟨_, rfl⟩
  | finalizeUpload upload =>
    refine of_unseen rfl ?_ hexec
    cases result <;> exact ⟨_, rfl⟩
  | removeStored path => exact of_unseen rfl ⟨_, rfl⟩ hexec
  | redis call =>
    obtain ⟨claimed, hcalled⟩ := st.called_eq call result
    exact of_unseen rfl ⟨_, hcalled⟩ hexec
  | addOnline username =>
    refine of_unseen rfl ?_ hexec
    cases result <;> exact ⟨_, rfl⟩
  | findOnline username =>
    refine of_unseen rfl ?_ hexec
    cases result with
    | none => exact ⟨_, rfl⟩
    | some target => exact ⟨_, Progress.met_eq⟩
  | finish => exact hallowed.elim
  | _ => exact of_unseen rfl ⟨_, rfl⟩ hexec

/-- A fact that is known was known before, or has just been learned. -/
theorem known_cases {st' : Progress} {v v' : View} (heffect : Effect conn choice st v action st' v')
    {fact : Fact} (hfact : fact ∈ st'.known) :
    fact ∈ st.known ∧ v'.db = v.db ∨ fact.Holds v'.db ∧ fact.Found v'.db := by
  cases heffect with
  | learned hfacts hfound =>
    rcases List.mem_append.mp hfact with hnew | hold
    · exact .inr ⟨hfacts fact hnew, hfound fact hnew⟩
    · exact .inl ⟨hold, rfl⟩
  | committed hmay happly => exact .inr (Database.facts_apply happly fact hfact)
  | late | refused => exact absurd hfact List.not_mem_nil
  | assigned hmay =>
    simp only [Progress.afterAssign] at hfact
    split at hfact
    · cases hfact
    · exact .inl ⟨hfact, rfl⟩
  | _ => exact .inl ⟨hfact, rfl⟩

end Effect

end ChatRoom
