import ChatRoom.Proof.Tracking

/-! # The cached permission for private messages -/

namespace ChatRoom

open Interleaving

variable {db : Database} {update : Update} {result : update.Result}

def Fact.Direct : Fact → Prop
  | .userExists _ | .friends _ _ | .notBlocked _ _ => True
  | _ => False

theorem direct_of_mem_permitFacts {sender recipient : Bytes} {fact : Fact}
    (hfact : fact ∈ permitFacts sender recipient) : fact.Direct := by
  simp only [permitFacts, List.mem_cons, List.not_mem_nil, or_false] at hfact
  rcases hfact with rfl | rfl | rfl | rfl <;> trivial

theorem Database.directFact_apply {db' : Database} {fact : Fact} (hdirect : fact.Direct)
    (hchanges : update.changes .direct = false) (happly : db.apply update = .ok (result, db'))
    (hholds : fact.Holds db) : fact.Holds db' := by
  obtain ⟨hfriends, hblocks, husers⟩ := apply_directTables hchanges happly
  cases fact with
  | userExists username => exact husers username hholds
  | friends left right =>
    simpa only [Fact.Holds, areFriends, hfriends] using hholds
  | notBlocked blocker blocked =>
    simpa only [Fact.Holds, isFriendBlocked, hblocks] using hholds
  | _ => exact hdirect.elim

def View.Revoking (v : View) (sender recipient : Bytes) : Prop :=
  ∃ conn update, v.unpublishedDirect conn = some update ∧ update.revokes sender recipient

def View.PrivateCacheRight (v : View) (session : ClientSession) : Prop :=
  session.realtimePrivateGeneration = v.directGeneration →
    v.db.permits session.username session.realtimePrivateTarget = true ∨
      v.Revoking session.username session.realtimePrivateTarget

def View.EntersUndisturbed (v : View) (conn : ConnId) (update : Update) : Prop :=
  ∀ other task target, other ≠ conn → v.running other = some task →
    task.request.enteredTarget = some target → ¬update.revokes task.session.username target

def View.CacheSettled (v : View) (conn : ConnId) : Prop :=
  ∀ task, v.running conn = some task →
    task.request.messageTarget = some (v.core conn).realtimePrivateTarget →
    (v.core conn).realtimePrivateGeneration = v.directGeneration →
    ¬v.Revoking (v.core conn).username (v.core conn).realtimePrivateTarget

/-- The condition on the steps. With `settled`, a current cache is only consulted while no
unpublished change concerns it. -/
def DirectCond (settled : Bool) (v : View) (conn : ConnId) (choice : Choice) : Act → Prop
  | .update update =>
    (∀ error, choice = .failLate error → ∀ sender recipient,
      ¬update.revokes sender recipient) ∧ v.EntersUndisturbed conn update
  | .loadGeneration .direct => settled = true → v.CacheSettled conn
  | _ => True

structure DirectTracks (settled : Bool) (st : Progress) (v : View) : Prop where
  guarded : st.friend = true → ∀ fact ∈ st.guarded, fact.Direct → fact.Holds v.db
  entering : ∀ target, st.task.request.enteredTarget = some target →
    ∀ fact ∈ permitFacts st.task.session.username target, fact ∈ st.known → fact.Holds v.db
  cached : settled = true → st.friend = true →
    st.guardedDirect = some st.core.realtimePrivateGeneration →
    st.task.request.messageTarget = some st.core.realtimePrivateTarget →
    v.db.permits st.core.username st.core.realtimePrivateTarget = true

def DirectRely (conn : ConnId) (v v' : View) : Prop :=
  (v.friendMutex = some conn → ∀ fact : Fact, fact.Direct → fact.Holds v.db → fact.Holds v'.db) ∧
    ∀ task target, v.running conn = some task → task.request.enteredTarget = some target →
      ∀ fact ∈ permitFacts task.session.username target, fact.Holds v.db → fact.Holds v'.db

def directLayer (settled : Bool) : Layer where
  inv := fun s => ∀ conn, s.view.PrivateCacheRight (s.view.core conn)
  rely := fun conn s s' => DirectRely conn s.view s'.view
  cond := fun conn action choice s => DirectCond settled s.view conn choice action
  shown := fun _ action _ s _ => settled = true → ∀ payload,
    action = .update (.addPrivateMessageWithDelivery payload) →
    s.db.permits payload.senderUsername payload.recipientUsername = true
  tracks := fun _ st s => DirectTracks settled st s.view

variable {settled : Bool} {conn : ConnId} {choice : Choice} {st st' : Progress} {v v' : View}
  {action : Act}

namespace DirectTracks

theorem forget : DirectTracks settled st.forget v where
  guarded := fun _ _ hfact => absurd hfact List.not_mem_nil
  entering := fun _ _ _ _ hfact => absurd hfact List.not_mem_nil
  cached := fun _ _ hguarded => nomatch hguarded

theorem commit (happly : v.db.apply update = .ok (result, db)) :
    DirectTracks settled (st.commit update result) (v.commit conn update result db) where
  guarded := fun _ _ hfact => absurd hfact List.not_mem_nil
  entering := fun _ _ fact _ hnew => (Database.facts_apply happly fact hnew).1
  cached := fun _ _ hguarded => nomatch hguarded

section

variable (hdirect : DirectTracks settled st v)
include hdirect

theorem permits_of_guarded (hfriend : st.friend = true) {sender recipient : Bytes}
    (hpermitted : Progress.Permitted st.guarded sender recipient) :
    v.db.permits sender recipient = true := by
  rw [Database.permits_iff]
  intro fact hfact
  exact hdirect.guarded hfriend fact (hpermitted fact hfact) (direct_of_mem_permitFacts hfact)

theorem permits_of_pairKnown {target : Bytes} (hknown : st.PairKnown target) :
    v.db.permits st.core.username target = true := by
  rcases hknown with ⟨hfriend, hpermitted⟩ | ⟨hentered, husername, hpermitted⟩
  · exact hdirect.permits_of_guarded hfriend hpermitted
  · rw [husername, Database.permits_iff]
    intro fact hfact
    exact hdirect.entering target hentered fact hfact (hpermitted fact hfact)

theorem stable (htracks : Tracks conn st v) (hrely : DirectRely conn v v') :
    DirectTracks settled st v' := by
  constructor
  · intro hfriend fact hfact hfactDirect
    exact hrely.1 (htracks.friend.mpr hfriend) fact hfactDirect
      (hdirect.guarded hfriend fact hfact hfactDirect)
  · intro target htarget fact hfact hknown
    exact hrely.2 st.task target htracks.running htarget fact hfact
      (hdirect.entering target htarget fact hfact hknown)
  · intro hsettled hfriend hguarded hmessage
    have hpermits := hdirect.cached hsettled hfriend hguarded hmessage
    rw [Database.permits_iff] at hpermits ⊢
    intro fact hfact
    exact hrely.1 (htracks.friend.mpr hfriend) fact (direct_of_mem_permitFacts hfact)
      (hpermits fact hfact)

theorem learn {facts : List Fact} (hfacts : ∀ fact ∈ facts, fact.Holds v.db) :
    DirectTracks settled (st.learn facts) v := by
  refine ⟨fun hfriend fact hfact hfactDirect => ?_, fun target htarget fact hfact hknown => ?_,
    hdirect.cached⟩
  · have hfriend' : st.friend = true := hfriend
    rw [Progress.learn_guarded, if_pos hfriend'] at hfact
    rcases List.mem_append.mp hfact with hnew | hold
    · exact hfacts fact hnew
    · exact hdirect.guarded hfriend' fact hold hfactDirect
  · rcases List.mem_append.mp hknown with hnew | hold
    · exact hfacts fact hnew
    · exact hdirect.entering target htarget fact hfact hold

end

end DirectTracks

namespace Effect

theorem directTracks (heffect : Effect conn choice st v action st' v')
    (htracks : Tracks conn st v) (hright : v.PrivateCacheRight (v.core conn))
    (hcond : DirectCond settled v conn choice action) (hdirect : DirectTracks settled st v) :
    DirectTracks settled st' v' := by
  cases heffect with
  | unseen | loadGroup | bumpGroup | lockGroup | unlockGroup => exact { hdirect with }
  | learned hfacts => exact hdirect.learn hfacts
  | committed hmay happly => exact .commit happly
  | late | refused => exact .forget
  | lockFriend hfree =>
    refine { hdirect with guarded := ?_, cached := ?_ }
    · exact fun _ fact hfact => absurd hfact List.not_mem_nil
    · exact fun _ _ hguarded => nomatch hguarded
  | unlockFriend hheld =>
    refine { hdirect with guarded := ?_, cached := ?_ }
    · exact fun hfriend => nomatch hfriend
    · exact fun _ hfriend => nomatch hfriend
  | loadDirect =>
    refine { hdirect with cached := ?_ }
    intro hsettled hfriend hguarded hmessage
    -- the cache is compared here: it is current, and no unpublished change concerns it
    have hfriend' : st.friend = true := hfriend
    rw [if_pos hfriend', Option.some.injEq] at hguarded
    have hcore := htracks.core
    rw [hcore] at hright
    rcases hright hguarded.symm with hpermits | hrevoking
    · exact hpermits
    · refine absurd hrevoking ?_
      rw [← hcore]
      apply hcond hsettled st.task htracks.running
      · rw [hcore]
        exact hmessage
      · rw [hcore]
        exact hguarded.symm
  | bumpDirect => exact { hdirect with cached := fun _ _ hguarded => nomatch hguarded }
  | @assigned a hmay =>
    refine { hdirect with entering := ?_, cached := ?_ }
    rotate_left
    · exact fun _ _ hguarded => nomatch hguarded
    intro target htarget fact hfact hknown
    refine hdirect.entering target htarget fact hfact ?_
    simp only [Progress.afterAssign] at hknown
    split at hknown
    · exact absurd hknown List.not_mem_nil
    · exact hknown

theorem directRely (heffect : Effect conn choice st v action st' v') (htracks : Tracks conn st v)
    (hcond : DirectCond settled v conn choice action) {other : ConnId} (hne : other ≠ conn) :
    DirectRely other v v' := by
  have hupdate : ∀ {update : Update} {result : update.Result} {db : Database},
      st.MayUpdate update → v.EntersUndisturbed conn update →
      v.db.apply update = .ok (result, db) → DirectRely other v { v with db } := by
    intro update result db hmay hundisturbed happly
    constructor
    · intro howner fact hfactDirect hholds
      have hchanges : update.changes .direct = false := by
        by_contra hchanges
        have hfriend := htracks.friend.mpr (hmay.1 (Bool.not_eq_false _ ▸ hchanges)).1
        rw [howner, Option.some.injEq] at hfriend
        exact hne hfriend
      exact Database.directFact_apply hfactDirect hchanges happly hholds
    · intro task target hrunning htarget fact hfact hholds
      have hrevokes := hundisturbed other task target hne hrunning htarget
      exact Database.permitFact_apply hfact hrevokes happly hholds
  cases heffect with
  | committed hmay happly => exact hupdate hmay hcond.2 happly
  | late hmay hchoice happly => exact hupdate hmay hcond.2 happly
  | _ => exact ⟨fun _ _ _ hholds => hholds, fun _ _ _ _ _ _ hholds => hholds⟩

theorem privateCacheRight_assign {a : Assign} (hbase : Base v) (htracks : Tracks conn st v)
    (hdirect : DirectTracks settled st v) (hmay : st.MayAssign a)
    (hright : v.PrivateCacheRight st.core) : v.PrivateCacheRight (st.core.assign a) := by
  intro hgeneration
  have houtdated : ∀ {generation : Nat} {p : Prop}, generation < v.directGeneration →
      generation = v.directGeneration → p := by
    intro generation p hlt heq
    exact absurd heq hlt.ne
  have hprivateLt := hbase.privateLt conn
  rw [htracks.core] at hprivateLt
  cases a with
  | login username => exact houtdated (hprivateLt hmay.1) hgeneration
  | logout => exact houtdated hbase.directPos hgeneration
  | accountDeleted => exact houtdated (htracks.staleDirect hmay.1) hgeneration
  | privateTarget target => exact .inl (hdirect.permits_of_pairKnown hmay)
  | privateGeneration generation => exact .inl (hdirect.permits_of_pairKnown hmay.2.2)
  | privateCache target generation => exact .inl (hdirect.permits_of_pairKnown hmay.2.2)
  | enteredPrivate generation => exact .inl (hdirect.permits_of_pairKnown hmay.2.2)
  | enteredGroup generation => exact houtdated hbase.directPos hgeneration
  | _ => exact hright hgeneration

theorem privateCacheRight (heffect : Effect conn choice st v action st' v') (hbase : Base v)
    (htracks : Tracks conn st v) (hcond : DirectCond settled v conn choice action)
    (hdirect : DirectTracks settled st v) (hright : ∀ other, v.PrivateCacheRight (v.core other))
    (other : ConnId) : v'.PrivateCacheRight (v'.core other) := by
  cases heffect with
  | @committed update result db hmay happly =>
    intro hgeneration
    rcases hright other hgeneration with hpermits | ⟨committer, earlier, hunpublished, hrevokes⟩
    · rcases Database.permits_apply happly hpermits with hpermits | ⟨hpublished, hrevokes⟩
      · exact .inl hpermits
      · refine .inr ⟨conn, update, ?_, hrevokes⟩
        simp [View.commit, hpublished]
    · refine .inr ⟨committer, earlier, ?_, hrevokes⟩
      simp only [View.commit]
      split
      · rename_i hpublished
        have howed := (hmay.1 (Update.published_changes hpublished)).2
        have hne : committer ≠ conn := by
          rintro rfl
          rw [htracks.owedDirect, howed] at hunpublished
          cases hunpublished
        rw [Function.update_of_ne hne]
        exact hunpublished
      · exact hunpublished
  | late hmay hchoice happly =>
    intro hgeneration
    rcases hright other hgeneration with hpermits | hrevoking
    · rcases Database.permits_apply happly hpermits with hpermits | ⟨-, hrevokes⟩
      · exact .inl hpermits
      · exact absurd hrevokes (hcond.1 _ hchoice _ _)
    · exact .inr hrevoking
  | bumpDirect =>
    intro hgeneration
    exact absurd hgeneration (Nat.lt_succ_of_le (hbase.privateLe other)).ne
  | @assigned a hmay =>
    by_cases heq : other = conn
    · subst heq
      rw [View.assign_core_self, htracks.core]
      have hcurrent := hright other
      rw [htracks.core] at hcurrent
      have hassigned := privateCacheRight_assign hbase htracks hdirect hmay hcurrent
      exact hassigned
    · rw [View.assign_core_of_ne v heq]
      exact hright other
  | _ => exact hright other

end Effect

theorem directLayer_sound (settled : Bool) (crypto : Crypto) :
    (directLayer settled).Sound crypto where
  stable := fun _ hrely htracks hdirect => hdirect.stable htracks hrely
  step := by
    intro conn st action choice result s s' hallowed hbase hright htracks hdirect hcond hexec
    have heffect := Effect.of_exec hallowed hexec
    refine ⟨heffect.privateCacheRight hbase htracks hcond hdirect hright,
      fun other hne => heffect.directRely htracks hcond hne, ?_,
      heffect.directTracks htracks (hright conn) hcond hdirect⟩
    rintro hsettled payload rfl
    obtain ⟨hfriend, hsender, hpermitted | ⟨hmessage, htarget, hgeneration⟩⟩ := hallowed.1.2.2.1
    · rw [hsender]
      exact hdirect.permits_of_guarded hfriend hpermitted
    · rw [hsender, ← htarget]
      refine hdirect.cached hsettled hfriend hgeneration ?_
      rw [htarget]
      exact hmessage
  start := by
    intro conn task s s' hidle hright hstarted
    have hview := hstarted.view
    refine ⟨fun other => ?_, fun other hne => ?_, ?_⟩
    · rw [hview]
      exact hright other
    · show DirectRely other s.view s'.view
      rw [hview]
      exact ⟨fun _ _ _ hholds => hholds, fun _ _ _ _ _ _ hholds => hholds⟩
    · constructor
      · exact fun hfriend => nomatch hfriend
      · exact fun _ _ fact _ hfact => absurd hfact List.not_mem_nil
      · exact fun _ hfriend => nomatch hfriend
  finish := by
    intro conn st choice s hfree hright htracks hdirect
    refine ⟨fun other => hright other, fun other hne => ?_, fun _ payload haction => nomatch haction⟩
    exact ⟨fun _ _ _ hholds => hholds, fun _ _ _ _ _ _ hholds => hholds⟩

end ChatRoom
