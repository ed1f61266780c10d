import ChatRoom.Proof.Tracking

/-! # The cached recipients of group messages -/

namespace ChatRoom

open Interleaving

variable {db : Database} {update : Update} {result : update.Result}

def Fact.OfGroup (name : Bytes) : Fact → Prop
  | .group other _ | .member other _ | .members other _ => other = name
  | _ => False

namespace Database

theorem SameGroup.refl (db : Database) (name : Bytes) : SameGroup db db name := ⟨rfl, rfl⟩

theorem SameGroup.holds {db' : Database} {name : Bytes} {fact : Fact}
    (hsame : SameGroup db db' name) (hgroup : fact.OfGroup name) (hholds : fact.Holds db) :
    fact.Holds db' := by
  obtain ⟨hinfo, hmembers⟩ := hsame
  cases fact with
  | group other info =>
    cases hgroup
    exact hinfo.trans hholds
  | member other username =>
    cases hgroup
    rw [Fact.Holds, hmembers]
    exact hholds
  | members other usernames =>
    cases hgroup
    exact hmembers.trans hholds
  | _ => exact hgroup.elim

/-- The cached group is the one in the tables, without the user itself. -/
def GroupCacheMatches (db : Database) (session : ClientSession) : Prop :=
  ∃ info, db.getGroup session.realtimeGroupName = some info ∧ info.id = session.realtimeGroupId ∧
    session.username ∈ db.listGroupMemberUsernames session.realtimeGroupName ∧
    session.realtimeGroupRecipients =
      (db.listGroupMemberUsernames session.realtimeGroupName).filter
        fun member => member ≠ session.username

theorem GroupCacheMatches.same {db' : Database} {session : ClientSession}
    (hsame : SameGroup db db' session.realtimeGroupName) (hmatches : db.GroupCacheMatches session) :
    db'.GroupCacheMatches session := by
  obtain ⟨info, hinfo, hid, hmember, hrecipients⟩ := hmatches
  refine ⟨info, hsame.1.trans hinfo, hid, ?_, ?_⟩
  · rw [hsame.2]
    exact hmember
  · rw [hsame.2]
    exact hrecipients

theorem groupCacheMatches_of_known {session : ClientSession} {facts : List Fact}
    (hholds : ∀ fact ∈ facts, fact.OfGroup session.realtimeGroupName → fact.Holds db)
    (hknown : Progress.GroupKnown facts session.realtimeGroupName session.realtimeGroupId
      session.realtimeGroupRecipients session.username) : db.GroupCacheMatches session := by
  obtain ⟨info, members, hinfo, hid, hmember, hmembers, hrecipients⟩ := hknown
  have hlist : db.listGroupMemberUsernames session.realtimeGroupName = members :=
    hholds _ hmembers rfl
  refine ⟨info, hholds _ hinfo rfl, hid, hholds _ hmember rfl, ?_⟩
  rw [hlist]
  exact hrecipients

end Database

open Database

def View.GroupPending (v : View) : Prop := ∃ conn update, v.unpublishedGroup conn = some update

/-- A cache of the current generation is right unless a change is not published yet. -/
def View.GroupCacheRight (v : View) (session : ClientSession) : Prop :=
  session.realtimeGroupGeneration = v.groupGeneration →
    v.db.GroupCacheMatches session ∨ v.GroupPending

def View.GroupsUndisturbed (v : View) (conn : ConnId) (update : Update) : Prop :=
  ∀ other task name, other ≠ conn → v.running other = some task →
    task.request.enteredGroup = some name →
    ∀ result db, v.db.apply update = .ok (result, db) → SameGroup v.db db name

def GroupCond (v : View) (conn : ConnId) (choice : Choice) : Act → Prop
  | .update update =>
    (∀ error, choice = .failLate error → ∀ result db, v.db.apply update = .ok (result, db) →
      ∀ name, SameGroup v.db db name) ∧ v.GroupsUndisturbed conn update
  | _ => True

/-- What a handler knows of a group holds until the group changes, which it learns from the
generation. -/
structure GroupTracks (st : Progress) (v : View) : Prop where
  entering : ∀ name, st.task.request.enteredGroup = some name →
    ∀ fact ∈ st.known, fact.OfGroup name → fact.Holds v.db
  fresh : ∀ generation, st.seenGroup = some generation →
    generation < v.groupGeneration ∨ v.GroupPending ∨
      ∀ fact ∈ st.fresh, ∀ name, fact.OfGroup name → fact.Holds v.db

/-- What other tasks may do to the groups meanwhile. -/
def GroupRely (conn : ConnId) (v v' : View) : Prop :=
  (∀ task name, v.running conn = some task → task.request.enteredGroup = some name →
    SameGroup v.db v'.db name) ∧
    (v.groupGeneration < v'.groupGeneration ∨ v'.GroupPending ∨
      (¬v.GroupPending ∧ ∀ name, SameGroup v.db v'.db name))

def groupLayer : Layer where
  inv := fun s => ∀ conn, s.view.GroupCacheRight (s.view.core conn)
  rely := fun conn s s' => GroupRely conn s.view s'.view
  cond := fun conn action choice s => GroupCond s.view conn choice action
  shown := fun _ _ _ _ _ => True
  tracks := fun _ st s => GroupTracks st s.view

variable {conn : ConnId} {choice : Choice} {st st' : Progress} {v v' : View} {action : Act}

theorem View.groupPending_commit (hpublished : update.published .group result = true) :
    (v.commit conn update result db).GroupPending := by
  refine ⟨conn, update, ?_⟩
  simp [View.commit, hpublished]

theorem View.GroupPending.commit (hpending : v.GroupPending) (conn : ConnId) (update : Update)
    (result : update.Result) (db : Database) : (v.commit conn update result db).GroupPending := by
  by_cases hpublished : update.published .group result = true
  · exact View.groupPending_commit hpublished
  · obtain ⟨committer, earlier, hunpublished⟩ := hpending
    refine ⟨committer, earlier, ?_⟩
    simp only [View.commit, hpublished]
    exact hunpublished

theorem GroupRely.of_same (hdb : v'.db = v.db)
    (hpending : v.GroupPending → v'.GroupPending) : GroupRely conn v v' := by
  refine ⟨fun _ name _ _ => ?_, ?_⟩
  · rw [hdb]
    exact SameGroup.refl _ _
  · by_cases h : v.GroupPending
    · exact .inr (.inl (hpending h))
    · refine .inr (.inr ⟨h, fun name => ?_⟩)
      rw [hdb]
      exact SameGroup.refl _ _

namespace GroupTracks

theorem stable (hgroup : GroupTracks st v) (htracks : Tracks conn st v)
    (huntouched : Untouched conn v v') (hrely : GroupRely conn v v') : GroupTracks st v' := by
  constructor
  · intro name hname fact hfact hof
    exact (hrely.1 st.task name htracks.running hname).holds hof
      (hgroup.entering name hname fact hfact hof)
  · intro generation hseen
    rcases hgroup.fresh generation hseen with hlt | hpending | hfacts
    · exact .inl (hlt.trans_le huntouched.groupLe)
    · rcases hrely.2 with hbumped | hpending' | ⟨hnone, -⟩
      · exact .inl ((htracks.seenGroup generation hseen).trans_lt hbumped)
      · exact .inr (.inl hpending')
      · exact absurd hpending hnone
    · rcases hrely.2 with hbumped | hpending' | ⟨-, hsame⟩
      · exact .inl ((htracks.seenGroup generation hseen).trans_lt hbumped)
      · exact .inr (.inl hpending')
      · exact .inr (.inr fun fact hfact name hof =>
          (hsame name).holds hof (hfacts fact hfact name hof))

theorem learn (hgroup : GroupTracks st v) {facts : List Fact}
    (hfacts : ∀ fact ∈ facts, fact.Holds v.db) : GroupTracks (st.learn facts) v := by
  constructor
  · intro name hname fact hfact hof
    rcases List.mem_append.mp hfact with hnew | hold
    · exact hfacts fact hnew
    · exact hgroup.entering name hname fact hold hof
  · intro generation hseen
    rcases hgroup.fresh generation hseen with hlt | hpending | hfresh
    · exact .inl hlt
    · exact .inr (.inl hpending)
    · refine .inr (.inr fun fact hfact name hof => ?_)
      rcases List.mem_append.mp hfact with hnew | hold
      · exact hfacts fact hnew
      · exact hfresh fact hold name hof

theorem forget : GroupTracks st.forget v where
  entering := fun _ _ _ hfact => absurd hfact List.not_mem_nil
  fresh := fun _ _ => .inr (.inr fun _ hfact => absurd hfact List.not_mem_nil)

theorem commit (happly : v.db.apply update = .ok (result, db)) :
    GroupTracks (st.commit update result) (v.commit conn update result db) where
  entering := fun _ _ fact hnew _ => (facts_apply happly fact hnew).1
  fresh := fun _ _ => .inr (.inr fun _ hfact => absurd hfact List.not_mem_nil)

end GroupTracks

namespace Effect

theorem groupTracks (heffect : Effect conn choice st v action st' v')
    (htracks : Tracks conn st v) (hgroup : GroupTracks st v) : GroupTracks st' v' := by
  cases heffect with
  | unseen | lockFriend | unlockFriend | lockGroup | unlockGroup | loadDirect | bumpDirect =>
    exact { hgroup with }
  | learned hfacts => exact hgroup.learn hfacts
  | committed hmay happly => exact .commit happly
  | late | refused => exact .forget
  | loadGroup =>
    exact { hgroup with
      fresh := fun _ _ => .inr (.inr fun _ hfact => absurd hfact List.not_mem_nil) }
  | bumpGroup =>
    exact { hgroup with
      fresh := fun generation hseen =>
        .inl (Nat.lt_succ_of_le (htracks.seenGroup generation hseen)) }
  | @assigned a hmay =>
    refine { hgroup with entering := fun name hname fact hfact hof => ?_ }
    refine hgroup.entering name hname fact ?_ hof
    simp only [Progress.afterAssign] at hfact
    split at hfact
    · exact absurd hfact List.not_mem_nil
    · exact hfact

theorem groupRely (heffect : Effect conn choice st v action st' v')
    (hcond : GroupCond v conn choice action) {other : ConnId} (hne : other ≠ conn) :
    GroupRely other v v' := by
  cases heffect with
  | @committed update result db hmay happly =>
    refine ⟨fun task name hrunning hname => hcond.2 other task name hne hrunning hname _ _ happly,
      ?_⟩
    by_cases hpending : v.GroupPending
    · exact .inr (.inl (hpending.commit conn update result db))
    · by_cases hpublished : update.published .group result = true
      · exact .inr (.inl (View.groupPending_commit hpublished))
      · exact .inr (.inr ⟨hpending, sameGroup_apply happly (Bool.not_eq_true _ ▸ hpublished)⟩)
  | late hmay hchoice happly =>
    have hsame := hcond.1 _ hchoice _ _ happly
    refine ⟨fun _ name _ _ => hsame name, ?_⟩
    by_cases hpending : v.GroupPending
    · exact .inr (.inl hpending)
    · exact .inr (.inr ⟨hpending, hsame⟩)
  | bumpGroup =>
    exact ⟨fun _ name _ _ => SameGroup.refl _ _, .inl (Nat.lt_succ_self _)⟩
  | _ => exact GroupRely.of_same rfl id

theorem groupCacheRight_assign {a : Assign} (hbase : Base v) (htracks : Tracks conn st v)
    (hgroup : GroupTracks st v) (hmay : st.MayAssign a)
    (hright : v.GroupCacheRight st.core) : v.GroupCacheRight (st.core.assign a) := by
  intro hgeneration
  have houtdated : ∀ {generation : Nat} {p : Prop}, generation < v.groupGeneration →
      generation = v.groupGeneration → p := by
    intro generation p hlt heq
    exact absurd heq hlt.ne
  have hgroupLt := hbase.groupLt conn
  rw [htracks.core] at hgroupLt
  cases a with
  | login username => exact houtdated (hgroupLt hmay.1) hgeneration
  | logout => exact houtdated hbase.groupPos hgeneration
  | accountDeleted => exact houtdated (htracks.staleGroup hmay.2.1) hgeneration
  | groupEntry name id recipients =>
    obtain ⟨hname, hknown⟩ := hmay
    exact .inl (groupCacheMatches_of_known (hgroup.entering name hname) hknown)
  | enteredGroup generation =>
    obtain ⟨-, -, hname, hknown⟩ := hmay
    exact .inl (groupCacheMatches_of_known (hgroup.entering _ hname) hknown)
  | groupCache name id recipients generation =>
    obtain ⟨-, hseen, hknown⟩ := hmay
    rcases hgroup.fresh generation hseen with hlt | hpending | hfresh
    · exact houtdated hlt hgeneration
    · exact .inr hpending
    · refine .inl (groupCacheMatches_of_known (fun fact hfact hof => ?_) hknown)
      exact hfresh fact hfact _ hof
  | enteredPrivate generation => exact houtdated hbase.groupPos hgeneration
  | _ => exact hright hgeneration

theorem groupCacheRight (heffect : Effect conn choice st v action st' v') (hbase : Base v)
    (htracks : Tracks conn st v) (hcond : GroupCond v conn choice action)
    (hgroup : GroupTracks st v) (hright : ∀ other, v.GroupCacheRight (v.core other))
    (other : ConnId) : v'.GroupCacheRight (v'.core other) := by
  cases heffect with
  | @committed update result db hmay happly =>
    intro hgeneration
    rcases hright other hgeneration with hmatches | hpending
    · by_cases hpublished : update.published .group result = true
      · exact .inr (View.groupPending_commit hpublished)
      · exact .inl (hmatches.same (sameGroup_apply happly (Bool.not_eq_true _ ▸ hpublished) _))
    · exact .inr (hpending.commit conn update result db)
  | late hmay hchoice happly =>
    intro hgeneration
    rcases hright other hgeneration with hmatches | hpending
    · exact .inl (hmatches.same (hcond.1 _ hchoice _ _ happly _))
    · exact .inr hpending
  | bumpGroup =>
    intro hgeneration
    exact absurd hgeneration (Nat.lt_succ_of_le (hbase.groupLe other)).ne
  | @assigned a hmay =>
    by_cases heq : other = conn
    · subst heq
      rw [View.assign_core_self, htracks.core]
      have hcurrent := hright other
      rw [htracks.core] at hcurrent
      have hassigned := groupCacheRight_assign hbase htracks hgroup hmay hcurrent
      exact hassigned
    · rw [View.assign_core_of_ne v heq]
      exact hright other
  | _ => exact hright other

end Effect

theorem groupLayer_sound (crypto : Crypto) : groupLayer.Sound crypto where
  stable := fun huntouched hrely htracks hgroup => hgroup.stable htracks huntouched hrely
  step := by
    intro conn st action choice result s s' hallowed hbase hright htracks hgroup hcond hexec
    have heffect := Effect.of_exec hallowed hexec
    exact ⟨heffect.groupCacheRight hbase htracks hcond hgroup hright,
      fun other hne => heffect.groupRely hcond hne, trivial, heffect.groupTracks htracks hgroup⟩
  start := by
    intro conn task s s' hidle hright hstarted
    have hview := hstarted.view
    refine ⟨fun other => ?_, fun other hne => ?_, ?_⟩
    · rw [hview]
      exact hright other
    · show GroupRely other s.view s'.view
      rw [hview]
      exact GroupRely.of_same rfl id
    · constructor
      · exact fun _ _ fact hfact => absurd hfact List.not_mem_nil
      · exact fun _ hseen => nomatch hseen
  finish := by
    intro conn st choice s hfree hright htracks hgroup
    exact ⟨fun other => hright other, fun other hne => GroupRely.of_same rfl id, trivial⟩

end ChatRoom
