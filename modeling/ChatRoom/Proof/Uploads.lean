import ChatRoom.Proof.Direct
import ChatRoom.Proof.Frames
import ChatRoom.Proof.Group

/-! # The permission behind a finished upload -/

namespace ChatRoom

open Interleaving Database

/-! ### Facts and progress -/

theorem Fact.holds_of_quiet {db db' : Database} {update : Update} {result : update.Result}
    {fact : Fact} (hdirect : update.changes .direct = false)
    (hgroup : update.changes .group = false) (happly : db.apply update = .ok (result, db'))
    (hholds : fact.Holds db) : fact.Holds db' := by
  have hsame : ∀ name, SameGroup db db' name := by
    intro name
    obtain ⟨hgroups, hmembers⟩ := apply_groupTables hgroup happly
    exact SameGroup.of_tables hgroups hmembers name
  cases fact with
  | userExists | friends | notBlocked =>
    exact Database.directFact_apply trivial hdirect happly hholds
  | group name info | member name username | members name usernames =>
    exact (hsame name).holds rfl hholds
  | recorded transferId username =>
    refine Database.recorded_apply ?_ happly hholds
    rintro username rfl
    cases hdirect
  | message | groupMessage | answered => exact hholds

/-- What an action leaves as it is in the progress of a handler. -/
structure Progress.Kept (st st' : Progress) (action : Act) : Prop where
  crypto : st'.crypto = st.crypto
  task : st'.task = st.task
  core : (∀ a, action ≠ .assign a) → st'.core = st.core
  noUpload : (∀ a, action ≠ .assign a) → action ≠ .session → st'.noUpload = st.noUpload
  noBinary : (∀ a, action ≠ .assign a) → action ≠ .session → st'.noBinary = st.noBinary
  begun : (∀ a, action ≠ .assign a) → (∀ requested, action ≠ .beginOrResumeUpload requested) →
    st'.begun = st.begun
  stored : action.storing = false → (∀ u, action = .update u → u.records = false) →
    st'.stored = st.stored
  offered : (∀ a, action ≠ .assign a) → action ≠ .session → ∀ id ∈ st'.offered, id ∈ st.offered
  deleted : (∀ a, action ≠ .assign a) → (∀ u, action ≠ .update u) → st'.deleted = st.deleted
  inProgress : action ≠ .session → (∀ transfer offset, action ≠ .deliverAsync transfer offset) →
    st'.inProgress = st.inProgress

theorem Progress.Kept.of_eq {st st' : Progress} {action : Act}
    (heq : (st'.crypto, st'.task, st'.core, st'.noUpload, st'.noBinary, st'.begun, st'.stored,
        st'.offered, st'.deleted, st'.inProgress) =
      (st.crypto, st.task, st.core, st.noUpload, st.noBinary, st.begun, st.stored, st.offered,
        st.deleted, st.inProgress)) :
    st.Kept st' action := by
  simp only [Prod.mk.injEq] at heq
  obtain ⟨hcrypto, htask, hcore, hnoUpload, hnoBinary, hbegun, hstored, hoffered, hdeleted,
    hinProgress⟩ := heq
  refine ⟨hcrypto, htask, fun _ => hcore, fun _ _ => hnoUpload, fun _ _ => hnoBinary, fun _ _ => hbegun,
    fun _ _ => hstored, ?_, fun _ _ => hdeleted, fun _ _ => hinProgress⟩
  intro _ _ id hid
  rwa [hoffered] at hid

theorem Progress.kept_forget (st : Progress) (u : Update) : st.Kept st.forget (.update u) :=
  have hsame : st.Kept st (.update u) := .of_eq rfl
  { hsame with offered := fun _ _ _ hid => absurd hid List.not_mem_nil }

theorem Progress.kept_met (st : Progress) (username : Bytes) (target : ConnId) {action : Act} :
    st.Kept (st.met username target) action := by
  unfold met
  split <;> exact .of_eq rfl

theorem Progress.kept_after (st : Progress) (action : Act) (result : action.Result) :
    st.Kept (st.after action result) action := by
  cases action with
  | query q => cases result <;> exact .of_eq rfl
  | update u =>
    cases result with
    | error error => exact st.kept_forget u
    | ok result =>
      refine { st.kept_forget u with
        stored := fun _ hrecords => ?_
        deleted := fun _ hupdate => absurd rfl (hupdate u) }
      show (if u.records then none else st.stored) = st.stored
      rw [hrecords u rfl, if_neg Bool.false_ne_true]
  | lock mutex | unlock mutex => cases mutex <;> exact .of_eq rfl
  | loadGeneration policy | bumpGeneration policy => cases policy <;> exact .of_eq rfl
  | beginOrResumeUpload requested =>
    cases result with
    | error error => exact .of_eq rfl
    | ok pair =>
      have hsame : st.Kept st (.beginOrResumeUpload requested) := .of_eq rfl
      exact { hsame with begun := fun _ hbegin => absurd rfl (hbegin requested) }
  | finalizeUpload upload =>
    have hsame : st.Kept st (.finalizeUpload upload) := .of_eq rfl
    cases result with
    | error error => exact hsame
    | ok path => exact { hsame with stored := fun hstoring => nomatch hstoring }
  | removeStored path =>
    have hsame : st.Kept st (.removeStored path) := .of_eq rfl
    exact { hsame with stored := fun hstoring => nomatch hstoring }
  | assign a =>
    have hsame : st.Kept st (.assign a) := .of_eq rfl
    exact { hsame with
      core := fun hassign => absurd rfl (hassign a)
      noUpload := fun hassign => absurd rfl (hassign a)
      noBinary := fun hassign => absurd rfl (hassign a)
      begun := fun hassign => absurd rfl (hassign a)
      offered := fun hassign => absurd rfl (hassign a)
      deleted := fun hassign => absurd rfl (hassign a) }
  | session =>
    have hsame : st.Kept st .session := .of_eq rfl
    exact { hsame with
      noUpload := fun _ hsession => absurd rfl hsession
      noBinary := fun _ hsession => absurd rfl hsession
      offered := fun _ hsession => absurd rfl hsession
      inProgress := fun hsession => absurd rfl hsession }
  | deliverAsync transfer offset =>
    have hsame : st.Kept st (.deliverAsync transfer offset) := .of_eq rfl
    exact { hsame with inProgress := fun _ hdeliver => absurd rfl (hdeliver transfer offset) }
  | addOnline username => cases result <;> exact .of_eq rfl
  | redis call =>
    obtain ⟨claimed, hcalled⟩ := st.called_eq call result
    rw [Progress.after, hcalled]
    exact .of_eq rfl
  | findOnline username =>
    cases result with
    | none => exact .of_eq rfl
    | some target => exact st.kept_met username target
  | _ => exact .of_eq rfl

theorem Effect.known_holds {conn : ConnId} {choice : Choice} {st st' : Progress} {v v' : View}
    {action : Act} (heffect : Effect conn choice st v action st' v') {keep : Fact → Prop}
    (hknown : ∀ fact ∈ st.known, keep fact → fact.Holds v.db) :
    ∀ fact ∈ st'.known, keep fact → fact.Holds v'.db := by
  intro fact hfact hkeep
  rcases heffect.known_cases hfact with ⟨hold, hdb⟩ | ⟨hholds, -⟩
  · rw [hdb]
    exact hknown fact hold hkeep
  · exact hholds

theorem Effect.db_cases {conn : ConnId} {choice : Choice} {st st' : Progress} {v v' : View}
    {action : Act} (heffect : Effect conn choice st v action st' v') :
    v'.db = v.db ∨ ∃ (u : Update) (result : u.Result), action = .update u ∧
      v.db.apply u = .ok (result, v'.db) ∧
      (st' = st.commit u result ∨ ∃ error, choice = .failLate error) := by
  cases heffect with
  | committed hmay happly => exact .inr ⟨_, _, rfl, happly, .inl rfl⟩
  | late hmay hchoice happly => exact .inr ⟨_, _, rfl, happly, .inr ⟨_, hchoice⟩⟩
  | _ => exact .inl rfl

/-! ### The upload of a session -/

def ClientSession.OwnsUpload (session : ClientSession) : Prop :=
  ∀ upload, session.upload = some upload →
    session.loggedIn = true ∧ upload.resumeState.metadata.senderUsername = session.username

theorem Store.beginOrResumeUpload_sender {store store' : Store}
    {requested persisted : FileUploadResumeState} {offset : Nat} {outcome : FileOutcome}
    (hbegin : store.beginOrResumeUpload requested outcome = some (.ok (persisted, offset), store')) :
    persisted.metadata.senderUsername = requested.metadata.senderUsername := by
  cases outcome with
  | done =>
    simp only [beginOrResumeUpload] at hbegin
    split at hbegin
    · cases hbegin
    · split at hbegin
      · rename_i part existing hpart hresume
        split at hbegin
        · cases hbegin
        · rename_i hidentity
          split at hbegin
          · cases hbegin
          · cases hbegin
            simp only [sameMetadataIdentity, Bool.not_eq_true', Bool.not_eq_false,
              Bool.and_eq_true, decide_eq_true_eq] at hidentity
            exact hidentity.1.1.1.1.1.1.2.symm
      · cases hbegin
        rfl
  | cleared error =>
    simp only [beginOrResumeUpload] at hbegin
    split at hbegin <;> cases hbegin
  | _ => cases hbegin

def Fact.OfUpload (upload : IncomingFileUpload) (username : Bytes) (fact : Fact) : Prop :=
  match upload.scope with
  | .privateFile => fact ∈ permitFacts username upload.target
  | .groupFile => ∃ member, fact = .member upload.target member

def Shared.UploadsUndisturbed (s : Shared) (conn : ConnId) (update : Update) : Prop :=
  ∀ other task upload, other ≠ conn → s.running other = some task →
    task.endedUpload = some upload → ∀ result db, s.db.apply update = .ok (result, db) →
    ∀ fact : Fact, fact.OfUpload upload task.session.username → fact.Holds s.db → fact.Holds db

/-- Sender and recipients have the permission that a transfer needs. -/
def Database.TransferAllowed (db : Database) (metadata : FileTransferMetadata)
    (recipients : List Bytes) : Prop :=
  match metadata.scope with
  | .privateFile => db.permits metadata.senderUsername metadata.recipientUsername = true
  | .groupFile => metadata.senderUsername ∈ db.listGroupMemberUsernames metadata.groupName ∧
      ∀ recipient ∈ recipients, recipient ∈ db.listGroupMemberUsernames metadata.groupName

/-- What a handler has found out about the upload of its session. -/
structure UploadBooks (conn : ConnId) (st : Progress) (s : Shared) : Prop where
  noUpload : st.noUpload = true → (s.sessions conn).upload = none
  begun : ∀ resumed, st.begun = some resumed →
    st.core.loggedIn = true ∧ resumed.metadata.senderUsername = st.core.username

/-- The facts that the permission for a finished upload rests on still hold. -/
structure UploadTracks (conn : ConnId) (st : Progress) (s : Shared) : Prop
    extends UploadBooks conn st s where
  sender : ∀ upload, st.task.endedUpload = some upload →
    upload.resumeState.metadata.senderUsername = st.task.session.username
  known : ∀ upload, st.task.endedUpload = some upload →
    ∀ fact ∈ st.known, fact.OfUpload upload st.task.session.username → fact.Holds s.db

structure UploadRely (conn : ConnId) (s s' : Shared) : Prop where
  upload : (s'.sessions conn).upload = (s.sessions conn).upload
  facts : ∀ task upload, s.running conn = some task → task.endedUpload = some upload →
    ∀ fact : Fact, fact.OfUpload upload task.session.username → fact.Holds s.db → fact.Holds s'.db

def uploadLayer : Layer where
  inv := fun s => ∀ conn, (s.sessions conn).OwnsUpload
  rely := UploadRely
  cond := fun conn action _ s => ∀ update, action = .update update → s.UploadsUndisturbed conn update
  shown := fun _ action _ s _ => ∀ metadata recipients,
    action = .update (.addFileTransfer metadata recipients) →
    s.db.TransferAllowed metadata recipients
  tracks := UploadTracks

variable {crypto : Crypto} {conn : ConnId} {action : Act} {choice : Choice} {st : Progress}
  {s s' : Shared} {result : action.Result}

def ClientSession.uploadOwner (session : ClientSession) :
    Option IncomingFileUpload × Bool × Bytes :=
  (session.upload, session.loggedIn, session.username)

theorem ClientSession.OwnsUpload.congr {session session' : ClientSession}
    (hsame : session'.uploadOwner = session.uploadOwner) (howns : session.OwnsUpload) :
    session'.OwnsUpload := by
  simp only [uploadOwner, Prod.mk.injEq] at hsame
  obtain ⟨hupload, hloggedIn, husername⟩ := hsame
  unfold OwnsUpload
  rw [hupload, hloggedIn, husername]
  exact howns

theorem uploadOwner_change (hchange : Change conn s action s') :
    ((∀ a, action ≠ .assign a) ∧
      ∀ other, (s'.sessions other).uploadOwner = (s.sessions other).uploadOwner) ∨
      ∃ a, action = .assign a ∧ s' = s.setSession conn ((s.sessions conn).assign a) :=
  hchange.session_field ClientSession.uploadOwner (fun _ _ => rfl) fun _ _ _ => rfl

theorem upload_of_uploadOwner {session session' : ClientSession}
    (hsame : session'.uploadOwner = session.uploadOwner) : session'.upload = session.upload :=
  congrArg Prod.fst hsame

namespace UploadBooks

section

variable (hbooks : UploadBooks conn st s)
include hbooks

theorem ownsUpload_assign {a : Assign} (htracks : Tracks conn st s.view)
    (howns : (s.sessions conn).OwnsUpload) (hmay : st.MayAssign a) :
    ((s.sessions conn).assign a).OwnsUpload := by
  have hloggedIn : (s.sessions conn).loggedIn = st.core.loggedIn := by rw [← htracks.core]; rfl
  have husername : (s.sessions conn).username = st.core.username := by rw [← htracks.core]; rfl
  have hnone : (s.sessions conn).upload = none → ∀ session : ClientSession,
      session.upload = (s.sessions conn).upload → session.OwnsUpload := by
    intro hnone session hsame upload hsome
    rw [hsame, hnone] at hsome
    cases hsome
  cases a with
  | login username =>
    refine hnone ?_ _ rfl
    cases hactive : (s.sessions conn).upload with
    | none => rfl
    | some upload =>
      have hlogged := (howns upload hactive).1
      rw [hloggedIn, hmay.1] at hlogged
      cases hlogged
  | logout => exact hnone (hbooks.noUpload hmay.1) _ rfl
  | accountDeleted => exact hnone (hbooks.noUpload hmay.2.2.1) _ rfl
  | detachUpload | takeUpload => exact fun upload hsome => nomatch hsome
  | upload upload =>
    rintro _ ⟨rfl⟩
    obtain ⟨hlogged, hsender⟩ := hbooks.begun _ hmay
    exact ⟨hloggedIn.trans hlogged, hsender.trans husername.symm⟩
  | frameStored acceptedOffset =>
    intro upload hsome
    obtain ⟨earlier, hearlier, rfl⟩ := Option.map_eq_some_iff.mp hsome
    exact howns earlier hearlier
  | _ => exact howns

theorem ownsUpload_step (hallowed : st.Allowed action)
    (hexec : exec crypto conn action choice s = some (result, s'))
    (hinv : ∀ other, (s.sessions other).OwnsUpload) (htracks : Tracks conn st s.view)
    (other : ConnId) : (s'.sessions other).OwnsUpload := by
  rcases uploadOwner_change (Change.of_exec hexec) with ⟨-, hsame⟩ | ⟨a, rfl, rfl⟩
  · exact (hinv other).congr (hsame other)
  · by_cases heq : other = conn
    · subst heq
      simpa [Shared.setSession] using
        hbooks.ownsUpload_assign htracks (hinv other) hallowed
    · simpa [Shared.setSession, Function.update_of_ne heq] using hinv other

theorem noUpload_assign {a : Assign} (hnone : (st.afterAssign a).noUpload = true) :
    ((s.sessions conn).assign a).upload = none := by
  cases a with
  | detachUpload | takeUpload => rfl
  | upload upload => cases hnone
  | frameStored acceptedOffset =>
    have hbefore := hbooks.noUpload hnone
    simp [ClientSession.assign, hbefore]
  | _ => exact hbooks.noUpload hnone

theorem noUpload_step (hexec : exec crypto conn action choice s = some (result, s'))
    (hnone : (st.after action result).noUpload = true) : (s'.sessions conn).upload = none := by
  rcases uploadOwner_change (Change.of_exec hexec) with ⟨hassign, hsame⟩ | ⟨a, rfl, rfl⟩
  · rw [upload_of_uploadOwner (hsame conn)]
    by_cases hsession : action = .session
    · subst hsession
      cases choice <;> cases hexec
      exact Option.isNone_iff_eq_none.mp hnone
    · rw [(st.kept_after action result).noUpload hassign hsession] at hnone
      exact hbooks.noUpload hnone
  · simpa [Shared.setSession] using hbooks.noUpload_assign hnone

theorem begun_step (hallowed : st.Allowed action)
    (hexec : exec crypto conn action choice s = some (result, s')) {resumed : FileUploadResumeState}
    (hbegun : (st.after action result).begun = some resumed) :
    (st.after action result).core.loggedIn = true ∧
      resumed.metadata.senderUsername = (st.after action result).core.username := by
  by_cases hassign : ∃ a, action = .assign a
  · obtain ⟨a, rfl⟩ := hassign
    cases a with
    | login | logout | accountDeleted => cases hbegun
    | _ => exact hbooks.begun resumed hbegun
  · have hkept := st.kept_after action result
    have hnever : ∀ a, action ≠ .assign a := fun a heq => hassign ⟨a, heq⟩
    rw [hkept.core hnever]
    by_cases hbegin : ∃ requested, action = .beginOrResumeUpload requested
    · obtain ⟨requested, rfl⟩ := hbegin
      cases result with
      | error error => exact hbooks.begun resumed hbegun
      | ok pair =>
        cases hbegun
        cases choice with
        | file outcome =>
          obtain ⟨store, hstore, -⟩ := store_of_withStore hexec
          refine ⟨hallowed.1, ?_⟩
          rw [Store.beginOrResumeUpload_sender hstore]
          exact hallowed.2.1
        | _ => cases hexec
    · rw [hkept.begun hnever fun requested heq => hbegin ⟨requested, heq⟩] at hbegun
      exact hbooks.begun resumed hbegun

theorem step (hallowed : st.Allowed action)
    (hexec : exec crypto conn action choice s = some (result, s')) :
    UploadBooks conn (st.after action result) s' where
  noUpload := hbooks.noUpload_step hexec
  begun := fun _ => hbooks.begun_step hallowed hexec

end

end UploadBooks

namespace UploadTracks

theorem step (hupload : UploadTracks conn st s) (hallowed : st.Allowed action)
    (hexec : exec crypto conn action choice s = some (result, s')) :
    UploadTracks conn (st.after action result) s' where
  toUploadBooks := hupload.toUploadBooks.step hallowed hexec
  sender := by
    rw [(st.kept_after action result).task]
    exact hupload.sender
  known := by
    rw [(st.kept_after action result).task]
    intro upload hended
    exact (Effect.of_exec hallowed hexec).known_holds (hupload.known upload hended)

theorem stable (hupload : UploadTracks conn st s) (htracks : Tracks conn st s.view)
    (hrely : UploadRely conn s s') : UploadTracks conn st s' where
  noUpload := fun hnone => hrely.upload.trans (hupload.noUpload hnone)
  begun := hupload.begun
  sender := hupload.sender
  known := fun upload hended fact hfact hof =>
    hrely.facts st.task upload htracks.running hended fact hof
      (hupload.known upload hended fact hfact hof)

theorem transferAllowed {metadata : FileTransferMetadata} {recipients : List Bytes}
    (hupload : UploadTracks conn st s) (hmay : st.MayRecord metadata recipients) :
    s.db.TransferAllowed metadata recipients := by
  obtain ⟨upload, path, hended, -, rfl, hpermitted⟩ := hmay
  have hsender := hupload.sender upload hended
  have hknown := hupload.known upload hended
  unfold Progress.UploadPermitted at hpermitted
  unfold Database.TransferAllowed
  cases hscope : upload.scope with
  | privateFile =>
    simp only [hscope] at hpermitted
    have hmetadata : upload.resumeState.metadata.scope = .privateFile := hscope
    simp only [hmetadata]
    rw [hsender, Database.permits_iff]
    intro fact hfact
    have htarget : upload.target = upload.resumeState.metadata.recipientUsername := by
      simp [IncomingFileUpload.target, hscope]
    rw [← htarget] at hfact
    refine hknown fact (hpermitted fact hfact) ?_
    simpa [Fact.OfUpload, hscope] using hfact
  | groupFile =>
    simp only [hscope] at hpermitted
    have hmetadata : upload.resumeState.metadata.scope = .groupFile := hscope
    have htarget : upload.target = upload.resumeState.metadata.groupName := by
      simp [IncomingFileUpload.target, hscope]
    simp only [hmetadata]
    rw [hsender, ← htarget]
    have hmember : ∀ member, .member upload.target member ∈ st.known →
        member ∈ s.db.listGroupMemberUsernames upload.target := by
      intro member hmember
      exact hknown _ hmember (by simp [Fact.OfUpload, hscope])
    exact ⟨hmember _ hpermitted.1, fun recipient hrecipient =>
      hmember recipient (hpermitted.2 recipient hrecipient)⟩

end UploadTracks

theorem uploadRely_step {other : ConnId} (hne : other ≠ conn)
    (hallowed : st.Allowed action)
    (hcond : ∀ update, action = .update update → s.UploadsUndisturbed conn update)
    (hexec : exec crypto conn action choice s = some (result, s')) : UploadRely other s s' where
  upload := by
    rcases uploadOwner_change (Change.of_exec hexec) with ⟨-, hsame⟩ | ⟨a, rfl, rfl⟩
    · exact upload_of_uploadOwner (hsame other)
    · simp [Shared.setSession, Function.update_of_ne hne]
  facts := by
    intro task upload hrunning hended fact hof hholds
    rcases (Effect.of_exec hallowed hexec).db_cases with hdb | ⟨update, result, haction, happly, -⟩
    · rw [show s'.db = s.db from hdb]
      exact hholds
    · exact hcond update haction other task upload hne hrunning hended result _ happly fact hof hholds

theorem uploadLayer_sound (crypto : Crypto) : uploadLayer.Sound crypto where
  stable := fun _ hrely htracks hupload => hupload.stable htracks hrely
  step := by
    intro conn st action choice result s s' hallowed hbase hinv htracks hupload hcond hexec
    refine ⟨hupload.toUploadBooks.ownsUpload_step hallowed hexec hinv htracks,
      fun other hne => uploadRely_step hne hallowed hcond hexec, ?_, hupload.step hallowed hexec⟩
    rintro metadata recipients rfl
    exact hupload.transferAllowed hallowed.1.2.2
  start := by
    rintro conn task s s' hidle hinv ⟨hsession, loopCalls, rfl, -, -⟩
    refine ⟨hinv, fun other hne => ⟨rfl, fun _ _ _ _ _ _ hholds => hholds⟩, ?_⟩
    refine ⟨⟨by simp [Task.start], by simp [Task.start]⟩, fun upload hended => ?_,
      fun _ _ fact hfact => absurd hfact List.not_mem_nil⟩
    have hactive : task.session.upload = some upload := by
      have hended : task.endedUpload = some upload := hended
      unfold Task.endedUpload at hended
      split at hended
      · exact hended
      · cases hended
    change upload.resumeState.metadata.senderUsername = task.session.username
    rw [hsession.session] at hactive ⊢
    exact (hinv conn upload hactive).2
  finish := by
    intro conn st choice s hfree hinv htracks hupload
    exact ⟨hinv, fun other hne => ⟨rfl, fun _ _ _ _ _ _ hholds => hholds⟩,
      fun _ _ haction => nomatch haction⟩

end ChatRoom
