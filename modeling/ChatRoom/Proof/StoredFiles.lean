import ChatRoom.Proof.Uploads

/-! # The files of recorded transfers -/

namespace ChatRoom

open Interleaving Database

def IncomingFileUpload.path (upload : IncomingFileUpload) : Bytes :=
  storedRelativePath upload.token upload.fileName

/-- The stored file of a transfer is there with the declared size and digest. As everywhere in the
store its path is relative to the storage root. -/
def Store.Keeps (store : Store) (crypto : Crypto) (metadata : FileTransferMetadata) : Prop :=
  utf8 "files/" <+: metadata.storedRelativePath ∧
    ∃ content, store.files metadata.storedRelativePath = some content ∧
      content.length = metadata.fileSize ∧
      crypto.sha256Hex content = metadata.sha256Hex.map toLower

namespace Store

variable {store store' : Store} {outcome : FileOutcome}

theorem Keeps.congr {crypto : Crypto} {metadata : FileTransferMetadata}
    (hsame : store'.files metadata.storedRelativePath = store.files metadata.storedRelativePath)
    (hkeeps : store.Keeps crypto metadata) : store'.Keeps crypto metadata := by
  unfold Keeps
  rw [hsame]
  exact hkeeps

@[simp]
theorem dropUpload_files (token : Bytes) (partLeft resumeLeft : Bool) :
    (store.dropUpload token partLeft resumeLeft).files = store.files := by
  unfold dropUpload
  cases partLeft <;> cases resumeLeft <;> rfl

theorem beginOrResumeUpload_files {requested : FileUploadResumeState}
    {result : Except Bytes (FileUploadResumeState × Nat)}
    (hbegin : store.beginOrResumeUpload requested outcome = some (result, store')) :
    store'.files = store.files := by
  cases outcome with
  | done =>
    simp only [beginOrResumeUpload] at hbegin
    split at hbegin
    · cases hbegin
      rfl
    · split at hbegin
      · split at hbegin
        · cases hbegin
          rfl
        · split at hbegin <;> cases hbegin <;> rfl
      · cases hbegin
        rfl
  | failed error =>
    cases hbegin
    rfl
  | cleared error =>
    simp only [beginOrResumeUpload] at hbegin
    split at hbegin <;> cases hbegin
    rfl
  | _ => cases hbegin

theorem appendUploadBytes_files {token bytes : Bytes} {expectedOffset : Nat}
    {result : Except Bytes Nat}
    (happend : store.appendUploadBytes token expectedOffset bytes outcome =
      some (result, store')) : store'.files = store.files := by
  cases outcome with
  | done =>
    simp only [appendUploadBytes] at happend
    split at happend
    · cases happend
    · split at happend <;> cases happend <;> rfl
  | failed error =>
    cases happend
    rfl
  | shortWrite written error =>
    simp only [appendUploadBytes] at happend
    split at happend
    · cases happend
    · split at happend <;> cases happend
      rfl
  | _ => cases happend

theorem cancelUpload_files {token : Bytes} {result : Unit}
    (hcancel : store.cancelUpload token outcome = some (result, store')) :
    store'.files = store.files := by
  cases outcome <;> simp only [cancelUpload] at hcancel <;> cases hcancel <;> split <;> simp

theorem removeStored_files {path : Bytes} {result : Unit}
    (hremove : store.removeStored path outcome = some (result, store')) {other : Bytes}
    (hne : other ≠ path) : store'.files other = store.files other := by
  cases outcome with
  | done =>
    cases hremove
    exact Function.update_of_ne hne _ _
  | failed error =>
    cases hremove
    rfl
  | _ => cases hremove

theorem finishedError_none {sha256Hex : Bytes → Bytes} {content expectedSha256Hex : Bytes}
    {expectedSize : Nat}
    (hnone : finishedError sha256Hex content expectedSize expectedSha256Hex = none) :
    content.length = expectedSize ∧ sha256Hex content = expectedSha256Hex.map toLower := by
  unfold finishedError at hnone
  split at hnone
  · cases hnone
  · rename_i hsize
    split at hnone
    · cases hnone
    · rename_i hdigest
      exact ⟨not_not.mp hsize, not_not.mp hdigest⟩

variable {sha256Hex : Bytes → Bytes} {token originalFileName expectedSha256Hex : Bytes}
  {expectedSize : Nat} {result : Except Bytes Bytes}

theorem finalizeUpload_files
    (hfinalize : store.finalizeUpload sha256Hex token originalFileName expectedSize
      expectedSha256Hex outcome = some (result, store')) {other : Bytes}
    (hne : other ≠ storedRelativePath token originalFileName) :
    store'.files other = store.files other := by
  unfold finalizeUpload at hfinalize
  dsimp only at hfinalize
  split at hfinalize
  · cases hfinalize
    rfl
  · cases hfinalize
  · split at hfinalize
    · cases hfinalize
      rfl
    · cases hfinalize
      rw [dropUpload_files]
      exact Function.update_of_ne hne _ _
    · cases hfinalize
      rw [dropUpload_files]
      exact Function.update_of_ne hne _ _
    · cases hfinalize
      rfl
    · cases hfinalize
      exact Function.update_of_ne hne _ _
    · cases hfinalize

theorem finalizeUpload_ok {path : Bytes}
    (hfinalize : store.finalizeUpload sha256Hex token originalFileName expectedSize
      expectedSha256Hex outcome = some (.ok path, store')) :
    path = storedRelativePath token originalFileName ∧
      ∃ content, store'.files path = some content ∧ content.length = expectedSize ∧
        sha256Hex content = expectedSha256Hex.map toLower := by
  unfold finalizeUpload at hfinalize
  dsimp only at hfinalize
  split at hfinalize
  · cases hfinalize
  · cases hfinalize
  · split at hfinalize
    · cases hfinalize
    · rename_i hfinished _
      cases hfinalize
      obtain ⟨hsize, hdigest⟩ := finishedError_none hfinished
      refine ⟨rfl, _, ?_, hsize, hdigest⟩
      rw [dropUpload_files]
      exact Function.update_self _ _ _
    · rename_i hfinished _
      cases hfinalize
      obtain ⟨hsize, hdigest⟩ := finishedError_none hfinished
      refine ⟨rfl, _, ?_, hsize, hdigest⟩
      rw [dropUpload_files]
      exact Function.update_self _ _ _
    · cases hfinalize
    · cases hfinalize
    · cases hfinalize

end Store

/-! ### The layer -/

def Shared.PathFree (s : Shared) (conn : ConnId) (path : Bytes) : Prop :=
  ∀ other task upload, other ≠ conn → s.running other = some task →
    task.endedUpload = some upload → upload.path ≠ path

def Database.PathUnused (db : Database) (path : Bytes) : Prop :=
  ∀ row ∈ db.fileTransfers, row.metadata.storedRelativePath ≠ path

instance (db : Database) (path : Bytes) : Decidable (db.PathUnused path) :=
  inferInstanceAs (Decidable (∀ row ∈ db.fileTransfers, row.metadata.storedRelativePath ≠ path))

/-- The condition on the steps of a `FILE_END`: the file is moved to a path that is not in use, no
other connection is finishing a file with the same path, and an insert that is reported as failed
has not taken effect. -/
def StoredCond (s : Shared) (conn : ConnId) (choice : Choice) : Act → Prop
  | .finalizeUpload upload => s.db.PathUnused upload.path ∧ s.PathFree conn upload.path
  | .update (.addFileTransfer metadata _) =>
    s.PathFree conn metadata.storedRelativePath ∧ ∀ error, choice ≠ .failLate error
  | .removeStored path => s.PathFree conn path
  | _ => True

def StoredTracks (crypto : Crypto) (st : Progress) (s : Shared) : Prop :=
  ∀ path, st.stored = some path → ∃ upload, st.task.endedUpload = some upload ∧
    path = upload.path ∧ s.db.PathUnused path ∧
    s.store.Keeps crypto { upload.resumeState.metadata with storedRelativePath := path }

def StoredRely (conn : ConnId) (s s' : Shared) : Prop :=
  ∀ task upload, s.running conn = some task → task.endedUpload = some upload →
    s'.store.files upload.path = s.store.files upload.path ∧
      (s.db.PathUnused upload.path → s'.db.PathUnused upload.path)

def storedLayer (crypto : Crypto) : Layer where
  inv := fun s => ∀ row ∈ s.db.fileTransfers, s.store.Keeps crypto row.metadata
  rely := StoredRely
  cond := fun conn action choice s => StoredCond s conn choice action
  shown := fun _ _ _ s s' => ∀ row ∈ s.db.fileTransfers,
    s'.store.files row.metadata.storedRelativePath = s.store.files row.metadata.storedRelativePath
  tracks := fun _ st s => StoredTracks crypto st s

variable {crypto : Crypto} {conn : ConnId} {action : Act} {choice : Choice} {st : Progress}
  {s s' : Shared} {result : action.Result}

def Act.changedPath : Act → Option Bytes
  | .finalizeUpload upload => some upload.path
  | .removeStored path => some path
  | _ => none

theorem files_exec (hexec : exec crypto conn action choice s = some (result, s')) {path : Bytes}
    (hne : action.changedPath ≠ some path) : s'.store.files path = s.store.files path := by
  cases hstoring : action.storing with
  | false => rw [(Change.of_exec hexec).store hstoring]
  | true =>
    obtain ⟨outcome, rfl⟩ := outcome_of_storing hstoring hexec
    cases action with
    | beginOrResumeUpload requested =>
      obtain ⟨store, hstore, rfl⟩ := store_of_withStore hexec
      exact congrFun (Store.beginOrResumeUpload_files hstore) path
    | appendUploadBytes token expectedOffset bytes =>
      obtain ⟨store, hstore, rfl⟩ := store_of_withStore hexec
      exact congrFun (Store.appendUploadBytes_files hstore) path
    | cancelUpload token =>
      obtain ⟨store, hstore, rfl⟩ := store_of_withStore hexec
      exact congrFun (Store.cancelUpload_files hstore) path
    | finalizeUpload upload =>
      obtain ⟨store, hstore, rfl⟩ := store_of_withStore hexec
      exact Store.finalizeUpload_files hstore fun heq => hne (congrArg some heq.symm)
    | removeStored removed =>
      obtain ⟨store, hstore, rfl⟩ := store_of_withStore hexec
      exact Store.removeStored_files hstore fun heq => hne (congrArg some heq.symm)
    | _ => cases hstoring

theorem StoredTracks.changedPath_unused (hstored : StoredTracks crypto st s)
    (hallowed : st.Allowed action) (hcond : StoredCond s conn choice action) {path : Bytes}
    (hpath : action.changedPath = some path) : s.db.PathUnused path := by
  cases action with
  | finalizeUpload upload =>
    cases hpath
    exact hcond.1
  | removeStored removed =>
    cases hpath
    obtain ⟨upload, -, -, hunused, -⟩ := hstored _ hallowed.1
    exact hunused
  | _ => cases hpath

theorem changedPath_free (hcond : StoredCond s conn choice action) {path : Bytes}
    (hpath : action.changedPath = some path) : s.PathFree conn path := by
  cases action with
  | finalizeUpload upload =>
    cases hpath
    exact hcond.2
  | removeStored removed =>
    cases hpath
    exact hcond
  | _ => cases hpath

theorem StoredTracks.files_kept (hstored : StoredTracks crypto st s) (hallowed : st.Allowed action)
    (hcond : StoredCond s conn choice action)
    (hexec : exec crypto conn action choice s = some (result, s')) :
    ∀ row ∈ s.db.fileTransfers, s'.store.files row.metadata.storedRelativePath =
      s.store.files row.metadata.storedRelativePath := by
  intro row hrow
  refine files_exec hexec fun hpath => ?_
  exact hstored.changedPath_unused hallowed hcond hpath row hrow rfl

theorem fileTransfers_step (hallowed : st.Allowed action) (hcond : StoredCond s conn choice action)
    (hexec : exec crypto conn action choice s = some (result, s')) {row : StoredFileTransfer}
    (hrow : row ∈ s'.db.fileTransfers) :
    row ∈ s.db.fileTransfers ∨ ∃ recipients,
      action = .update (.addFileTransfer row.metadata recipients) ∧
      (st.after action result).stored = none := by
  rcases (Effect.of_exec hallowed hexec).db_cases with hdb | ⟨update, value, rfl, happly, hafter⟩
  · rw [show s'.db = s.db from hdb] at hrow
    exact .inl hrow
  · rcases Database.fileTransfers_apply happly hrow with hold | ⟨recipients, rfl⟩
    · exact .inl hold
    · refine .inr ⟨recipients, rfl, ?_⟩
      rcases hafter with hafter | ⟨error, hlate⟩
      · rw [hafter]
        rfl
      · exact absurd hlate (hcond.2 error)

theorem StoredTracks.keeps_step (hstored : StoredTracks crypto st s)
    (hinv : ∀ row ∈ s.db.fileTransfers, s.store.Keeps crypto row.metadata)
    (hallowed : st.Allowed action) (hcond : StoredCond s conn choice action)
    (hexec : exec crypto conn action choice s = some (result, s')) :
    ∀ row ∈ s'.db.fileTransfers, s'.store.Keeps crypto row.metadata := by
  intro row hrow
  rcases fileTransfers_step hallowed hcond hexec hrow with hold | ⟨recipients, rfl, -⟩
  · exact (hinv row hold).congr (hstored.files_kept hallowed hcond hexec row hold)
  · obtain ⟨upload, path, hended, hpath, hmetadata, -⟩ := hallowed.1.2.2
    obtain ⟨upload', hended', -, -, hkeeps⟩ := hstored path hpath
    rw [hended, Option.some.injEq] at hended'
    subst hended'
    have hfiles : s'.store = s.store := (Change.of_exec hexec).store rfl
    rw [hfiles, hmetadata]
    exact hkeeps

theorem StoredTracks.stored_before {path : Bytes}
    (hafter : (st.after action result).stored = some path)
    (hfinalize : ∀ upload, action ≠ .finalizeUpload upload) :
    st.stored = some path ∧ action.changedPath = none := by
  cases action with
  | finalizeUpload upload => exact absurd rfl (hfinalize upload)
  | removeStored removed => cases hafter
  | update u =>
    refine ⟨?_, rfl⟩
    cases result with
    | error error => exact hafter
    | ok value =>
      change (if u.records then none else st.stored) = some path at hafter
      split at hafter
      · cases hafter
      · exact hafter
  | beginOrResumeUpload requested => cases result <;> exact ⟨hafter, rfl⟩
  | appendUploadBytes | cancelUpload => exact ⟨hafter, rfl⟩
  | _ => exact ⟨((st.kept_after _ result).stored rfl nofun).symm.trans hafter, rfl⟩

theorem storedTracks_finalize {upload : IncomingFileUpload} {result : Except Bytes Bytes}
    (hallowed : st.Allowed (.finalizeUpload upload))
    (hcond : StoredCond s conn choice (.finalizeUpload upload))
    (hexec : exec crypto conn (.finalizeUpload upload) choice s = some (result, s')) {path : Bytes}
    (hpath : (st.after (.finalizeUpload upload) result).stored = some path) :
    path = upload.path ∧ s'.db.PathUnused path ∧ s'.store.Keeps crypto
      { upload.resumeState.metadata with storedRelativePath := path } := by
  obtain ⟨outcome, rfl⟩ := outcome_of_storing rfl hexec
  obtain ⟨store, hstore, rfl⟩ := store_of_withStore hexec
  cases result with
  | error error =>
    have hnone : st.stored = none := hallowed.2
    rw [show st.stored = some path from hpath] at hnone
    cases hnone
  | ok moved =>
    cases hpath
    obtain ⟨rfl, content, hcontent, hsize, hdigest⟩ := Store.finalizeUpload_ok hstore
    have hbelow : utf8 "files/" <+: storedRelativePath upload.token upload.fileName := by
      unfold storedRelativePath
      simp only [List.append_assoc]
      exact List.prefix_append _ _
    exact ⟨rfl, hcond.1, hbelow, content, hcontent, hsize, hdigest⟩

theorem StoredTracks.step (hstored : StoredTracks crypto st s) (hallowed : st.Allowed action)
    (hcond : StoredCond s conn choice action)
    (hexec : exec crypto conn action choice s = some (result, s')) :
    StoredTracks crypto (st.after action result) s' := by
  intro path hpath
  rw [(st.kept_after action result).task]
  by_cases hfinalize : ∃ upload, action = .finalizeUpload upload
  · obtain ⟨upload, rfl⟩ := hfinalize
    exact ⟨upload, hallowed.1, storedTracks_finalize hallowed hcond hexec hpath⟩
  · obtain ⟨hbefore, hchanged⟩ :=
      stored_before hpath fun upload heq => hfinalize ⟨upload, heq⟩
    obtain ⟨upload, hended, hupload, hunused, hkeeps⟩ := hstored path hbefore
    refine ⟨upload, hended, hupload, fun row hrow => ?_, hkeeps.congr (files_exec hexec ?_)⟩
    · rcases fileTransfers_step hallowed hcond hexec hrow with hold | ⟨recipients, -, hnone⟩
      · exact hunused row hold
      · rw [hpath] at hnone
        cases hnone
    · rw [hchanged]
      exact nofun

theorem StoredTracks.stable (hstored : StoredTracks crypto st s) (htracks : Tracks conn st s.view)
    (hrely : StoredRely conn s s') : StoredTracks crypto st s' := by
  intro path hpath
  obtain ⟨upload, hended, rfl, hunused, hkeeps⟩ := hstored path hpath
  obtain ⟨hfiles, hrows⟩ := hrely st.task upload htracks.running hended
  exact ⟨upload, hended, rfl, hrows hunused, hkeeps.congr hfiles⟩

theorem storedRely_step {other : ConnId} (hne : other ≠ conn) (hallowed : st.Allowed action)
    (hcond : StoredCond s conn choice action)
    (hexec : exec crypto conn action choice s = some (result, s')) : StoredRely other s s' := by
  intro task upload hrunning hended
  constructor
  · refine files_exec hexec fun hpath => ?_
    exact changedPath_free hcond hpath other task upload hne hrunning hended rfl
  · intro hunused row hrow
    rcases fileTransfers_step hallowed hcond hexec hrow with hold | ⟨recipients, rfl, -⟩
    · exact hunused row hold
    · exact (hcond.1 other task upload hne hrunning hended).symm

theorem storedLayer_sound (crypto : Crypto) : (storedLayer crypto).Sound crypto where
  stable := fun _ hrely htracks hstored => hstored.stable htracks hrely
  step := by
    intro conn st action choice result s s' hallowed hbase hinv htracks hstored hcond hexec
    exact ⟨hstored.keeps_step hinv hallowed hcond hexec,
      fun other hne => storedRely_step hne hallowed hcond hexec,
      hstored.files_kept hallowed hcond hexec, hstored.step hallowed hcond hexec⟩
  start := by
    rintro conn task s s' hidle hinv ⟨-, loopCalls, rfl, -, -⟩
    exact ⟨hinv, fun other hne task upload _ _ => ⟨rfl, fun hunused => hunused⟩, nofun⟩
  finish := by
    intro conn st choice s hfree hinv htracks hstored
    exact ⟨hinv, fun other hne task upload _ _ => ⟨rfl, fun hunused => hunused⟩, fun _ _ => rfl⟩

end ChatRoom
