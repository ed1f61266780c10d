import ChatRoom.Permission
import ChatRoom.Proof.StoredFiles

/-! # Recorded file transfers -/

namespace ChatRoom

open Interleaving Transition

variable {state : ServerConfiguration} {event : ServerEvent}

/-! ### The permission at the insert -/

/-- The steps of a run in which no update destroys a fact that the permission for a file rests on
while another connection is finishing that file. -/
def UploadsUndisturbed (state : ServerConfiguration) (event : ServerEvent) : Prop :=
  uploadLayer.contract.Meets state event

/-- **Re-check and insert.** In a run of such steps, the sender and the recipients have the permission
that the transfer needs when it is recorded. -/
theorem transfer_allowed_at_insert {config : ServerConfig} {db : Database} {store : Store}
    {events : List ServerEvent} {state : ServerConfiguration}
    (hrun : Run (server config true).next UploadsUndisturbed (initial db store) events state)
    {conn : ConnId} {metadata : FileTransferMetadata} {recipients : List Bytes}
    (hinsert : nextUpdate state conn = some (.addFileTransfer metadata recipients)) :
    state.shared.db.TransferAllowed metadata recipients := by
  obtain ⟨next, hcode⟩ := code_of_nextUpdate hinsert
  have hexec : exec config.crypto conn (.update (.addFileTransfer metadata recipients)) (.fail [])
      state.shared = some (.error [], state.shared) := rfl
  have hcond : uploadLayer.cond conn (.update (.addFileTransfer metadata recipients)) (.fail [])
      state.shared := by
    rintro update ⟨rfl⟩ other task upload hne hrunning hended result db happly fact hof hholds
    exact Fact.holds_of_quiet rfl rfl happly hholds
  have hinit : uploadLayer.inv { db, store } := fun _ upload hactive => nomatch hactive
  exact (uploadLayer_sound config.crypto).shown hinit hrun hcode hcond hexec metadata recipients rfl

theorem Undisturbed.uploads (hfinish : TasksFinish state) (hundisturbed : Undisturbed state event) :
    UploadsUndisturbed state event := by
  cases event with
  | start conn request => trivial
  | step conn choice =>
    refine Contract.meets_step fun action next hcode => ?_
    rintro update rfl other task upload hne hrunning
    rw [hfinish.running_none (hundisturbed.1 other hne)] at hrunning
    cases hrunning

def beginArguments : Bytes := uploadToken ++ utf8 " bob note 0 " ++ emptyDigest

def noteMetadata : FileTransferMetadata :=
  ⟨uploadToken, .privateFile, utf8 "amy", utf8 "bob", 0, [], utf8 "note", 0, emptyDigest, 0,
    storedRelativePath uploadToken (utf8 "note")⟩

def amyUploads : List (Move ConnId Choice Request) :=
  serveMoves 0 .connect ++ serveMoves 0 (.login (utf8 "amy pw")) ++
    serveMoves 0 (.fileBeginPrivate beginArguments) ++ [.start 0 (.fileEnd uploadToken)]

theorem transfer_allowed_at_insert_alone :
    ∃ events state,
      Run (server scriptConfig true).next UploadsUndisturbed (initial friendTables {}) events
        state ∧
      nextUpdate state 0 = some (.addFileTransfer noteMetadata [utf8 "bob"]) ∧
      state.shared.db.permits (utf8 "amy") (utf8 "bob") = true := by
  have hscript : ((play (server scriptConfig true) usualChoice (fun _ event => onlyConn 0 event)
      (initial friendTables {}) (amyUploads ++ [.steps 0 8])).any fun state =>
        decide (nextUpdate state 0 = some (.addFileTransfer noteMetadata [utf8 "bob"]))) = true := by
    decide +kernel
  obtain ⟨events, state, hchecked, htest⟩ := play_reaches hscript
  have hinsert := of_decide_eq_true htest
  have halone := (run_undisturbed (fun _ _ honly => honly) hchecked).with_invariant TasksFinish
    (fun _ _ _ hinv _ hnext => hinv.next hnext) (tasksFinish_initial _ _)
  have hrun : Run (server scriptConfig true).next UploadsUndisturbed (initial friendTables {}) events
      state := halone.mono fun _ _ ⟨hfinish, hundisturbed, _⟩ => hundisturbed.uploads hfinish
  exact ⟨events, state, hrun, hinsert, transfer_allowed_at_insert hrun hinsert⟩

/-- **A revoked upload.** Bob blocks Amy after her `FILE_END` has checked the permission and before it
records the transfer, which is recorded all the same. -/
theorem transfer_recorded_despite_block :
    ∃ events state state',
      Run (server scriptConfig true).next anyStep (initial friendTables {}) events state ∧
      nextUpdate state 0 = some (.addFileTransfer noteMetadata [utf8 "bob"]) ∧
      state.shared.db.permits (utf8 "amy") (utf8 "bob") = false ∧
      (server scriptConfig true).next state (.step 0 .proceed) = some state' ∧
      state'.shared.db.fileTransfers.map StoredFileTransfer.metadata = [noteMetadata] := by
  have hscript : ((play (server scriptConfig true) usualChoice (fun _ _ => true)
      (initial friendTables {})
      (serveMoves 1 .connect ++ serveMoves 1 (.login (utf8 "bob pw")) ++ amyUploads ++
        [.steps 0 7] ++ serveMoves 1 (.blockFriend (utf8 "amy")) ++ [.steps 0 1])).any fun state =>
        decide (nextUpdate state 0 = some (.addFileTransfer noteMetadata [utf8 "bob"])) &&
        decide (state.shared.db.permits (utf8 "amy") (utf8 "bob") = false) &&
        ((server scriptConfig true).next state (.step 0 .proceed)).any fun state' =>
          decide (state'.shared.db.fileTransfers.map StoredFileTransfer.metadata =
            [noteMetadata])) = true := by
    decide +kernel
  obtain ⟨events, state, hrun, htest⟩ := play_reaches hscript
  simp only [Bool.and_eq_true, decide_eq_true_eq] at htest
  obtain ⟨⟨hinsert, hpermits⟩, hafter⟩ := htest
  cases hnext : (server scriptConfig true).next state (.step 0 .proceed) with
  | none =>
    rw [hnext] at hafter
    cases hafter
  | some state' =>
    rw [hnext] at hafter
    exact ⟨events, state, state', hrun.mono fun _ _ _ => trivial, hinsert, hpermits, hnext,
      of_decide_eq_true hafter⟩

/-! ### The stored files -/

/-- The steps of a run in which

* a file is moved only to a path that no recorded transfer names,
* no two connections finish files with the same path at the same time, and
* an insert of a transfer that is reported as failed has not taken effect. -/
def FilesUndisturbed (state : ServerConfiguration) : ServerEvent → Prop
  | .start _ _ => True
  | .step conn choice => ∀ action next, state.code conn = .act action next →
      StoredCond state.shared conn choice action

theorem FilesUndisturbed.meets {crypto : Crypto} (hundisturbed : FilesUndisturbed state event) :
    (storedLayer crypto).contract.Meets state event := by
  cases event with
  | start conn request => trivial
  | step conn choice => exact Contract.meets_step hundisturbed

/-- **Stored files.** In a run of such steps every recorded transfer names a file below `files/` that
exists and has the declared size and digest, and no step removes or alters the file of a transfer
that is already recorded. -/
theorem recorded_files_kept {config : ServerConfig} {db : Database} {store : Store}
    (hinit : ∀ row ∈ db.fileTransfers, store.Keeps config.crypto row.metadata)
    {events : List ServerEvent} {state : ServerConfiguration}
    (hrun : Run (server config true).next FilesUndisturbed (initial db store) events state) :
    (∀ row ∈ state.shared.db.fileTransfers,
      state.shared.store.Keeps config.crypto row.metadata) ∧
    ∀ event state', FilesUndisturbed state event →
      (server config true).next state event = some state' →
      ∀ row ∈ state.shared.db.fileTransfers,
        state'.shared.store.files row.metadata.storedRelativePath =
          state.shared.store.files row.metadata.storedRelativePath := by
  have hmeets : Run (server config true).next (storedLayer config.crypto).contract.Meets
      (initial db store) events state := hrun.mono fun _ _ hundisturbed => hundisturbed.meets
  have hsound := storedLayer_sound config.crypto
  refine ⟨(hsound.run hinit hmeets).2, fun event state' hundisturbed hnext => ?_⟩
  obtain ⟨conn, request, prog, rfl, -, hlaunch, -⟩ | ⟨conn, choice, action, next, result, rfl,
    hcode, hexec, -⟩ := System.next_cases hnext
  · obtain ⟨task, handler, -, ⟨-, loopCalls, hstarted, -⟩, -⟩ := launch_cases hlaunch
    intro row hrow
    rw [hstarted]
    rfl
  · exact hsound.shown hinit hmeets hcode (hundisturbed action next hcode) hexec

theorem Undisturbed.files (hfinish : TasksFinish state) (hundisturbed : Undisturbed state event)
    (hunused : ∀ upload next, state.code event.tid = .act (.finalizeUpload upload) next →
      state.shared.db.PathUnused upload.path) : FilesUndisturbed state event := by
  cases event with
  | start conn request => trivial
  | step conn choice =>
    have hfree : ∀ path, state.shared.PathFree conn path := by
      intro path other task upload hne hrunning
      rw [hfinish.running_none (hundisturbed.1 other hne)] at hrunning
      cases hrunning
    intro action next hcode
    cases action with
    | finalizeUpload upload => exact ⟨hunused upload next hcode, hfree _⟩
    | removeStored path => exact hfree path
    | update update =>
      cases update with
      | addFileTransfer metadata recipients =>
        refine ⟨hfree _, ?_⟩
        rintro error rfl
        exact hundisturbed.2 conn error rfl _ _ hcode
      | _ => trivial
    | _ => trivial

def movesToUnused (state : ServerConfiguration) (conn : ConnId) : Bool :=
  match state.code conn with
  | .act (.finalizeUpload upload) _ => decide (state.shared.db.PathUnused upload.path)
  | _ => true

theorem recorded_files_kept_alone :
    ∃ events state,
      Run (server scriptConfig true).next FilesUndisturbed (initial friendTables {}) events state ∧
      ⟨1, noteMetadata⟩ ∈ state.shared.db.fileTransfers ∧
      state.shared.store.Keeps scriptConfig.crypto noteMetadata := by
  have hscript : ((play (server scriptConfig true) usualChoice
      (fun state event => onlyConn 0 event && movesToUnused state 0) (initial friendTables {})
      (amyUploads ++ [.steps 0 100])).any fun state =>
        decide (⟨1, noteMetadata⟩ ∈ state.shared.db.fileTransfers)) = true := by
    decide +kernel
  obtain ⟨events, state, hchecked, htest⟩ := play_reaches hscript
  have hrow := of_decide_eq_true htest
  have halone := (run_undisturbed (fun _ _ hok => (Bool.and_eq_true_iff.mp hok).1)
    hchecked).with_invariant TasksFinish (fun _ _ _ hinv _ hnext => hinv.next hnext)
    (tasksFinish_initial _ _)
  have hrun : Run (server scriptConfig true).next FilesUndisturbed (initial friendTables {}) events
      state := by
    refine halone.mono fun state event ⟨hfinish, hundisturbed, hok⟩ => ?_
    obtain ⟨honly, hmoves⟩ := Bool.and_eq_true_iff.mp hok
    refine hundisturbed.files hfinish fun upload next hcode => ?_
    rw [tid_of_onlyConn honly] at hcode
    simp only [movesToUnused, hcode, decide_eq_true_eq] at hmoves
    exact hmoves
  have hkept := recorded_files_kept (fun _ hnone => absurd hnone List.not_mem_nil) hrun
  exact ⟨events, state, hrun, hrow, hkept.1 _ hrow⟩

/-- **A lost file.** Amy's upload has been recorded, and she uploads the same token again. The move
overwrites the recorded file, the insert is refused because the token exists, and the clean-up
removes the file. -/
theorem recorded_file_removed_by_retry :
    ∃ events state,
      Run (server scriptConfig true).next anyStep (initial friendTables {}) events state ∧
      ⟨1, noteMetadata⟩ ∈ state.shared.db.fileTransfers ∧
      state.shared.store.files noteMetadata.storedRelativePath = none := by
  have hscript : ((play (server scriptConfig true) usualChoice (fun _ _ => true)
      (initial friendTables {})
      (amyUploads ++ [.steps 0 100] ++ serveMoves 0 (.fileBeginPrivate beginArguments) ++
        [.start 0 (.fileEnd uploadToken), .steps 0 8, .step 0 (.fail (utf8 "Duplicate entry")),
          .steps 0 100])).any fun state =>
        decide (⟨1, noteMetadata⟩ ∈ state.shared.db.fileTransfers) &&
        decide (state.shared.store.files noteMetadata.storedRelativePath = none)) = true := by
    decide +kernel
  obtain ⟨events, state, hrun, htest⟩ := play_reaches hscript
  simp only [Bool.and_eq_true, decide_eq_true_eq] at htest
  exact ⟨events, state, hrun.mono fun _ _ _ => trivial, htest.1, htest.2⟩

end ChatRoom
