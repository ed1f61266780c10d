import ChatRoom.Client.ChatEditor
import ChatRoom.Client.FileTransfer

/-!
# The queue of uploads

One upload at a time is active; when it ends, the next one in the queue is to be started. Two lines
of the server free the place of the active upload without a look at the queue.
-/

namespace ChatRoom.Client

open Answers Io MixedStream Transition

namespace ClientState

variable {state : ClientState} {upload : PendingUpload} {token other : Bytes}

def Pending (state : ClientState) (token : Bytes) : Prop := (state.findUpload token).isSome

instance : Decidable (state.Pending token) := inferInstanceAs (Decidable (_ = true))

def Waiting (state : ClientState) : Prop := ∃ token ∈ state.uploadQueue, state.Pending token

instance : Decidable state.Waiting := inferInstanceAs (Decidable (∃ token ∈ _, _))

theorem pending_iff :
    state.Pending token ↔ ∃ upload ∈ state.pendingUploads, upload.token.text = token := by
  simp [Pending, findUpload, List.find?_isSome]

theorem pending_insertUpload_self : (state.insertUpload upload).Pending upload.token.text :=
  pending_iff.mpr ⟨upload, by simp [insertUpload], rfl⟩

theorem Pending.insertUpload (hpending : state.Pending token) :
    (state.insertUpload upload).Pending token := by
  by_cases hsame : token = upload.token.text
  · exact hsame ▸ pending_insertUpload_self
  · obtain ⟨other, hmem, rfl⟩ := pending_iff.mp hpending
    exact pending_iff.mpr ⟨other, by simp [ClientState.insertUpload, hmem, hsame], rfl⟩

theorem Pending.eraseUpload (hpending : state.Pending token) (hother : token ≠ other) :
    (state.eraseUpload other).Pending token := by
  obtain ⟨upload, hmem, rfl⟩ := pending_iff.mp hpending
  exact pending_iff.mpr ⟨upload, by simp [ClientState.eraseUpload, hmem, hother], rfl⟩

theorem Pending.ne_nil (hpending : state.Pending token) : token ≠ [] := by
  obtain ⟨upload, _, rfl⟩ := pending_iff.mp hpending
  intro hnil
  have hvalid := upload.token.valid
  rw [hnil] at hvalid
  cases hvalid

end ClientState

/-- What the client should keep: while an upload waits, another one is active. -/
def World.Progressing (world : World) : Prop :=
  world.state.activeUsername ≠ [] → world.connected = true → world.state.Waiting →
    world.state.activeUploadToken ≠ [] ∧ world.state.Pending world.state.activeUploadToken

def ActivePending (state : ClientState) : Prop :=
  state.activeUploadToken ≠ [] → state.Pending state.activeUploadToken

/-- The invariant. Where no upload is active none waits, unless the connection is lost. -/
structure Settled (world : World) : Prop where
  active : ActivePending world.state
  idle : world.state.activeUploadToken = [] → world.connected = true → ¬world.state.Waiting

theorem Settled.progressing {world : World} (hsettled : Settled world) : world.Progressing := by
  intro _ hconnected hwaiting
  have hactive : world.state.activeUploadToken ≠ [] :=
    fun hnil => hsettled.idle hnil hconnected hwaiting
  exact ⟨hactive, hsettled.active hactive⟩

theorem settled_active {world : World}
    (hpending : world.state.Pending world.state.activeUploadToken) : Settled world :=
  ⟨fun _ => hpending, fun hnil => absurd hnil hpending.ne_nil⟩

/-! ### Sending -/

def Permits (mayFail : Prop) (reply : Reply) : Prop := reply = .sent .failed → mayFail

def Transmits (mayFail : Prop) (world : World) (result : Bool × World) : Prop :=
  result.2.state = world.state ∧ (result.1 = false → result.2.connected = true → mayFail)

section

variable {mayFail : Prop} {world : World} {upload : PendingUpload}

theorem ensures_any {α : Type} {read : Reply → Option α} :
    Ensures (Permits mayFail) (ask read) fun _ => True :=
  Ensures.ask.mono fun _ _ => trivial

theorem transmit_spec : Ensures (Permits mayFail) world.transmit (Transmits mayFail world) := by
  refine .ite (fun _ => Ensures.ask.bind fun outcome houtcome => ?_) fun hlost => .pure ⟨rfl, ?_⟩
  · obtain ⟨reply, hreply, hread⟩ := houtcome
    cases reply <;> cases hread
    cases outcome with
    | sent => exact .pure ⟨rfl, fun hfailed => nomatch hfailed⟩
    | failed => exact .pure ⟨rfl, fun _ _ => hreply rfl⟩
    | lost => exact .pure ⟨rfl, fun _ hconnected => nomatch hconnected⟩
  · exact fun _ hconnected => absurd hconnected hlost

theorem sendAll_spec {data : Bytes} :
    Ensures (Permits mayFail) (world.sendAll data) (Transmits mayFail world) :=
  transmit_spec.mono fun _ hresult => hresult

theorem sendFile_spec {path : Bytes} {offset byteCount : Nat} :
    Ensures (Permits mayFail) (world.sendFile path offset byteCount) (Transmits mayFail world) :=
  transmit_spec.mono fun _ hresult => hresult

theorem uploadRound_spec {frame : Nat × World} (hstate : frame.2.state = world.state) :
    Ensures (Permits mayFail) (uploadRound upload frame)
      (Sum.elim (fun frame => frame.2.state = world.state) (Transmits mayFail world)) := by
  obtain ⟨offset, current⟩ := frame
  have hend : ∀ {result : Bool × World}, Transmits mayFail current result →
      Transmits mayFail world result := fun hresult => ⟨hresult.1.trans hstate, hresult.2⟩
  refine .ite (fun _ => sendAll_spec.bind ?_) fun _ =>
    sendAll_spec.bind fun _ hsent => .pure (hend hsent)
  rintro ⟨_ | _, after⟩ hheader
  · exact .pure (hend hheader)
  refine sendFile_spec.bind ?_
  rintro ⟨_ | _, last⟩ hdata
  · exact .pure ⟨hdata.1.trans (hheader.1.trans hstate), hdata.2⟩
  · exact .pure (hdata.1.trans (hheader.1.trans hstate))

theorem sendUploadData_spec {startOffset : Nat} (hoffset : upload.fileSize < startOffset → mayFail) :
    Ensures (Permits mayFail) (sendUploadData world upload startOffset) (Transmits mayFail world) :=
  .ite (fun hbeyond => .pure ⟨rfl, fun _ _ => hoffset hbeyond⟩)
    fun _ => .loop (fun _ => uploadRound_spec) rfl

/-! ### The stream of an upload -/

/-- What the client is to send for an upload. -/
def World.stream (world : World) (upload : PendingUpload) : UploadStream where
  token := upload.token.text
  content := world.files upload.sourcePath

/-- The output goes on with a beginning of `rest`, and with all of it if the call succeeds. -/
def Streams (world : World) (rest : List (Octet UInt8)) (result : Bool × World) : Prop :=
  result.2.files = world.files ∧ ∃ streamed, result.2.sent = world.sent ++ streamed ∧
    streamed <+: rest ∧ (result.1 = true → streamed = rest)

section

variable {current after : World} {data more : List (Octet UInt8)} {done : Bool}

theorem Streams.andThen (hfirst : Streams world data (true, current))
    (hsecond : Streams current more (done, after)) : Streams world (data ++ more) (done, after) := by
  obtain ⟨hfiles, before, hsent, -, hbefore⟩ := hfirst
  obtain ⟨hfiles', streamed, hsent', hprefix, hall⟩ := hsecond
  obtain rfl := hbefore rfl
  refine ⟨hfiles'.trans hfiles, before ++ streamed, ?_, ?_, fun hdone => by rw [hall hdone]⟩
  · rw [hsent', show current.sent = world.sent ++ before from hsent, List.append_assoc]
  · exact (List.prefix_append_right_inj before).mpr hprefix

theorem Streams.broken (hstreams : Streams world data (false, after)) (more : List (Octet UInt8)) :
    Streams world (data ++ more) (false, after) := by
  obtain ⟨hfiles, streamed, hsent, hprefix, -⟩ := hstreams
  exact ⟨hfiles, streamed, hsent, hprefix.trans (List.prefix_append _ _), nofun⟩

theorem transmit_streams :
    Ensures (fun _ => True) (World.transmit { world with sent := world.sent ++ data })
      (Streams world data) := by
  have hstreams : ∀ done connected, Streams world data
      (done, { world with sent := world.sent ++ data, connected }) := fun _ _ =>
    ⟨rfl, data, rfl, List.prefix_rfl, fun _ => rfl⟩
  refine .ite (fun _ => Ensures.ask.bind fun outcome _ => ?_) fun _ => .pure (hstreams _ _)
  cases outcome <;> exact .pure (hstreams _ _)

/-- Between two rounds, the frames from the offset on are still to be sent. -/
def Underway (world : World) (upload : PendingUpload) (rest : List (Octet UInt8))
    (round : Nat × World) : Prop :=
  ∃ sent, rest = sent ++ (world.stream upload).frames round.1 ∧ Streams world sent (true, round.2)

theorem uploadRound_streams {rest : List (Octet UInt8)} {round : Nat × World}
    (hfile : (world.files upload.sourcePath).length = upload.fileSize)
    (hunderway : Underway world upload rest round) :
    Ensures (fun _ => True) (uploadRound upload round)
      (Sum.elim (Underway world upload rest) (Streams world rest)) := by
  obtain ⟨offset, current⟩ := round
  obtain ⟨sent, rfl, hsent⟩ := hunderway
  have hsize : (world.stream upload).fileSize = upload.fileSize := hfile
  refine .ite (fun hoffset => ?_) fun hoffset => ?_
  · rw [(world.stream upload).frames_of_lt (hsize ▸ hoffset), UploadStream.chunkLine,
      UploadStream.frameSize, hsize]
    refine transmit_streams.bind ?_
    rintro ⟨_ | _, headed⟩ hheader
    · rw [← List.append_assoc]
      exact .pure ((hsent.andThen hheader).broken _)
    have hheaded := hsent.andThen hheader
    refine transmit_streams.bind ?_
    -- the data are those of the frame, since the local files stay as they are
    rw [hheaded.1, ← List.append_assoc]
    have hframe : (world.stream upload).frame offset = ((world.files upload.sourcePath).drop
        offset).take (uploadFrameSize upload.fileSize offset) := by
      rw [UploadStream.frame, UploadStream.frameSize, hsize]
      rfl
    rw [hframe, ← List.append_assoc]
    rintro ⟨_ | _, framed⟩ hdata
    · exact .pure ((hheaded.andThen hdata).broken _)
    · exact .pure ⟨_, rfl, hheaded.andThen hdata⟩
  · rw [(world.stream upload).frames_of_le (hsize ▸ Nat.not_lt.mp hoffset)]
    exact transmit_streams.bind fun _ hend => .pure (hsent.andThen hend)

/-- **`send_upload_data` sends the stream of the upload**, as far as it comes, and all of it if it
succeeds. -/
theorem sendUploadData_streams {startOffset : Nat}
    (hfile : (world.files upload.sourcePath).length = upload.fileSize) :
    Ensures (fun _ => True) (sendUploadData world upload startOffset)
      (Streams world ((world.stream upload).sendUploadData startOffset)) := by
  have hsize : (world.stream upload).fileSize = upload.fileSize := hfile
  rw [UploadStream.sendUploadData, hsize]
  refine .ite (fun hbeyond => ?_) fun hbeyond => ?_
  · rw [if_pos hbeyond]
    exact .pure ⟨rfl, [], (List.append_nil _).symm, List.nil_prefix, fun _ => rfl⟩
  · rw [if_neg hbeyond]
    refine .loop (fun _ => uploadRound_streams hfile) ⟨[], rfl, rfl, [], ?_⟩
    exact ⟨(List.append_nil _).symm, List.prefix_rfl, fun _ => rfl⟩

end

end

/-! ### The next upload -/

section

variable {world : World} {token : Bytes}

theorem uploadSourceMatches_spec {upload : PendingUpload} :
    Ensures (Permits False) (uploadSourceMatches upload)
      fun result => ∀ matching ∈ result, matching.token = upload.token := by
  have hnone : ∀ matching ∈ (none : Option PendingUpload), matching.token = upload.token := nofun
  refine ensures_any.bind fun regular _ => .ite (fun _ => ensures_any.bind fun size _ => .ite (fun _ =>
    .ite (fun _ => .pure ?_) fun _ => ensures_any.bind fun digest _ => .ite (fun _ => .pure ?_)
      fun _ => .pure hnone) fun _ => .pure hnone) fun _ => .pure hnone
  · rintro _ ⟨⟩
    rfl
  · rintro _ ⟨⟩
    rfl

theorem startQueuedUploads_spec {queue : List Bytes} (hactive : world.state.activeUploadToken = [])
    (hqueue : world.state.uploadQueue = queue) :
    Ensures (Permits False) (startQueuedUploads queue world) fun result => Settled result.2 := by
  induction queue generalizing world with
  | nil =>
    refine .pure ⟨fun hne => absurd hactive hne, fun _ _ hwaiting => ?_⟩
    obtain ⟨token, hmem, _⟩ := hwaiting
    rw [hqueue] at hmem
    cases hmem
  | cons token rest ih =>
    rw [startQueuedUploads]
    split
    · exact ih hactive rfl
    · rename_i upload hfound
      refine uploadSourceMatches_spec.bind fun result hmatching => ?_
      cases result with
      | none => exact ih hactive rfl
      | some matching =>
        have htoken : matching.token.text = token := by
          have hfind := List.find?_some hfound
          rw [hmatching matching rfl]
          exact of_decide_eq_true hfind
        refine sendAll_spec.bind ?_
        rintro ⟨_ | _, after⟩ ⟨hstate, hlost⟩
        · exact .pure ⟨fun hne => absurd rfl hne, fun _ hconnected => absurd (hlost rfl hconnected) id⟩
        · refine .pure (settled_active ?_)
          rw [hstate, ← htoken]
          exact ClientState.pending_insertUpload_self

theorem startNextQueuedUpload_spec (hactive : ActivePending world.state) :
    Ensures (Permits False) (startNextQueuedUpload world) fun result => Settled result.2 :=
  .ite (fun hne => .pure (settled_active (hactive hne)))
    fun hnil => startQueuedUploads_spec (not_not.mp hnil) rfl

theorem loadAndResumePendingUploads_spec (hsettled : Settled world) :
    Ensures (Permits False) (loadAndResumePendingUploads world) fun result => Settled result.2 := by
  refine ensures_any.bind fun saved _ => ?_
  cases saved with
  | none => exact .pure hsettled
  | some saved =>
    refine startNextQueuedUpload_spec ?_
    refine List.foldlRecOn saved ClientState.enqueueUpload (fun hne => absurd rfl hne) ?_
    exact fun _ hactive _ _ hne => (hactive hne).insertUpload

theorem prepareUpload_spec {scope : TransferScope} {target rawPath : Bytes} (hsettled : Settled world) :
    Ensures (Permits False) (prepareUpload world scope target rawPath)
      fun result => Settled result.2 := by
  refine .ite (fun _ => .pure hsettled) fun _ => ensures_any.bind fun regular _ =>
    .ite (fun _ => ensures_any.bind fun size _ => ?_) fun _ => .pure hsettled
  cases size with
  | none => exact .pure hsettled
  | some fileSize =>
    refine .ite (fun _ => .pure hsettled) fun _ => ensures_any.bind fun digest _ => ?_
    cases digest with
    | none => exact .pure hsettled
    | some sha256Hex =>
      refine ensures_any.bind fun token _ => ?_
      cases token with
      | none => exact .pure hsettled
      | some token =>
        refine ensures_any.bind fun time _ => ensures_any.bind fun saved _ => .ite (fun _ => ?_)
          fun _ => .pure hsettled
        exact startNextQueuedUpload_spec fun hne => (hsettled.active hne).insertUpload

theorem ActivePending.drop {state : ClientState} (hactive : ActivePending state) :
    ActivePending ((state.eraseUpload token).deactivate token) := by
  unfold ClientState.deactivate
  split
  · exact fun hne => absurd rfl hne
  · rename_i hother
    exact fun hne => (hactive hne).eraseUpload hother

theorem dropUpload_spec (hsettled : Settled world) :
    Ensures (Permits False) (dropUpload world token) Settled :=
  (startNextQueuedUpload_spec hsettled.active.drop).bind fun _ hresult => .pure hresult

end

/-! ### Whole runs -/

inductive Input where
  | trackLogin (username : Bytes)
  | login
  | logout
  | upload (scope : TransferScope) (target rawPath : Bytes)
  | line (text : Bytes)

def handle (world : World) : Input → Procedure World
  | .trackLogin username =>
    pure (world.modify fun state => { state with pendingLoginUsername := username })
  | .login =>
    if world.state.pendingLoginUsername ≠ [] then do
      let (_, world) ← loadAndResumePendingUploads (world.modify fun state =>
        { state with activeUsername := state.pendingLoginUsername, pendingLoginUsername := [] })
      pure world
    else
      pure world
  | .logout => pure (world.modify fun state =>
      { leaveChatSession state with
        activeUsername := []
        pendingLoginUsername := []
        pendingUploads := []
        uploadQueue := []
        activeUploadToken := []
        downloads := []
        binaryDownload := {}
        pendingPrivateFileOffers := []
        pendingGroupFileOffers := [] })
  | .upload scope target rawPath => do
    let (_, world) ← prepareUpload world scope target rawPath
    pure world
  | .line text => handleUploadLine world text

structure Event where
  input : Input
  replies : List Reply

def step (world : World) (event : Event) : Option World :=
  (handle world event.input event.replies).map Prod.fst

/-- The line frees the place of the active upload whatever is answered: it pauses that upload, or
asks for data behind the end of the file. -/
def Releases (state : ClientState) (line : Bytes) : Prop :=
  let words := splitWords (parseCommand line).rawArguments
  (parseCommand line).name = utf8 "FILE_PAUSED" ∧
    (∃ reason rest, words = state.activeUploadToken :: reason :: rest) ∨
  (parseCommand line).name = utf8 "FILE_READY" ∧ ∃ token offset startOffset upload,
    words = [token, offset] ∧ parseUint64Value offset = some startOffset ∧
      state.findUpload token = some upload ∧ upload.fileSize < startOffset

structure Steady (world : World) (event : Event) : Prop where
  line : ∀ text, event.input = .line text → Releases world.state text → ¬world.state.Waiting
  sends : ∀ reply ∈ event.replies, Permits (¬world.state.Waiting ∧
    ∃ text, event.input = .line text ∧ (parseCommand text).name = utf8 "FILE_READY") reply

section

variable {world : World} {text : Bytes}

theorem fileReady_spec {words : List Bytes} {mayFail : Prop} (hsettled : Settled world)
    (hidle : mayFail → ¬world.state.Waiting)
    (hoffset : ∀ token offset startOffset upload, words = [token, offset] →
      parseUint64Value offset = some startOffset → world.state.findUpload token = some upload →
      upload.fileSize < startOffset → mayFail) :
    Ensures (Permits mayFail) (fileReady world words) Settled := by
  unfold fileReady
  split
  · rename_i token offset
    split
    · rename_i startOffset upload hnumber hfound
      refine (sendUploadData_spec (hoffset _ _ _ _ rfl hnumber hfound)).bind ?_
      rintro ⟨_ | _, after⟩ ⟨hstate, hfailed⟩
      · refine .pure ⟨fun hne => absurd rfl hne, fun _ hconnected hwaiting => ?_⟩
        refine hidle (hfailed rfl hconnected) ?_
        rw [World.modify, hstate] at hwaiting
        exact hwaiting
      · refine .pure (settled_active ?_)
        rw [hstate]
        exact Option.isSome_of_eq_some hfound
    · exact .pure hsettled
  · exact .pure hsettled

theorem settled_filePaused {words : List Bytes} (hsettled : Settled world)
    (hidle : ∀ reason rest, words = world.state.activeUploadToken :: reason :: rest →
      ¬world.state.Waiting) :
    Settled (filePaused world words) := by
  unfold filePaused
  split
  · rename_i token reason rest
    by_cases hsame : world.state.activeUploadToken = token
    · have hfree : (world.state.deactivate token) = { world.state with activeUploadToken := [] } :=
        if_pos hsame
      rw [World.modify, hfree]
      exact ⟨fun hne => absurd rfl hne, fun _ _ => hidle reason rest (by rw [hsame])⟩
    · have hkept : world.state.deactivate token = world.state := if_neg hsame
      rw [World.modify, hkept]
      exact hsettled
  · exact hsettled

theorem permits_mono {mayFail mayFail' : Prop} {replies : List Reply} (himp : mayFail → mayFail')
    (hreplies : ∀ reply ∈ replies, Permits mayFail reply) :
    ∀ reply ∈ replies, Permits mayFail' reply :=
  fun reply hmem hfailed => himp (hreplies reply hmem hfailed)

theorem handleUploadLine_settled {replies rest : List Reply} {after : World} (hsettled : Settled world)
    (hsteady : Steady world ⟨.line text, replies⟩)
    (hrun : handleUploadLine world text replies = some (after, rest)) : Settled after := by
  have hline := hsteady.line text rfl
  have hother : (parseCommand text).name ≠ utf8 "FILE_READY" →
      ∀ reply ∈ replies, Permits False reply := by
    intro hname
    refine permits_mono ?_ hsteady.sends
    rintro ⟨_, _, ⟨⟩, hready⟩
    exact hname hready
  unfold handleUploadLine at hrun
  split at hrun
  · rename_i hready
    refine (fileReady_spec hsettled id ?_ replies after rest ?_ hrun).2
    · intro token offset startOffset upload hwords hnumber hfound hbeyond
      exact hline (.inr ⟨hready, token, offset, startOffset, upload, hwords, hnumber, hfound, hbeyond⟩)
    · exact permits_mono And.left hsteady.sends
  rename_i hready
  split at hrun
  · rename_i hpaused
    cases hrun
    exact settled_filePaused hsettled fun reason rest hwords =>
      hline (.inl ⟨hpaused, reason, rest, hwords⟩)
  refine (?_ : Ensures (Permits False) _ Settled) replies after rest (hother hready) hrun |>.2
  refine .ite (fun _ => ?_) fun _ => .ite (fun _ => ?_) fun _ => .pure hsettled
  · unfold fileReject
    split
    · exact dropUpload_spec hsettled
    · exact .pure hsettled
  · unfold fileUploadOk
    split
    · exact .ite (fun _ => dropUpload_spec hsettled) fun _ => .pure hsettled
    · exact .pure hsettled

theorem settled_step {event : Event} {after : World} (hsettled : Settled world)
    (hsteady : Steady world event) (hstep : step world event = some after) : Settled after := by
  obtain ⟨input, replies⟩ := event
  obtain ⟨⟨after, rest⟩, hrun, rfl⟩ := Option.map_eq_some_iff.mp hstep
  have hrest : (∀ text, input ≠ .line text) → ∀ reply ∈ replies, Permits False reply := by
    intro hother
    refine permits_mono ?_ hsteady.sends
    rintro ⟨_, text, hline, _⟩
    exact hother text hline
  cases input with
  | trackLogin username =>
    cases hrun
    exact ⟨hsettled.active, hsettled.idle⟩
  | logout =>
    cases hrun
    exact ⟨fun hne => absurd rfl hne, fun _ _ ⟨_, hmem, _⟩ => nomatch hmem⟩
  | login =>
    have hensures : Ensures (Permits False) (handle world .login) Settled := by
      refine .ite (fun _ => ?_) fun _ => .pure hsettled
      refine (loadAndResumePendingUploads_spec ?_).bind fun _ hresult => .pure hresult
      exact ⟨hsettled.active, hsettled.idle⟩
    exact (hensures _ _ _ (hrest nofun) hrun).2
  | upload scope target rawPath =>
    have hensures : Ensures (Permits False) (handle world (.upload scope target rawPath)) Settled :=
      (prepareUpload_spec hsettled).bind fun _ hresult => .pure hresult
    exact (hensures _ _ _ (hrest nofun) hrun).2
  | line text => exact handleUploadLine_settled hsettled hsteady hrun

end

/-- **The queue of uploads does not stall** in a run in which the active upload is paused, and its
data fail to be sent on a connection that stays, only while no other upload waits, and in which
every announcement is sent unless the connection is lost. -/
theorem upload_queue_never_stalls {start world : World} {events : List Event}
    (hqueue : start.state.uploadQueue = []) (hactive : start.state.activeUploadToken = [])
    (hrun : Run step Steady start events world) : world.Progressing := by
  refine (hrun.invariant Settled (fun _ _ _ => settled_step) ?_).progressing
  refine ⟨fun hne => absurd hactive hne, fun _ _ ⟨_, hmem, _⟩ => ?_⟩
  rw [hqueue] at hmem
  cases hmem

def threeBytes (token : TransferToken) : PendingUpload :=
  { token
    scope := .privateFile
    target := utf8 "bob"
    sourcePath := utf8 "a.txt"
    fileName := utf8 "a.txt"
    fileSize := 3
    sha256Hex := List.replicate 64 97
    sourceShaVerified := false
    createdAtUnixMs := 0 }

def firstToken : TransferToken := ⟨List.replicate 32 97, by decide⟩

def secondToken : TransferToken := ⟨List.replicate 32 98, by decide⟩

def twoUploads : List Event :=
  [⟨.trackLogin (utf8 "amy"), []⟩,
    ⟨.login, [.uploads (some [threeBytes firstToken, threeBytes secondToken]), .flag true,
      .fileSize (some 3), .digest (some (List.replicate 64 97)), .sent .sent]⟩]

def quietStep (event : Event) : Bool :=
  !(event.input matches .line _) && !event.replies.contains (.sent .failed)

theorem upload_queue_never_stalls_two :
    ∃ world, Run step Steady { state := {} } twoUploads world ∧ world.state.Waiting ∧
      world.Progressing := by
  have hsteady : ∀ (world : World) (event : Event), quietStep event = true → Steady world event := by
    intro world event hquiet
    simp only [quietStep, Bool.and_eq_true, Bool.not_eq_true', List.contains_eq_mem,
      decide_eq_false_iff_not] at hquiet
    refine ⟨fun text hline => ?_, fun reply hmem hfailed => absurd (hfailed ▸ hmem) hquiet.2⟩
    rw [hline] at hquiet
    cases hquiet.1
  obtain ⟨world, hrun, hwaiting⟩ := replay_reaches hsteady (by decide +kernel :
    (replay step (fun _ => quietStep) { state := {} } twoUploads).any
      (fun world => world.state.Waiting) = true)
  exact ⟨world, hrun, of_decide_eq_true hwaiting, upload_queue_never_stalls rfl rfl hrun⟩

/-- The first of two uploads is paused; the second one is not started. -/
theorem stalled_after_pause :
    ∃ world, Run step anyStep { state := {} }
      (twoUploads ++ [⟨.line (utf8 "FILE_PAUSED " ++ firstToken.text ++ utf8 " busy"), []⟩]) world ∧
      ¬world.Progressing := by
  obtain ⟨world, hrun, hstalled⟩ := replay_reaches (fun _ _ _ => trivial) (by decide +kernel :
    (replay step (fun _ _ => true) { state := {} }
      (twoUploads ++ [⟨.line (utf8 "FILE_PAUSED " ++ firstToken.text ++ utf8 " busy"), []⟩])).any
      (fun world => world.state.activeUsername ≠ [] ∧ world.connected ∧ world.state.Waiting ∧
        world.state.activeUploadToken = []) = true)
  obtain ⟨hlogin, hconnected, hwaiting, hidle⟩ := of_decide_eq_true hstalled
  exact ⟨world, hrun, fun hprogress => (hprogress hlogin hconnected hwaiting).1 hidle⟩

end ChatRoom.Client
