import ChatRoom.Proof.UploadStream
import ChatRoom.Segmentation

/-!
# Raw data that is taken for text

The client streams all frames of a file without waiting, and the server leaves the upload when it
refuses a header or cannot store a frame. The data that the client has sent by then is still in the
stream.
-/

namespace ChatRoom

open Handler Interleaving MixedStream

variable {config : ServerConfig} {env : Environment} {conn : ConnId} {upload : UploadStream}
  {offset : Nat}

def AcceptsHeader (upload : UploadStream) (conn : ConnId) (offset : Nat) (s : Shared) : Prop :=
  (s.sessions conn).loggedIn = true ∧
    (parseFileChunk (s.sessions conn) (upload.chunkWords offset)).isOk = true

/-- An active upload with the token of the file has its size, and the partial file has the bytes
that the session counts. -/
def UploadMatches (upload : UploadStream) (conn : ConnId) (s : Shared) : Prop :=
  ∀ active, (s.sessions conn).upload = some active → active.token = upload.token →
    active.expectedSize = upload.fileSize ∧
      ∃ part, s.store.parts upload.token = some part ∧ part.length = active.receivedSize

/-! ### In step -/

/-- Raw data has not been taken for text and will not be. -/
def NeverText (env : Environment) (upload : UploadStream) (conn : ConnId) (host : Host)
    (stream : List Octet) : Prop :=
  (∀ line ∈ host.lines, Plain line) ∧ InStep env upload conn host stream

theorem plain_lines_append {lines : List (List Octet)} {line : List Octet}
    (hlines : ∀ line ∈ lines, Plain line) (hline : Plain line) :
    ∀ line' ∈ lines ++ [line], Plain line' := by
  intro line' hmem
  rcases List.mem_append.mp hmem with hmem | hmem
  · exact hlines line' hmem
  · rw [List.mem_singleton.mp hmem]
    exact hline

theorem lines_of_round {host host' : Host} {buffer rest : List Octet}
    (hround : (inputReader config env conn).round newline host buffer = some (host', rest)) :
    host'.lines = host.lines ∨ ∃ line, buffer = line ++ rest ∧ host'.lines = host.lines ++ [line] := by
  obtain ⟨line, -, htake, rfl⟩ | ⟨count, -, -, -, rfl, -⟩ := Reader.round_cases hround
  · right
    refine ⟨line, takeLine_append htake, ?_⟩
    rw [inputReader_onLine, settle_lines, handleLine_lines]
  · exact .inl (handleFrameBytes_lines config env conn host _)

theorem NeverText.round (htoken : IsWord upload.token) (hsize : upload.fileSize < 2 ^ 64)
    (hleaves : LeavesUpload env conn upload.token) {host host' : Host}
    {buffer rest unread : List Octet} (hnever : NeverText env upload conn host (buffer ++ unread))
    (hround : (inputReader config env conn).round newline host buffer = some (host', rest)) :
    NeverText env upload conn host' (rest ++ unread) := by
  obtain ⟨hlines, hstep⟩ := hnever
  generalize hstream : buffer ++ unread = stream at hstep
  cases hstep with
  | plain hplain =>
    rw [← hstream] at hplain
    obtain ⟨taken, rfl⟩ := Reader.buffer_of_round hround
    rw [List.append_assoc] at hplain
    refine ⟨?_, .plain hplain.of_append_right⟩
    rcases lines_of_round hround with hsame | ⟨line, hbuffer, hmore⟩
    · rw [hsame]
      exact hlines
    · rw [hmore]
      rw [List.append_cancel_right hbuffer] at hplain
      exact plain_lines_append hlines hplain.of_append_left
  | closed hdemand =>
    rw [Reader.round_nothing hdemand] at hround
    cases hround
  | header hshared hoffset hactive hbinary happends =>
    obtain ⟨hstep', line, hmore, hplain⟩ := inStep_header htoken hsize hleaves hshared hoffset
      hactive hbinary happends hstream hround
    refine ⟨?_, hstep'⟩
    rw [hmore]
    exact plain_lines_append hlines hplain
  | payload hshared hoffset hreceiving hdata happends =>
    obtain ⟨hstep', hsame⟩ := inStep_payload hshared hoffset hreceiving hdata happends hstream hround
    refine ⟨?_, hstep'⟩
    rw [hsame]
    exact hlines

theorem NeverText.close {host : Host} {stream : List Octet} {s : Shared}
    (hnever : NeverText env upload conn host stream) (hclosed : s.connected conn = false) :
    NeverText env upload conn { host with shared := some s } stream :=
  ⟨hnever.1, .closed (by simp [Host.demand, hclosed])⟩

theorem parseFileChunk_ok {session : ClientSession} {frame : PendingBinaryUploadFrame}
    (hoffset : offset < 2 ^ 64)
    (hparse : parseFileChunk session (upload.chunkWords offset) = .ok frame) :
    ∃ active, session.upload = some active ∧ active.token = upload.token ∧
      active.receivedSize = offset := by
  simp only [parseFileChunk, UploadStream.chunkWords, parseUint64Value_decimal hoffset] at hparse
  split at hparse
  · cases hparse
  · rename_i active hupload
    split at hparse
    · cases hparse
    · rename_i htoken
      split at hparse
      · cases hparse
      · split at hparse
        · split at hparse
          · cases hparse
          · rename_i hoffset' _ hvalue _ hcond
            cases hvalue
            simp only [Bool.or_eq_true, decide_eq_true_eq, not_or, Decidable.not_not] at hcond
            exact ⟨active, hupload, Decidable.not_not.mp htoken, hcond.1.2.symm⟩
        · cases hparse

theorem active_of_acceptsHeader {s : Shared} (hconnected : s.connected conn = true)
    (hmatches : UploadMatches upload conn s) (hoffset : offset < 2 ^ 64)
    (haccepts : AcceptsHeader upload conn offset s) : Active upload conn offset s := by
  obtain ⟨hlogin, haccepts⟩ := haccepts
  cases hparse : parseFileChunk (s.sessions conn) (upload.chunkWords offset) with
  | error error =>
    rw [hparse] at haccepts
    cases haccepts
  | ok frame =>
    obtain ⟨active, hupload, htoken, hreceived⟩ := parseFileChunk_ok hoffset hparse
    obtain ⟨hexpected, part, hpart, hlength⟩ := hmatches active hupload htoken
    exact ⟨hconnected, hlogin, ⟨active, hupload, htoken, hreceived, hexpected⟩,
      ⟨part, hpart, hlength.trans hreceived⟩⟩

theorem plain_of_inStep (htoken : IsWord upload.token) (hsize : upload.fileSize < 2 ^ 64)
    (hleaves : LeavesUpload env conn upload.token) {s : Shared}
    (hbinary : (s.sessions conn).binaryUpload = none) {stream : List Octet}
    (hstep : InStep env upload conn { shared := some s } stream) {events : List Input.Event}
    (harriving : Input.arriving events <+: stream) :
    ∀ line ∈ (Input.receive config env conn ⟨{ shared := some s }, [], 0⟩ events).host.lines,
      Plain line := by
  obtain ⟨suffix, rfl⟩ := harriving
  refine (receive_keeps (Q := NeverText env upload conn) ?_ ?_ suffix events ?_ ⟨by simp, hstep⟩).1
  · intro host host' buffer rest unread hnever hround
    exact hnever.round htoken hsize hleaves hround
  · intro host stream s hnever hclosed
    exact hnever.close hclosed
  · refine not_orphaned_of_binaryUpload fun s' hs' => ?_
    cases hs'
    exact hbinary

/-! ### Out of step -/

theorem afterChunk_rejected {s : Shared} (htoken : IsWord upload.token)
    (hconnected : s.connected conn = true) (hbinary : (s.sessions conn).binaryUpload = none)
    (hrejects : ¬AcceptsHeader upload conn offset s) :
    (s.afterChunk conn (upload.chunkArguments offset)).connected conn = true ∧
      ((s.afterChunk conn (upload.chunkArguments offset)).sessions conn).binaryUpload = none := by
  rw [AcceptsHeader, ← UploadStream.splitWords_chunkArguments htoken] at hrejects
  rw [Shared.afterChunk]
  cases hlogin : (s.sessions conn).loggedIn with
  | false =>
    simp only [Bool.false_eq_true, if_false, sendText_connected, sendText_sessions,
      served_connected, served_sessions]
    exact ⟨hconnected, hbinary⟩
  | true =>
    cases hparse : parseFileChunk (s.sessions conn)
        (splitWords (upload.chunkArguments offset)) with
    | ok frame => exact absurd ⟨hlogin, by rw [hparse]; rfl⟩ hrejects
    | error error =>
      simp only [if_true, sendText_connected, sendText_sessions, served_connected,
        served_sessions]
      exact ⟨hconnected, rfl⟩

theorem newline_mem_frames (offset : Nat) : newline ∈ values (upload.frames offset) := by
  by_cases hoffset : offset < upload.fileSize
  · rw [upload.frames_of_lt hoffset, values_append, values_text, upload.chunkLine_eq]
    simp
  · rw [upload.frames_of_le (Nat.not_lt.mp hoffset), values_text, UploadStream.endLine, fileEndLine]
    have hend : utf8 "\n" = [newline] := by decide
    simp [hend]

theorem raw_line_of_frames (hoffset : offset < upload.fileSize) (next : Nat) :
    ∃ line rest, takeLine newline (rawData (upload.frame offset) ++ upload.frames next) =
      some (line, rest) ∧ ¬Plain line := by
  have hsome : (takeLine newline (rawData (upload.frame offset) ++ upload.frames next)).isSome = true := by
    rw [takeLine_isSome, values_append]
    exact List.mem_append_right _ (newline_mem_frames next)
  obtain ⟨⟨line, rest⟩, htake⟩ := Option.isSome_iff_exists.mp hsome
  refine ⟨line, rest, htake, ?_⟩
  obtain ⟨value, data, hframe⟩ := List.exists_cons_of_ne_nil (upload.frame_ne_nil hoffset)
  obtain ⟨octet, line, rfl⟩ := List.exists_cons_of_ne_nil (takeLine_ne_nil htake)
  have happend := takeLine_append htake
  rw [hframe] at happend
  have hoctet : (⟨value, true⟩ : Octet) = octet := (List.cons.inj happend).1
  intro hplain
  have hraw := hplain octet List.mem_cons_self
  rw [← hoctet] at hraw
  cases hraw

section Leaks

variable {host : Host} {s : Shared} {queued : Nat}

theorem pendingFrame_of_binaryUpload {session : ClientSession}
    (hbinary : session.binaryUpload = none) : session.pendingFrame = none := by
  rw [ClientSession.pendingFrame, hbinary]
  rfl

theorem onMessage_chunkLine (fuel : Nat) (htoken : IsWord upload.token)
    (hshared : host.shared = some s) (hconnected : s.connected conn = true)
    (hbinary : (s.sessions conn).binaryUpload = none) (rest : List Octet) :
    ∃ processed, processed ≤ 1 ∧
      Input.onMessage config env conn (fuel + 1) 0
          ⟨host, text (upload.chunkLine offset) ++ rest, queued⟩ =
        Input.onMessage config env conn fuel processed
          ⟨host.handleLine config env conn (text (upload.chunkLine offset)), rest, queued⟩ := by
  have htake := takeLine_text (UploadStream.isLine_chunkLine htoken offset) rest
  have hcount : countCommand 0 (text (upload.chunkLine offset)) ≤ 1 := by
    unfold countCommand
    split <;> decide
  have hgoes : ¬kRealtimeCommandBatch ≤ countCommand 0 (text (upload.chunkLine offset)) := by
    unfold kRealtimeCommandBatch
    omega
  refine ⟨_, hcount, ?_⟩
  rw [onMessage_takeLine ⟨hshared, hconnected, pendingFrame_of_binaryUpload hbinary⟩ htake]
  exact if_neg (by simp [Input.yields, hgoes])

theorem leaks_of_rejected (config : ServerConfig) (htoken : IsWord upload.token)
    (hleaves : LeavesUpload env conn upload.token) (hoffset : offset < upload.fileSize)
    (hshared : host.shared = some s) (hconnected : s.connected conn = true)
    (hbinary : (s.sessions conn).binaryUpload = none)
    (hrejects : ¬AcceptsHeader upload conn offset s) :
    ∃ line ∈ (Input.step config env conn ⟨host, [], queued⟩
      (.read (upload.frames offset))).host.lines, ¬Plain line := by
  obtain ⟨line, rest, htake, hraw⟩ := raw_line_of_frames hoffset (offset + upload.frameSize offset)
  refine ⟨line, ?_, hraw⟩
  have hothers : ¬AcceptsHeader upload conn offset (env.others host.history s) := by
    rw [AcceptsHeader, hleaves.session]
    exact hrejects
  obtain ⟨hconnected', hbinary'⟩ := afterChunk_rejected htoken
    ((hleaves.connected host.history s).trans hconnected)
    (by rw [hleaves.session]; exact hbinary) hothers
  have hhandled := handleLine_chunkLine config offset htoken hleaves hshared hconnected
  have hshared' : (host.handleLine config env conn (text (upload.chunkLine offset))).shared =
      some _ := congrArg Host.shared hhandled
  rw [Input.step, List.nil_append, upload.frames_of_lt hoffset]
  obtain ⟨processed, -, hcontinue⟩ := onMessage_chunkLine _ htoken hshared hconnected hbinary
    (rawData (upload.frame offset) ++ upload.frames (offset + upload.frameSize offset))
  rw [hcontinue]
  refine mem_lines_onMessage processed ?_
    ⟨hshared', hconnected', pendingFrame_of_binaryUpload hbinary'⟩ htake
  have hheader := List.length_pos_iff.mpr (upload.chunkLine_ne_nil offset)
  simp only [List.length_append, length_text]
  omega

theorem handleFrameBytes_frame (config : ServerConfig) (env : Environment)
    (hshared : host.shared = some s) (hreceiving : Receiving upload conn offset [] s) :
    (host.handleFrameBytes config env conn (rawData (upload.frame offset))).shared =
      s.storeFrame env conn (s.sessions conn) (upload.pending offset (upload.frame offset)) := by
  obtain ⟨active, hin⟩ := hreceiving.inFrame hshared
  have hframe : (upload.pending offset []).take (values (rawData (upload.frame offset))) =
      upload.pending offset (upload.frame offset) := by
    rw [values_rawData, pending_take (by rw [upload.length_frame]; simp), List.nil_append]
  have hend : ((upload.pending offset []).take
      (values (rawData (upload.frame offset)))).remainingBytes = 0 := by
    rw [hframe]
    simp [UploadStream.pending, upload.length_frame]
  rw [handleFrameBytes_end hin hend, hframe]

theorem onMessage_frame (config : ServerConfig) (env : Environment) (fuel processed : Nat)
    (hshared : host.shared = some s) (hreceiving : Receiving upload conn offset [] s) :
    Input.onMessage config env conn (fuel + 2) processed
        ⟨host, rawData (upload.frame offset), queued⟩ =
      ⟨host.handleFrameBytes config env conn (rawData (upload.frame offset)), [], queued⟩ := by
  obtain ⟨active, hin⟩ := hreceiving.inFrame hshared
  have hlength : (rawData (upload.frame offset)).length = upload.frameSize offset := by
    rw [length_rawData, upload.length_frame]
  have hbuffer : rawData (upload.frame offset) ≠ [] := by
    intro hnil
    have hunfinished := hreceiving.unfinished
    rw [hnil] at hlength
    simp only [List.length_nil] at hlength hunfinished
    omega
  have hremaining : (rawData (upload.frame offset)).length ≤
      (upload.pending offset []).remainingBytes := hlength.le
  have hstored := handleFrameBytes_frame config env hshared hreceiving
  rw [onMessage_data hin hbuffer,
    List.take_of_length_le hremaining, List.drop_of_length_le hremaining]
  dsimp only
  split
  · -- nothing is left to do
    rename_i huploading
    simp only [Host.uploading, Host.session, Option.any_eq_true, Option.map_eq_some_iff] at huploading
    obtain ⟨-, ⟨s', hshared', -⟩, -⟩ := huploading
    have hstore := hstored.symm.trans hshared'
    have hconnected : s'.connected conn = true := by
      obtain ⟨_, _, -, rfl⟩ | ⟨_, _, -, rfl⟩ := storeFrame_cases hstore
      · exact hreceiving.connected
      · rw [sendText_connected]
        exact hreceiving.connected
    rw [onMessage_no_line ⟨hshared', hconnected,
      pendingFrame_of_binaryUpload (storeFrame_binaryUpload hstore)⟩ rfl, checkLength_of_le (Nat.zero_le _)]
  · rfl

theorem read_frame (config : ServerConfig) (htoken : IsWord upload.token)
    (hsize : upload.fileSize < 2 ^ 64) (hleaves : LeavesUpload env conn upload.token)
    (hoffset : offset < upload.fileSize) (hshared : host.shared = some s)
    (hactive : Active upload conn offset s) (hbinary : (s.sessions conn).binaryUpload = none) :
    ∃ s' host', Active upload conn offset s' ∧
      host'.shared = s'.storeFrame env conn (s'.sessions conn)
        (upload.pending offset (upload.frame offset)) ∧
      Input.step config env conn ⟨host, [], queued⟩
        (.read (text (upload.chunkLine offset) ++ rawData (upload.frame offset))) =
          ⟨host', [], queued⟩ := by
  obtain ⟨s', hshared', hreceiving⟩ :=
    onLine_chunkLine config htoken hsize hleaves hshared hoffset hactive hbinary
  refine ⟨s', _, hreceiving.toActive, handleFrameBytes_frame config env hshared' hreceiving, ?_⟩
  have hheader := List.length_pos_iff.mpr (upload.chunkLine_ne_nil offset)
  have hpos := upload.frameSize_pos hoffset
  obtain ⟨fuel, hfuel⟩ : ∃ fuel, (text (upload.chunkLine offset) ++
      rawData (upload.frame offset)).length = fuel + 2 := by
    refine ⟨(upload.chunkLine offset).length + upload.frameSize offset - 2, ?_⟩
    rw [List.length_append, length_rawData, upload.length_frame, length_text]
    omega
  obtain ⟨processed, -, hcontinue⟩ := onMessage_chunkLine (fuel + 2) htoken hshared
    hactive.connected hbinary (rawData (upload.frame offset))
  rw [Input.step, List.nil_append]
  dsimp only
  rw [hfuel, hcontinue, onMessage_frame config env fuel processed hshared' hreceiving]

theorem rejects_of_detached (hdetached : (s.sessions conn).upload = none) :
    ¬AcceptsHeader upload conn offset s := by
  rintro ⟨-, haccepts⟩
  simp only [parseFileChunk, UploadStream.chunkWords, hdetached] at haccepts
  cases haccepts

variable (config) in
theorem leaks_of_first_failed (htoken : IsWord upload.token) (hsize : upload.fileSize < 2 ^ 64)
    (hleaves : LeavesUpload env conn upload.token)
    (houtcome : (env.append offset).ofAppend = true) (hfailed : env.append offset ≠ .done)
    (hnext : offset + upload.frameSize offset < upload.fileSize) (hshared : host.shared = some s)
    (hactive : Active upload conn offset s) (hbinary : (s.sessions conn).binaryUpload = none) :
    ∃ events, Input.arriving events = upload.frames offset ∧
      ∃ line ∈ (Input.receive config env conn ⟨host, [], queued⟩ events).host.lines, ¬Plain line := by
  have hoffset : offset < upload.fileSize := by omega
  obtain ⟨s', host', hactive', hstored, hread⟩ :=
    read_frame config htoken hsize hleaves hoffset hshared hactive hbinary
  obtain ⟨s'', hstore, hconnected, hdetached, hbinary'⟩ :=
    storeFrame_failed (upload.frame offset) hactive' houtcome hfailed
  refine ⟨[.read (text (upload.chunkLine offset) ++ rawData (upload.frame offset)),
    .read (upload.frames (offset + upload.frameSize offset))], ?_, ?_⟩
  · simp [Input.arriving, upload.frames_of_lt hoffset]
  · rw [Input.receive, List.foldl_cons, hread, List.foldl_cons, List.foldl_nil]
    exact leaks_of_rejected config htoken hleaves hnext (hstored.trans hstore) hconnected hbinary'
      (rejects_of_detached hdetached)

variable (config) in
/-- If a frame other than the last one cannot be stored, the data of the next one are taken for
text. -/
theorem leaks_of_failed (htoken : IsWord upload.token) (hsize : upload.fileSize < 2 ^ 64)
    (hleaves : LeavesUpload env conn upload.token)
    (houtcome : ∀ offset, (env.append offset).ofAppend = true) (count : Nat)
    (hcount : offset + (count + 1) * kFileFrameBytes < upload.fileSize)
    (hfailed : env.append (offset + count * kFileFrameBytes) ≠ .done)
    (hshared : host.shared = some s) (hactive : Active upload conn offset s)
    (hbinary : (s.sessions conn).binaryUpload = none) :
    ∃ events, Input.arriving events = upload.frames offset ∧
      ∃ line ∈ (Input.receive config env conn ⟨host, [], queued⟩ events).host.lines, ¬Plain line := by
  induction count generalizing offset host s with
  | zero =>
    have hnext : offset + upload.frameSize offset < upload.fileSize := by
      have hle : upload.frameSize offset ≤ kFileFrameBytes := Nat.min_le_right _ _
      omega
    rw [Nat.zero_mul, Nat.add_zero] at hfailed
    exact leaks_of_first_failed config htoken hsize hleaves (houtcome offset) hfailed hnext hshared
      hactive hbinary
  | succ count ih =>
    rw [Nat.succ_mul] at hcount
    have hnext : offset + upload.frameSize offset < upload.fileSize := by
      have hle : upload.frameSize offset ≤ kFileFrameBytes := Nat.min_le_right _ _
      omega
    have hoffset : offset < upload.fileSize := by omega
    by_cases hdone : env.append offset = .done
    · obtain ⟨s', host', hactive', hstored, hread⟩ :=
        read_frame config htoken hsize hleaves hoffset hshared hactive hbinary
      obtain ⟨s'', hstore, hactive'', hbinary'⟩ :=
        storeFrame_done (upload.frame offset) hactive' hdone
      rw [upload.length_frame, frameSize_of_lt hnext] at hactive''
      rw [Nat.succ_mul, Nat.add_comm (count * kFileFrameBytes), ← Nat.add_assoc] at hfailed
      obtain ⟨events, harriving, hleaks⟩ :=
        ih (by omega) hfailed (hstored.trans hstore) hactive'' hbinary'
      refine ⟨.read (text (upload.chunkLine offset) ++ rawData (upload.frame offset)) :: events,
        ?_, ?_⟩
      · rw [Input.arriving, harriving, upload.frames_of_lt hoffset, frameSize_of_lt hnext,
          List.append_assoc]
      · rw [Input.receive, List.foldl_cons, hread]
        exact hleaks
    · exact leaks_of_first_failed config htoken hsize hleaves (houtcome offset) hdone hnext hshared
        hactive hbinary

end Leaks

/-- **Framing of uploads.** The client streams a file from an offset on. However the stream is cut
and wherever it breaks off, none of its raw data is taken for text, if and only if there is nothing
to stream, or the server accepts the first header and stores every frame but the last one. -/
theorem payload_never_text_iff {config : ServerConfig} {env : Environment} {conn : ConnId}
    {upload : UploadStream} {start : Nat} {s : Shared} (hconnected : s.connected conn = true)
    (hbinary : (s.sessions conn).binaryUpload = none) (hmatches : UploadMatches upload conn s)
    (htoken : IsWord upload.token) (hsize : upload.fileSize < 2 ^ 64)
    (hleaves : LeavesUpload env conn upload.token)
    (houtcome : ∀ offset, (env.append offset).ofAppend = true) :
    (∀ events, Input.arriving events <+: upload.sendUploadData start →
      ∀ line ∈ (Input.receive config env conn ⟨{ shared := some s }, [], 0⟩ events).host.lines,
        Plain line) ↔
    upload.fileSize ≤ start ∨ AcceptsHeader upload conn start s ∧ AppendsSucceed env upload start := by
  constructor
  · intro hnever
    by_contra hcond
    rw [not_or, not_and_or, Nat.not_le] at hcond
    obtain ⟨hstart, hcond⟩ := hcond
    have hstream : upload.sendUploadData start = upload.frames start := by
      rw [UploadStream.sendUploadData, if_neg (by omega)]
    have hleaks : ∃ events, Input.arriving events = upload.frames start ∧
        ∃ line ∈ (Input.receive config env conn ⟨{ shared := some s }, [], 0⟩ events).host.lines,
          ¬Plain line := by
      by_cases haccepts : AcceptsHeader upload conn start s
      · have hfails := hcond.resolve_left (not_not_intro haccepts)
        rw [AppendsSucceed] at hfails
        push Not at hfails
        obtain ⟨count, hcount, hfailed⟩ := hfails
        have hactive := active_of_acceptsHeader hconnected hmatches (hstart.trans hsize) haccepts
        exact leaks_of_failed config htoken hsize hleaves houtcome count hcount hfailed rfl hactive
          hbinary
      · have hleak : ∃ line ∈ (Input.step config env conn ⟨{ shared := some s }, [], 0⟩
            (.read (upload.frames start))).host.lines, ¬Plain line :=
          leaks_of_rejected config htoken hleaves hstart rfl hconnected hbinary haccepts
        exact ⟨[.read (upload.frames start)], by simp [Input.arriving], hleak⟩
    obtain ⟨events, harriving, line, hmem, hraw⟩ := hleaks
    refine hraw (hnever events ?_ line hmem)
    exact (harriving.trans hstream.symm) ▸ List.prefix_rfl
  · intro hcond events harriving
    refine plain_of_inStep htoken hsize hleaves hbinary ?_ harriving
    rw [UploadStream.sendUploadData]
    split
    · exact .plain fun _ hline => absurd hline List.not_mem_nil
    · by_cases hstart : upload.fileSize ≤ start
      · rw [upload.frames_of_le hstart]
        exact .plain plain_end
      · obtain ⟨haccepts, happends⟩ := hcond.resolve_left hstart
        have hactive := active_of_acceptsHeader hconnected hmatches (by omega) haccepts
        exact .header rfl (by omega) hactive hbinary happends

def threeBytesSent : UploadStream := ⟨uploadToken, utf8 "a\nb"⟩

theorem uploadMatches_uploadState : UploadMatches threeBytesSent 0 uploadState := by
  rintro active hactive -
  cases hactive
  exact ⟨by decide, [], by decide, rfl⟩

theorem leavesUpload_quiet (conn : ConnId) (token : Bytes) : LeavesUpload quiet conn token :=
  ⟨fun _ _ => rfl, fun _ _ => rfl, fun _ _ => rfl⟩

theorem payload_never_text_three_bytes :
    (∀ events, Input.arriving events <+: threeBytesSent.sendUploadData 0 →
      ∀ line ∈ (Input.receive scriptConfig quiet 0 ⟨{ shared := some uploadState }, [], 0⟩
        events).host.lines, Plain line) ↔
    threeBytesSent.fileSize ≤ 0 ∨
      AcceptsHeader threeBytesSent 0 0 uploadState ∧ AppendsSucceed quiet threeBytesSent 0 :=
  payload_never_text_iff (by decide) rfl uploadMatches_uploadState ⟨by decide, by decide⟩ (by decide)
    (leavesUpload_quiet 0 _) (fun _ => rfl)

/-! ### A full disk -/

def twoFrames : UploadStream := ⟨uploadToken, List.replicate (kFileFrameBytes + 1) 120⟩

def diskFull : Environment := { quiet with append := fun _ => .failed (utf8 "disk full") }

def twoFrameUpload : FileTransferMetadata :=
  uploaded (kFileFrameBytes + 1)
    (utf8 "991bc82a1f5bdf203ad43efb5c253856b49b5c09580d8ed24bcdd2f431f7707c")

def twoFrameState : Shared := { uploadState with sessions := fun _ => uploader twoFrameUpload }

theorem fileSize_twoFrames : twoFrames.fileSize = kFileFrameBytes + 1 := List.length_replicate

theorem payload_text_on_full_disk :
    ∃ events, Input.arriving events = twoFrames.sendUploadData 0 ∧
      ∃ line ∈ (Input.receive scriptConfig diskFull 0 ⟨{ shared := some twoFrameState }, [], 0⟩
        events).host.lines, ¬Plain line := by
  have hstream : twoFrames.sendUploadData 0 = twoFrames.frames 0 := by
    rw [UploadStream.sendUploadData, if_neg (Nat.not_lt_zero _)]
  have hactive : Active twoFrames 0 0 twoFrameState :=
    ⟨by decide, rfl, ⟨_, rfl, rfl, rfl, fileSize_twoFrames.symm⟩, ⟨[], by decide, rfl⟩⟩
  rw [hstream]
  refine leaks_of_failed scriptConfig ⟨by decide, by decide⟩ ?_ ⟨fun _ _ => rfl, fun _ _ => rfl,
    fun _ _ => rfl⟩ (fun _ => rfl) 0 ?_ nofun rfl hactive rfl
  · rw [fileSize_twoFrames]
    decide
  · rw [fileSize_twoFrames]
    omega

end ChatRoom
