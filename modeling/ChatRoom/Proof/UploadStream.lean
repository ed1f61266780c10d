import ChatRoom.Client.Upload
import ChatRoom.Proof.Input

/-!
# Both sides of an upload in step

While the server accepts the frames of an upload, what is left of the client's stream begins with
what the server expects next: a header line, or the missing data of a frame.
-/

namespace ChatRoom

open Handler Interleaving MixedStream

namespace UploadStream

variable (upload : UploadStream)
variable {taken : Bytes}

/-! ### The header line -/

def chunkWords (offset : Nat) : List Bytes :=
  [upload.token, decimal offset, decimal (upload.frameSize offset)]

def chunkArguments (offset : Nat) : Bytes :=
  upload.token ++ (space :: (decimal offset ++ [space])) ++ decimal (upload.frameSize offset)

theorem chunkLine_eq (offset : Nat) :
    upload.chunkLine offset =
      (utf8 "FILE_CHUNK" ++ space :: upload.chunkArguments offset) ++ [newline] := by
  have hname : utf8 "FILE_CHUNK " = utf8 "FILE_CHUNK" ++ [space] := by decide
  have hspace : utf8 " " = [space] := by decide
  have hend : utf8 "\n" = [newline] := by decide
  simp [chunkLine, fileChunkLine, chunkArguments, hname, hspace, hend]

variable {upload}

theorem newline_notMem_word {word : Bytes} (hword : IsWord word) : newline ∉ word := by
  intro hmem
  exact absurd (hword.no_space newline hmem) (by decide)

theorem isLine_chunkLine (htoken : IsWord upload.token) (offset : Nat) :
    IsLine newline (upload.chunkLine offset) := by
  refine ⟨_, upload.chunkLine_eq offset, ?_⟩
  have hname : newline ∉ utf8 "FILE_CHUNK" := by decide
  have hspace : newline ≠ space := by decide
  simp [chunkArguments, hname, hspace, newline_notMem_word htoken,
    newline_notMem_word (isWord_decimal _)]

theorem lineCommand_chunkLine (htoken : IsWord upload.token) (offset : Nat) :
    lineCommand (text (upload.chunkLine offset)) =
      ⟨utf8 "FILE_CHUNK", upload.chunkArguments offset⟩ := by
  have hlast : (utf8 "FILE_CHUNK" ++ space :: upload.chunkArguments offset).getLast? ≠
      some carriageReturn := by
    intro hlast
    have hword := isWord_decimal (upload.frameSize offset)
    rw [chunkArguments, ← List.cons_append, ← List.append_assoc,
      List.getLast?_append_of_ne_nil _ hword.ne_nil] at hlast
    exact absurd (hword.no_space _ (List.mem_of_getLast? hlast)) (by decide)
  rw [lineCommand, values_text, upload.chunkLine_eq offset, List.dropLast_concat, if_neg hlast]
  have hname : IsWord (utf8 "FILE_CHUNK") := ⟨by decide, by decide⟩
  exact (parseCommand_line hname htoken (isWord_decimal _)).trans (by rfl)

theorem splitWords_chunkArguments (htoken : IsWord upload.token) (offset : Nat) :
    splitWords (upload.chunkArguments offset) = upload.chunkWords offset := by
  rw [chunkArguments, List.append_assoc, List.cons_append, splitWords_cons htoken,
    List.append_assoc, List.singleton_append, splitWords_cons (isWord_decimal _),
    splitWords_word (isWord_decimal _), chunkWords]

end UploadStream

theorem commandRequest_fileChunk (arguments : Bytes) :
    commandRequest ⟨utf8 "FILE_CHUNK", arguments⟩ = some (.fileChunk arguments) := rfl

variable {config : ServerConfig} {env : Environment} {conn : ConnId} {history : List Dispatch}
  {upload : UploadStream} {offset : Nat}

def Shared.afterChunk (s : Shared) (conn : ConnId) (arguments : Bytes) : Shared :=
  let session := s.sessions conn
  if session.loggedIn then
    match parseFileChunk session (splitWords arguments) with
    | .error error => (s.served conn (session.assign .detachUpload) s.store).sendText conn
        (utf8 "FILE_PAUSED " ++ firstWord (splitWords arguments) ++ utf8 " " ++ percentEncode error ++
          utf8 "\n")
    | .ok frame => s.served conn (session.assign (.binaryUpload frame)) s.store
  else
    (s.served conn session s.store).sendText conn (utf8 "[error] 请先登录后再执行该操作。\n")

theorem serve_fileChunk {s : Shared} (hconnected : s.connected conn = true) (arguments : Bytes) :
    Interleaving.serve (server config true) (env.feed history) s ⟨conn, .fileChunk arguments, []⟩ =
      some (s.afterChunk conn arguments) := by
  have hphase : s.phase conn = .connected := of_decide_eq_true hconnected
  have hserve : Interleaving.serve (server config true) (env.feed history) s
      ⟨conn, .fileChunk arguments, []⟩ =
        (complete (server config true) (env.feed history) conn
          (handleFileChunk conn (s.sessions conn) arguments)
          (s.start conn ⟨conn, .fileChunk arguments, s.sessions conn, none⟩) []).map
            fun out => out.2.1.finished conn :=
    serve_request hconnected nofun
  rw [hserve, Shared.afterChunk]
  cases hlogin : (s.sessions conn).loggedIn with
  | false =>
    simp [handleFileChunk, requireLogin, hlogin, send, act, Prog.perform, complete,
      Environment.feed, Environment.choice, server, exec, Shared.start, Shared.finished,
      Shared.served, Shared.sendText, Shared.sendInLoop, Shared.connected, hphase]
  | true =>
    cases hparse : parseFileChunk (s.sessions conn) (splitWords arguments) with
    | error error =>
      simp [handleFileChunk, requireLogin, hlogin, hparse, pauseFileUpload, assign, send, act,
        Prog.perform, complete, Environment.feed, Environment.choice, server, exec, Shared.start,
        Shared.setSession, Shared.finished, Shared.served, Shared.sendText, Shared.sendInLoop,
        Shared.connected, hphase]
    | ok frame =>
      simp [handleFileChunk, requireLogin, hlogin, hparse, assign, act, Prog.perform, complete,
        Environment.feed, Environment.choice, server, exec, Shared.start, Shared.setSession,
        Shared.finished, Shared.served]

structure LeavesUpload (env : Environment) (conn : ConnId) (token : Bytes) : Prop where
  session : ∀ history s, (env.others history s).sessions conn = s.sessions conn
  phase : ∀ history s, (env.others history s).phase conn = s.phase conn
  part : ∀ history s, (env.others history s).store.parts token = s.store.parts token

theorem LeavesUpload.connected {token : Bytes} (hleaves : LeavesUpload env conn token)
    (history : List Dispatch) (s : Shared) :
    (env.others history s).connected conn = s.connected conn := by
  rw [Shared.connected, hleaves.phase, Shared.connected]

variable (config offset) in
theorem handleLine_chunkLine {host : Host} {s : Shared} (htoken : IsWord upload.token)
    (hleaves : LeavesUpload env conn upload.token) (hshared : host.shared = some s)
    (hconnected : s.connected conn = true) :
    host.handleLine config env conn (text (upload.chunkLine offset)) =
      { shared := some ((env.others host.history s).afterChunk conn (upload.chunkArguments offset))
        lines := host.lines ++ [text (upload.chunkLine offset)]
        history := host.history ++ [.command (lineCommand (text (upload.chunkLine offset)))] } := by
  have hconnected' := (hleaves.connected host.history s).trans hconnected
  have hname : ¬(utf8 "FILE_CHUNK").isEmpty = true := by decide
  simp only [Host.handleLine, UploadStream.lineCommand_chunkLine htoken, if_neg hname,
    Host.handleCommand, commandRequest_fileChunk, Host.serve, hshared, Option.map_some,
    Option.bind_some, serve_fileChunk hconnected']

/-! ### The session in the course of an upload -/

structure Active (upload : UploadStream) (conn : ConnId) (offset : Nat) (s : Shared) : Prop where
  connected : s.connected conn = true
  loggedIn : (s.sessions conn).loggedIn = true
  active : ∃ active, (s.sessions conn).upload = some active ∧ active.token = upload.token ∧
    active.receivedSize = offset ∧ active.expectedSize = upload.fileSize
  part : ∃ part, s.store.parts upload.token = some part ∧ part.length = offset

theorem Active.others {s : Shared} (hactive : Active upload conn offset s)
    (hleaves : LeavesUpload env conn upload.token) (history : List Dispatch) :
    Active upload conn offset (env.others history s) where
  connected := (hleaves.connected history s).trans hactive.connected
  loggedIn := by
    rw [hleaves.session]
    exact hactive.loggedIn
  active := by
    rw [hleaves.session]
    exact hactive.active
  part := by
    rw [hleaves.part]
    exact hactive.part

def UploadStream.pending (upload : UploadStream) (offset : Nat) (taken : Bytes) :
    PendingBinaryUploadFrame :=
  ⟨upload.token, offset, offset + taken.length, upload.frameSize offset - taken.length, taken⟩

theorem parseFileChunk_active {s : Shared} (hsize : upload.fileSize < 2 ^ 64)
    (hoffset : offset < upload.fileSize) (hactive : Active upload conn offset s)
    (hbinary : (s.sessions conn).binaryUpload = none) :
    parseFileChunk (s.sessions conn) (upload.chunkWords offset) = .ok (upload.pending offset []) := by
  obtain ⟨active, hupload, htoken, hreceived, hexpected⟩ := hactive.active
  have hframe : upload.frameSize offset ≤ upload.fileSize - offset := Nat.min_le_left _ _
  have hmax : upload.frameSize offset ≤ kMaxFileFrameBytes := Nat.min_le_right _ _
  have hpos := upload.frameSize_pos hoffset
  have hparse := parseUint64Value_decimal (hoffset.trans hsize)
  have hparse' : parseUint64Value (decimal (upload.frameSize offset)) =
      some (upload.frameSize offset) := parseUint64Value_decimal (by omega)
  have hcond : ¬(decide (upload.frameSize offset = 0) ||
      decide (kMaxFileFrameBytes < upload.frameSize offset) ||
      decide (offset ≠ active.receivedSize) ||
      decide (active.expectedSize < active.receivedSize + upload.frameSize offset)) = true := by
    simp only [Bool.or_eq_true, decide_eq_true_eq, hreceived, hexpected]
    omega
  simp only [UploadStream.chunkWords, parseFileChunk, hupload, htoken, ne_eq, not_true_eq_false,
    if_false, hbinary, Option.isSome_none, Bool.false_eq_true, hparse, hparse', if_neg hcond]
  rfl

theorem afterChunk_active {s : Shared} (htoken : IsWord upload.token)
    (hsize : upload.fileSize < 2 ^ 64) (hoffset : offset < upload.fileSize)
    (hactive : Active upload conn offset s) (hbinary : (s.sessions conn).binaryUpload = none) :
    Active upload conn offset (s.afterChunk conn (upload.chunkArguments offset)) ∧
      ((s.afterChunk conn (upload.chunkArguments offset)).sessions conn).binaryUpload =
        some (upload.pending offset []) := by
  have hparse := parseFileChunk_active hsize hoffset hactive hbinary
  rw [← UploadStream.splitWords_chunkArguments htoken] at hparse
  simp only [Shared.afterChunk, hactive.loggedIn, if_true, hparse]
  constructor
  · constructor
    · exact hactive.connected
    · rw [served_sessions]
      exact hactive.loggedIn
    · rw [served_sessions]
      exact hactive.active
    · exact hactive.part
  · rw [served_sessions]
    rfl

theorem pending_take {bytes : Bytes}
    (hlength : taken.length + bytes.length ≤ upload.frameSize offset) :
    (upload.pending offset taken).take bytes = upload.pending offset (taken ++ bytes) := by
  have hle : bytes.length ≤ upload.frameSize offset - taken.length := by omega
  simp only [PendingBinaryUploadFrame.take, UploadStream.pending, List.take_of_length_le hle,
    List.length_append, PendingBinaryUploadFrame.mk.injEq]
  exact ⟨trivial, trivial, by omega, by omega, trivial⟩

structure Receiving (upload : UploadStream) (conn : ConnId) (offset : Nat) (taken : Bytes)
    (s : Shared) : Prop extends Active upload conn offset s where
  binaryUpload : (s.sessions conn).binaryUpload = some (upload.pending offset taken)
  unfinished : taken.length < upload.frameSize offset

theorem Receiving.pendingFrame {s : Shared} (hreceiving : Receiving upload conn offset taken s) :
    (s.sessions conn).pendingFrame = some (upload.pending offset taken) := by
  have hremaining : 0 < (upload.pending offset taken).remainingBytes :=
    Nat.sub_pos_of_lt hreceiving.unfinished
  simp [ClientSession.pendingFrame, hreceiving.binaryUpload, hremaining]

theorem Receiving.inFrame {host : Host} {s : Shared}
    (hreceiving : Receiving upload conn offset taken s) (hshared : host.shared = some s) :
    ∃ active, host.InFrame conn s (upload.pending offset taken) (some active) := by
  obtain ⟨active, hupload, htoken, -, -⟩ := hreceiving.active
  exact ⟨active, hshared, hreceiving.connected, hreceiving.pendingFrame,
    by simp [ClientSession.uploadOf, hupload, htoken, UploadStream.pending]⟩

/-! ### Storing a frame -/

def FileOutcome.ofAppend : FileOutcome → Bool
  | .done | .failed _ | .shortWrite _ _ => true
  | _ => false

theorem storeFrame_done {s : Shared} (bytes : Bytes) (hactive : Active upload conn offset s)
    (hdone : env.append offset = .done) :
    ∃ s', s.storeFrame env conn (s.sessions conn) (upload.pending offset bytes) = some s' ∧
      Active upload conn (offset + bytes.length) s' ∧ (s'.sessions conn).binaryUpload = none := by
  obtain ⟨part, hpart, hlength⟩ := hactive.part
  obtain ⟨active, hupload, htoken, hreceived, hexpected⟩ := hactive.active
  let store := { s.store with
    parts := Function.update s.store.parts upload.token (some (part ++ bytes)) }
  have happend : s.store.appendUploadBytes upload.token offset bytes (env.append offset) =
      some (.ok (offset + bytes.length), store) := by
    simp [Store.appendUploadBytes, hdone, hpart, hlength, store]
  have hstore : s.storeFrame env conn (s.sessions conn) (upload.pending offset bytes) =
      some (s.served conn ((s.sessions conn).assign (.frameStored (offset + bytes.length))) store) := by
    simp only [Shared.storeFrame, UploadStream.pending, happend, Shared.afterAppend]
  refine ⟨_, hstore, ?_, by rw [served_sessions]; rfl⟩
  constructor
  · exact hactive.connected
  · rw [served_sessions]
    exact hactive.loggedIn
  · rw [served_sessions]
    exact ⟨{ active with receivedSize := offset + bytes.length }, by
      simp [ClientSession.assign, hupload], htoken, rfl, hexpected⟩
  · exact ⟨part ++ bytes, Function.update_self _ _ _, by rw [List.length_append, hlength]⟩

theorem storeFrame_failed {s : Shared} (bytes : Bytes) (hactive : Active upload conn offset s)
    (houtcome : (env.append offset).ofAppend = true) (hfailed : env.append offset ≠ .done) :
    ∃ s', s.storeFrame env conn (s.sessions conn) (upload.pending offset bytes) = some s' ∧
      s'.connected conn = true ∧ (s'.sessions conn).upload = none ∧
      (s'.sessions conn).binaryUpload = none := by
  obtain ⟨part, hpart, hlength⟩ := hactive.part
  have happend : ∃ error store,
      s.store.appendUploadBytes upload.token offset bytes (env.append offset) =
        some (.error error, store) := by
    cases happend : env.append offset with
    | done => exact absurd happend hfailed
    | failed error => exact ⟨error, _, rfl⟩
    | shortWrite written error =>
      exact ⟨error, _, by simp [Store.appendUploadBytes, hpart, hlength]; rfl⟩
    | _ => rw [happend] at houtcome; cases houtcome
  obtain ⟨error, store, happend⟩ := happend
  have hstore : s.storeFrame env conn (s.sessions conn) (upload.pending offset bytes) =
      some ((s.served conn ((s.sessions conn).assign .detachUpload) store).sendText conn
        (utf8 "FILE_PAUSED " ++ upload.token ++ utf8 " " ++ percentEncode error ++ utf8 "\n")) := by
    simp only [Shared.storeFrame, UploadStream.pending, happend, Shared.afterAppend]
  refine ⟨_, hstore, ?_⟩
  rw [sendText_connected, sendText_sessions, served_sessions]
  exact ⟨hactive.connected, rfl, rfl⟩

/-! ### What is left of the stream -/

def AppendsSucceed (env : Environment) (upload : UploadStream) (offset : Nat) : Prop :=
  ∀ count, offset + (count + 1) * kFileFrameBytes < upload.fileSize →
    env.append (offset + count * kFileFrameBytes) = .done

theorem frameSize_of_lt (hnext : offset + upload.frameSize offset < upload.fileSize) :
    upload.frameSize offset = kFileFrameBytes := by
  rw [UploadStream.frameSize, uploadFrameSize] at hnext ⊢
  omega

theorem AppendsSucceed.first (happends : AppendsSucceed env upload offset)
    (hnext : offset + upload.frameSize offset < upload.fileSize) : env.append offset = .done := by
  have hfirst := happends 0
  rw [frameSize_of_lt hnext] at hnext
  simp only [Nat.zero_add, Nat.one_mul, Nat.zero_mul, Nat.add_zero] at hfirst
  exact hfirst hnext

theorem AppendsSucceed.next (happends : AppendsSucceed env upload offset)
    (hnext : offset + upload.frameSize offset < upload.fileSize) :
    AppendsSucceed env upload (offset + upload.frameSize offset) := by
  rw [frameSize_of_lt hnext]
  intro count hcount
  have hlater := happends (count + 1)
  have hoffset : offset + (count + 1) * kFileFrameBytes =
      offset + kFileFrameBytes + count * kFileFrameBytes := by
    rw [Nat.succ_mul]
    omega
  rw [hoffset] at hlater
  apply hlater
  rw [Nat.succ_mul]
  omega

/-- The server expects what is left of the stream, or it will not take any raw data for text. -/
inductive InStep (env : Environment) (upload : UploadStream) (conn : ConnId) :
    Host → List Octet → Prop where
  | plain {host : Host} {stream : List Octet} (hplain : Plain stream) :
      InStep env upload conn host stream
  | closed {host : Host} {stream : List Octet} (hdemand : host.demand conn = .nothing) :
      InStep env upload conn host stream
  | header {host : Host} {s : Shared} {offset : Nat} (hshared : host.shared = some s)
      (hoffset : offset < upload.fileSize) (hactive : Active upload conn offset s)
      (hbinary : (s.sessions conn).binaryUpload = none)
      (happends : AppendsSucceed env upload offset) :
      InStep env upload conn host (upload.frames offset)
  | payload {host : Host} {s : Shared} {offset : Nat} {taken missing : Bytes}
      (hshared : host.shared = some s) (hoffset : offset < upload.fileSize)
      (hreceiving : Receiving upload conn offset taken s)
      (hdata : taken ++ missing = upload.frame offset)
      (happends : AppendsSucceed env upload offset) :
      InStep env upload conn host
        (rawData missing ++ upload.frames (offset + upload.frameSize offset))

theorem plain_end : Plain (text upload.endLine) := plain_text _

theorem inStep_after_frame {host : Host} {s : Shared} (hactive : Active upload conn offset s)
    (happends : AppendsSucceed env upload offset)
    (hshared : host.shared =
      s.storeFrame env conn (s.sessions conn) (upload.pending offset (upload.frame offset))) :
    InStep env upload conn host (upload.frames (offset + upload.frameSize offset)) := by
  by_cases hnext : offset + upload.frameSize offset < upload.fileSize
  · obtain ⟨s', hstore, hactive', hbinary⟩ :=
      storeFrame_done (upload.frame offset) hactive (happends.first hnext)
    rw [upload.length_frame] at hactive'
    exact .header (hshared.trans hstore) hnext hactive' hbinary (happends.next hnext)
  · rw [upload.frames_of_le (Nat.not_lt.mp hnext)]
    exact .plain plain_end

theorem demand_of_binaryUpload {host : Host} {s : Shared} (hshared : host.shared = some s)
    (hconnected : s.connected conn = true) (hbinary : (s.sessions conn).binaryUpload = none) :
    host.demand conn = .line := by
  refine demand_of_no_frame ⟨hshared, hconnected, ?_⟩
  rw [ClientSession.pendingFrame, hbinary]
  rfl

theorem Receiving.demand {host : Host} {s : Shared}
    (hreceiving : Receiving upload conn offset taken s) (hshared : host.shared = some s) :
    host.demand conn = .data (upload.frameSize offset - taken.length) := by
  obtain ⟨active, hin⟩ := hreceiving.inFrame hshared
  exact demand_of_frame hin

theorem Receiving.not_orphaned {host : Host} {s : Shared}
    (hreceiving : Receiving upload conn offset taken s) (hshared : host.shared = some s) :
    host.orphaned conn = false := by
  obtain ⟨active, hin⟩ := hreceiving.inFrame hshared
  exact not_orphaned_of_inFrame hin

theorem onLine_chunkLine {host : Host} {s : Shared} (config : ServerConfig)
    (htoken : IsWord upload.token) (hsize : upload.fileSize < 2 ^ 64)
    (hleaves : LeavesUpload env conn upload.token) (hshared : host.shared = some s)
    (hoffset : offset < upload.fileSize) (hactive : Active upload conn offset s)
    (hbinary : (s.sessions conn).binaryUpload = none) :
    ∃ s', (host.handleLine config env conn (text (upload.chunkLine offset))).shared = some s' ∧
      Receiving upload conn offset [] s' := by
  obtain ⟨hactive', hbinary'⟩ := afterChunk_active htoken hsize hoffset
    (hactive.others hleaves host.history) (by rw [hleaves.session]; exact hbinary)
  rw [handleLine_chunkLine config offset htoken hleaves hshared hactive.connected]
  exact ⟨_, rfl, hactive', hbinary', upload.frameSize_pos hoffset⟩

section Rounds

variable {host host' : Host} {s : Shared} {buffer rest unread : List Octet}

theorem inStep_header (htoken : IsWord upload.token) (hsize : upload.fileSize < 2 ^ 64)
    (hleaves : LeavesUpload env conn upload.token) (hshared : host.shared = some s)
    (hoffset : offset < upload.fileSize) (hactive : Active upload conn offset s)
    (hbinary : (s.sessions conn).binaryUpload = none)
    (happends : AppendsSucceed env upload offset)
    (hstream : buffer ++ unread = upload.frames offset)
    (hround : (inputReader config env conn).round newline host buffer = some (host', rest)) :
    InStep env upload conn host' (rest ++ unread) ∧
      ∃ line, host'.lines = host.lines ++ [line] ∧ Plain line := by
  have hdemand := demand_of_binaryUpload hshared hactive.connected hbinary
  obtain ⟨line, -, htake, rfl⟩ | ⟨count, hdata, -⟩ := Reader.round_cases hround
  · rw [upload.frames_of_lt hoffset] at hstream
    obtain ⟨rfl, hrest⟩ :=
      takeLine_of_isLine (UploadStream.isLine_chunkLine htoken offset) hstream htake
    obtain ⟨s', hshared', hreceiving⟩ :=
      onLine_chunkLine config htoken hsize hleaves hshared hoffset hactive hbinary
    rw [inputReader_onLine, settle_of_not_orphaned (hreceiving.not_orphaned hshared'), hrest]
    exact ⟨.payload hshared' hoffset hreceiving (List.nil_append _) happends, _,
      handleLine_lines config env conn host _, plain_text _⟩
  · exact absurd (hdemand.symm.trans hdata) nofun

theorem inStep_payload {missing : Bytes} (hshared : host.shared = some s)
    (hoffset : offset < upload.fileSize) (hreceiving : Receiving upload conn offset taken s)
    (hdata : taken ++ missing = upload.frame offset) (happends : AppendsSucceed env upload offset)
    (hstream : buffer ++ unread =
      rawData missing ++ upload.frames (offset + upload.frameSize offset))
    (hround : (inputReader config env conn).round newline host buffer = some (host', rest)) :
    InStep env upload conn host' (rest ++ unread) ∧ host'.lines = host.lines := by
  have hdemand := hreceiving.demand hshared
  obtain ⟨active, hin⟩ := hreceiving.inFrame hshared
  have hlength : taken.length + missing.length = upload.frameSize offset := by
    rw [← List.length_append, hdata, upload.length_frame]
  obtain ⟨line, hline, -⟩ | ⟨count, hcount, -, -, rfl, rfl⟩ := Reader.round_cases hround
  · exact absurd (hdemand.symm.trans hline) nofun
  · have hmissing : count = missing.length := by
      have heq : Demand.data (upload.frameSize offset - taken.length) = .data count :=
        hdemand.symm.trans hcount
      cases heq
      omega
    refine ⟨?_, handleFrameBytes_lines config env conn host _⟩
    show InStep env upload conn (host.handleFrameBytes config env conn (buffer.take count)) _
    obtain ⟨htake, hrest⟩ | ⟨come, still, rfl, hstill, rfl, rfl⟩ := take_of_rawData hstream
    · -- the frame is complete
      have hframe : (upload.pending offset taken).take (values (rawData missing)) =
          upload.pending offset (upload.frame offset) := by
        rw [values_rawData, pending_take (by omega), hdata]
      have hend : ((upload.pending offset taken).take (values (rawData missing))).remainingBytes =
          0 := by
        rw [hframe]
        simp [UploadStream.pending, upload.length_frame]
      rw [hmissing, htake, hrest, handleFrameBytes_end hin hend]
      refine inStep_after_frame hreceiving.toActive happends ?_
      rw [hframe]
    · -- more of it is to come
      have hstill := List.length_pos_iff.mpr hstill
      rw [List.length_append] at hlength hmissing
      have hle : (rawData come).length ≤ count := by
        rw [length_rawData]
        omega
      have hframe : (upload.pending offset taken).take (values (rawData come)) =
          upload.pending offset (taken ++ come) := by
        rw [values_rawData, pending_take (by omega)]
      have hunfinished : (taken ++ come).length < upload.frameSize offset := by
        rw [List.length_append]
        omega
      have hpart : ((upload.pending offset taken).take (values (rawData come))).remainingBytes ≠ 0 := by
        rw [hframe]
        exact Nat.sub_ne_zero_of_lt hunfinished
      rw [List.take_of_length_le hle, List.drop_of_length_le hle, List.nil_append,
        handleFrameBytes_part hin hpart, hframe]
      refine .payload rfl hoffset ⟨⟨hreceiving.connected, ?_, ?_, hreceiving.part⟩, ?_, hunfinished⟩
        (by rw [List.append_assoc, hdata]) happends
      · rw [served_sessions]
        exact hreceiving.loggedIn
      · rw [served_sessions]
        exact hreceiving.active
      · rw [served_sessions]
        rfl

end Rounds

end ChatRoom
