import ChatRoom.Proof.Tracking
import ChatRoom.Server.Input

/-!
# The input loop as a reader

Between two rounds of `on_message` the session decides whether a line or raw data comes next, so the
loop is a reader of the stream.
-/

namespace ChatRoom

open Handler Interleaving MixedStream

variable {config : ServerConfig} {env : Environment} {conn : ConnId} {history : List Dispatch}

/-- A request of the connection has been served without a reply. -/
def Shared.served (s : Shared) (conn : ConnId) (session : ClientSession) (store : Store) : Shared :=
  { s with
    sessions := Function.update s.sessions conn session
    store
    running := Function.update s.running conn none }

section Served

variable {s : Shared} {session session' : ClientSession} {store store' : Store}

@[simp]
theorem served_sessions : (s.served conn session store).sessions conn = session :=
  Function.update_self _ _ _

@[simp]
theorem served_connected : (s.served conn session store).connected conn = s.connected conn := rfl

@[simp]
theorem served_served :
    (s.served conn session store).served conn session' store' = s.served conn session' store' := by
  simp [Shared.served]

end Served

section Sent

variable {s : Shared} {target : ConnId} {text : Bytes}

@[simp]
theorem sendText_sessions : (s.sendText target text).sessions = s.sessions := by
  rw [Shared.sendText]
  split <;> rfl

@[simp]
theorem sendText_phase : (s.sendText target text).phase = s.phase := by
  rw [Shared.sendText]
  split <;> rfl

@[simp]
theorem sendText_store : (s.sendText target text).store = s.store := by
  rw [Shared.sendText]
  split <;> rfl

@[simp]
theorem sendText_connected : (s.sendText target text).connected conn = s.connected conn := by
  rw [Shared.connected, sendText_phase, Shared.connected]

end Sent

/-! ### Serving a request -/

theorem serve_request {s : Shared} {request : Request}
    (hadmissible : admissible s conn request = true) (hrequest : request ≠ .loopCall) :
    Interleaving.serve (server config true) (env.feed history) s ⟨conn, request, []⟩ =
      (complete (server config true) (env.feed history) conn
        (route config true conn (s.sessions conn) request)
        (s.start conn ⟨conn, request, s.sessions conn, none⟩) []).map
          fun out => out.2.1.finished conn := by
  have hlaunch : (server config true).launch conn request s =
      some (thenFinish (route config true conn (s.sessions conn) request),
        s.start conn ⟨conn, request, s.sessions conn, none⟩) :=
    (launch_route hrequest).trans (if_pos hadmissible)
  simp only [Interleaving.serve, hlaunch, thenFinish, complete_bind]
  cases complete (server config true) (env.feed history) conn
    (route config true conn (s.sessions conn) request)
    (s.start conn ⟨conn, request, s.sessions conn, none⟩) [] with
  | none => rfl
  | some out => rfl

/-- The last bytes of a frame have been appended, or the upload is paused. -/
def Shared.afterAppend (s : Shared) (conn : ConnId) (session : ClientSession) (token : Bytes) :
    Option (Except Bytes Nat × Store) → Option Shared
  | none => none
  | some (.ok acceptedOffset, store) =>
    some (s.served conn (session.assign (.frameStored acceptedOffset)) store)
  | some (.error error, store) =>
    some ((s.served conn (session.assign .detachUpload) store).sendText conn
      (utf8 "FILE_PAUSED " ++ token ++ utf8 " " ++ percentEncode error ++ utf8 "\n"))

def Shared.storeFrame (s : Shared) (env : Environment) (conn : ConnId) (session : ClientSession)
    (frame : PendingBinaryUploadFrame) : Option Shared :=
  s.afterAppend conn session frame.token
    (s.store.appendUploadBytes frame.token frame.startOffset frame.bytes
      (env.append frame.startOffset))

section Frames

variable {s : Shared} {session : ClientSession} {frame : PendingBinaryUploadFrame}
  {upload : IncomingFileUpload} {bytes : Bytes}

theorem binaryUpload_of_pendingFrame (hframe : session.pendingFrame = some frame) :
    session.binaryUpload = some frame ∧ 0 < frame.remainingBytes := by
  obtain ⟨hbinary, hremaining⟩ := Option.filter_eq_some_iff.mp hframe
  exact ⟨hbinary, of_decide_eq_true hremaining⟩

theorem serve_fileFrame (hconnected : s.connected conn = true) :
    Interleaving.serve (server config true) (env.feed history) s ⟨conn, .fileFrame bytes, []⟩ =
      (complete (server config true) (env.feed history) conn
        (onFrameBytes conn (s.sessions conn) bytes)
        (s.start conn ⟨conn, .fileFrame bytes, s.sessions conn, none⟩) []).map
          fun out => out.2.1.finished conn :=
  serve_request hconnected nofun

theorem serve_frame_part (hconnected : s.connected conn = true)
    (hframe : (s.sessions conn).pendingFrame = some frame)
    (hupload : (s.sessions conn).uploadOf frame = some upload)
    (hpart : (frame.take bytes).remainingBytes ≠ 0) :
    Interleaving.serve (server config true) (env.feed history) s ⟨conn, .fileFrame bytes, []⟩ =
      some (s.served conn ((s.sessions conn).assign (.binaryUpload (frame.take bytes))) s.store) := by
  have hbinary := (binaryUpload_of_pendingFrame hframe).1
  rw [ClientSession.uploadOf] at hupload
  rw [serve_fileFrame hconnected]
  simp only [onFrameBytes, hbinary, hupload, if_neg hpart]
  simp [assign, act, Prog.perform, complete, Environment.feed, Environment.choice, server, exec,
    Shared.setSession, Shared.start, Shared.finished, Shared.served]

theorem serve_frame_end (hconnected : s.connected conn = true)
    (hframe : (s.sessions conn).pendingFrame = some frame)
    (hupload : (s.sessions conn).uploadOf frame = some upload)
    (hend : (frame.take bytes).remainingBytes = 0) :
    Interleaving.serve (server config true) (env.feed history) s ⟨conn, .fileFrame bytes, []⟩ =
      s.storeFrame env conn (s.sessions conn) (frame.take bytes) := by
  have hbinary := (binaryUpload_of_pendingFrame hframe).1
  rw [ClientSession.uploadOf] at hupload
  have htoken : upload.token = (frame.take bytes).token :=
    of_decide_eq_true (Option.filter_eq_some_iff.mp hupload).2
  rw [serve_fileFrame hconnected]
  rw [Shared.storeFrame, ← htoken]
  simp only [onFrameBytes, hbinary, hupload, if_pos hend]
  simp only [act, Prog.perform_bind, complete, Environment.feed, Environment.choice, server, exec]
  cases happend : s.store.appendUploadBytes upload.token (frame.take bytes).startOffset
    (frame.take bytes).bytes (env.append (frame.take bytes).startOffset) with
  | none => simp [Shared.start, happend, Shared.withStore, Shared.afterAppend]
  | some out =>
    obtain ⟨result, store⟩ := out
    cases result with
    | ok acceptedOffset =>
      simp [Shared.start, happend, Shared.withStore, Shared.afterAppend, assign, act, Prog.perform,
        complete, Environment.feed, Environment.choice, exec, Shared.setSession,
        Shared.finished, Shared.served]
    | error error =>
      have hphase : s.phase conn = .connected := of_decide_eq_true hconnected
      simp [Shared.start, happend, Shared.withStore, Shared.afterAppend, pauseFileUpload, assign,
        act, send, Prog.perform, complete, Environment.feed, Environment.choice, exec,
        Shared.setSession, Shared.finished, Shared.served, Shared.sendText, Shared.sendInLoop,
        Shared.connected, hphase]

theorem storeFrame_served (frame' : PendingBinaryUploadFrame) :
    (s.served conn (session.assign (.binaryUpload frame)) s.store).storeFrame env conn
        (session.assign (.binaryUpload frame)) frame' = s.storeFrame env conn session frame' := by
  have hstore : (s.served conn (session.assign (.binaryUpload frame)) s.store).store = s.store := rfl
  rw [Shared.storeFrame, Shared.storeFrame, hstore]
  match s.store.appendUploadBytes frame'.token frame'.startOffset frame'.bytes
    (env.append frame'.startOffset) with
  | none => rfl
  | some (.ok acceptedOffset, store) =>
    simp only [Shared.afterAppend, served_served]
    rfl
  | some (.error error, store) =>
    simp only [Shared.afterAppend, served_served]
    rfl

theorem take_take {part : Bytes} (hpart : part.length ≤ frame.remainingBytes) (more : Bytes) :
    (frame.take part).take more = frame.take (part ++ more) := by
  simp only [PendingBinaryUploadFrame.take, List.take_of_length_le hpart, List.take_append,
    List.length_append, PendingBinaryUploadFrame.mk.injEq, List.append_assoc]
  exact ⟨trivial, trivial, by omega, by omega, trivial⟩

theorem remainingBytes_take (hshort : bytes.length < frame.remainingBytes) :
    (frame.take bytes).remainingBytes = frame.remainingBytes - bytes.length := by
  simp only [PendingBinaryUploadFrame.take, List.take_of_length_le (Nat.le_of_lt hshort)]

end Frames

/-! ### The reader -/

namespace Host

variable (config env conn)

/-- A frame is pending whose upload is gone. -/
def orphaned (host : Host) : Bool := host.shared.any fun s => s.connected conn &&
  (s.sessions conn).pendingFrame.any fun frame => ((s.sessions conn).uploadOf frame).isNone

/-- The loop drops the frame of an upload that is gone before it looks at the buffer. -/
def settle (host : Host) : Host :=
  if host.orphaned conn then host.serve config env conn (.fileFrame []) else host

/-- What the next round takes from the buffer: a line, bytes of the frame or nothing. -/
def demand (host : Host) : Demand :=
  match host.shared with
  | none => .nothing
  | some s =>
    if !s.connected conn then
      .nothing
    else
      match (s.sessions conn).pendingFrame with
      | none => .line
      | some frame =>
        if ((s.sessions conn).uploadOf frame).isNone then .nothing else .data frame.remainingBytes

end Host

variable (config env conn) in
/-- The loop of `onMessage` as a reader of a stream of lines and data. -/
def inputReader : Reader UInt8 Host where
  demand := Host.demand conn
  onLine := fun host line => (host.handleLine config env conn line).settle config env conn
  onData := fun host taken => host.handleFrameBytes config env conn taken

theorem inputReader_onLine (host : Host) (line : List Octet) :
    (inputReader config env conn).onLine host line =
      (host.handleLine config env conn line).settle config env conn := rfl

section Reader

variable {host : Host} {s : Shared} {frame : PendingBinaryUploadFrame} {upload : IncomingFileUpload}
  {taken : List Octet} {count : Nat}

/-- The connection is in the middle of a frame. -/
structure Host.InFrame (host : Host) (conn : ConnId) (s : Shared) (frame : PendingBinaryUploadFrame)
    (upload : Option IncomingFileUpload) : Prop where
  shared : host.shared = some s
  connected : s.connected conn = true
  pendingFrame : (s.sessions conn).pendingFrame = some frame
  uploadOf : (s.sessions conn).uploadOf frame = upload

/-- The connection waits for a line. -/
structure Host.AtLine (host : Host) (conn : ConnId) (s : Shared) : Prop where
  shared : host.shared = some s
  connected : s.connected conn = true
  pendingFrame : (s.sessions conn).pendingFrame = none

theorem demand_line (hdemand : host.demand conn = .line) :
    ∃ s, host.AtLine conn s := by
  unfold Host.demand at hdemand
  split at hdemand
  · cases hdemand
  · rename_i s hshared
    split at hdemand
    · cases hdemand
    · rename_i hconnected
      split at hdemand
      · rename_i hframe
        exact ⟨s, hshared, by simpa using hconnected, hframe⟩
      · split at hdemand <;> cases hdemand

theorem demand_data (hdemand : host.demand conn = .data count) :
    ∃ s frame upload, host.InFrame conn s frame (some upload) ∧ frame.remainingBytes = count := by
  unfold Host.demand at hdemand
  split at hdemand
  · cases hdemand
  · rename_i s hshared
    split at hdemand
    · cases hdemand
    · rename_i hconnected
      split at hdemand
      · cases hdemand
      · rename_i frame hframe
        split at hdemand
        · cases hdemand
        · rename_i hupload
          cases hdemand
          obtain ⟨upload, hupload⟩ :=
            Option.ne_none_iff_exists'.mp (mt Option.isNone_iff_eq_none.mpr hupload)
          exact ⟨s, frame, upload, ⟨hshared, by simpa using hconnected, hframe, hupload⟩, rfl⟩

theorem demand_of_frame (hin : host.InFrame conn s frame (some upload)) :
    host.demand conn = .data frame.remainingBytes := by
  simp [Host.demand, hin.shared, hin.connected, hin.pendingFrame, hin.uploadOf]

theorem demand_of_no_frame (hat : host.AtLine conn s) : host.demand conn = .line := by
  simp [Host.demand, hat.shared, hat.connected, hat.pendingFrame]

theorem handleFrameBytes_part (hin : host.InFrame conn s frame (some upload))
    (hpart : (frame.take (values taken)).remainingBytes ≠ 0) :
    host.handleFrameBytes config env conn taken =
      { host with shared := some (s.served conn
          ((s.sessions conn).assign (.binaryUpload (frame.take (values taken)))) s.store) } := by
  simp only [Host.handleFrameBytes, Host.serve, Host.session, hin.shared, Option.map_some,
    Option.bind_some, hin.pendingFrame, if_neg hpart,
    serve_frame_part hin.connected hin.pendingFrame hin.uploadOf hpart]

theorem handleFrameBytes_end (hin : host.InFrame conn s frame (some upload))
    (hend : (frame.take (values taken)).remainingBytes = 0) :
    host.handleFrameBytes config env conn taken =
      let frame' := frame.take (values taken)
      let stored := { host with shared := s.storeFrame env conn (s.sessions conn) frame' }
      { stored with history :=
          host.history ++ [.append frame'.startOffset frame'.bytes (stored.uploading conn)] } := by
  simp only [Host.handleFrameBytes, Host.serve, Host.session, hin.shared, Option.map_some,
    Option.bind_some, hin.pendingFrame, if_pos hend,
    serve_frame_end hin.connected hin.pendingFrame hin.uploadOf hend]

theorem inFrame_served (hin : host.InFrame conn s frame (some upload))
    {frame' : PendingBinaryUploadFrame} (hremaining : frame'.remainingBytes ≠ 0)
    (htoken : frame'.token = frame.token) :
    Host.InFrame
      { host with shared := some (s.served conn ((s.sessions conn).assign (.binaryUpload frame'))
          s.store) } conn
      (s.served conn ((s.sessions conn).assign (.binaryUpload frame')) s.store) frame'
      (some upload) := by
  refine ⟨rfl, hin.connected, ?_, ?_⟩
  · rw [served_sessions]
    simp [ClientSession.assign, ClientSession.pendingFrame, Nat.pos_of_ne_zero hremaining]
  · rw [served_sessions, ClientSession.uploadOf, htoken]
    exact hin.uploadOf

/-- A frame that comes in parts ends as it does in one piece. -/
theorem inputReader_lawful : (inputReader config env conn).Lawful := by
  have hremaining : ∀ {frame : PendingBinaryUploadFrame} {part : List Octet},
      part.length < frame.remainingBytes →
        (frame.take (values part)).remainingBytes = frame.remainingBytes - part.length := by
    intro frame part hshort
    rw [remainingBytes_take (by rwa [length_values]), length_values]
  constructor
  · intro host count part hdemand _ hshort
    obtain ⟨s, frame, upload, hin, rfl⟩ := demand_data hdemand
    have hrest := hremaining hshort
    have hpart : (frame.take (values part)).remainingBytes ≠ 0 := by omega
    show (host.handleFrameBytes config env conn part).demand conn = _
    rw [handleFrameBytes_part hin hpart, ← hrest]
    exact demand_of_frame (inFrame_served hin hpart rfl)
  · intro host count part hdemand _ hshort more _
    obtain ⟨s, frame, upload, hin, rfl⟩ := demand_data hdemand
    have hrest := hremaining hshort
    have hpart : (frame.take (values part)).remainingBytes ≠ 0 := by omega
    have hin' := inFrame_served hin hpart rfl
    have htake : (frame.take (values part)).take (values more) =
        frame.take (values (part ++ more)) := by
      rw [values_append]
      exact take_take (by rw [length_values]; omega) _
    show (host.handleFrameBytes config env conn part).handleFrameBytes config env conn more =
      host.handleFrameBytes config env conn (part ++ more)
    rw [handleFrameBytes_part hin hpart]
    by_cases hend : (frame.take (values (part ++ more))).remainingBytes = 0
    · rw [handleFrameBytes_end hin' (by rwa [htake]), handleFrameBytes_end hin hend, htake, served_sessions]
      dsimp only
      rw [storeFrame_served]
    · rw [handleFrameBytes_part hin' (by rwa [htake]), handleFrameBytes_part hin hend, htake,
        served_sessions, served_served]
      rfl

/-! ### Orphaned frames -/

theorem settle_of_not_orphaned (horphaned : host.orphaned conn = false) :
    host.settle config env conn = host := by
  simp [Host.settle, horphaned]

theorem not_orphaned (hshared : host.shared = some s)
    (hframe : ∀ frame, (s.sessions conn).pendingFrame = some frame →
      ((s.sessions conn).uploadOf frame).isSome = true) : host.orphaned conn = false := by
  simp only [Host.orphaned, hshared, Option.any_some]
  cases hpending : (s.sessions conn).pendingFrame with
  | none => simp
  | some frame => simp [hframe frame hpending]

theorem not_orphaned_of_inFrame (hin : host.InFrame conn s frame (some upload)) :
    host.orphaned conn = false := by
  refine not_orphaned hin.shared fun frame' hpending => ?_
  cases hin.pendingFrame.symm.trans hpending
  rw [hin.uploadOf]
  rfl

theorem inFrame_of_not_orphaned (horphaned : host.orphaned conn = false)
    (hshared : host.shared = some s) (hconnected : s.connected conn = true)
    (hframe : (s.sessions conn).pendingFrame = some frame) :
    ∃ upload, host.InFrame conn s frame (some upload) := by
  simp only [Host.orphaned, hshared, Option.any_some, hconnected, hframe, Bool.true_and] at horphaned
  obtain ⟨upload, hupload⟩ := Option.isSome_iff_exists.mp (by simpa using horphaned)
  exact ⟨upload, hshared, hconnected, hframe, hupload⟩

theorem orphaned_cases (horphaned : host.orphaned conn = true) :
    ∃ s frame, host.InFrame conn s frame none := by
  simp only [Host.orphaned, Option.any_eq_true, Bool.and_eq_true, Option.isNone_iff_eq_none]
    at horphaned
  obtain ⟨s, hshared, hconnected, frame, hframe, hupload⟩ := horphaned
  exact ⟨s, frame, hshared, hconnected, hframe, hupload⟩

variable (config env) in
theorem serve_orphaned (hin : host.InFrame conn s frame none) :
    ∃ s', host.serve config env conn (.fileFrame []) = { host with shared := some s' } ∧
      s'.connected conn = false := by
  have hbinary := (binaryUpload_of_pendingFrame hin.pendingFrame).1
  have hupload := hin.uploadOf
  rw [ClientSession.uploadOf] at hupload
  rw [Host.serve, hin.shared, Option.bind_some, serve_fileFrame hin.connected]
  simp only [onFrameBytes, hbinary, hupload]
  refine ⟨_, rfl, ?_⟩
  simp [Shared.connected, Shared.finished]

theorem storeFrame_cases {session : ClientSession} {s' : Shared}
    (hstore : s.storeFrame env conn session frame = some s') :
    (∃ acceptedOffset store,
      s.store.appendUploadBytes frame.token frame.startOffset frame.bytes
        (env.append frame.startOffset) = some (.ok acceptedOffset, store) ∧
      s' = s.served conn (session.assign (.frameStored acceptedOffset)) store) ∨
    (∃ error store,
      s.store.appendUploadBytes frame.token frame.startOffset frame.bytes
        (env.append frame.startOffset) = some (.error error, store) ∧
      s' = (s.served conn (session.assign .detachUpload) store).sendText conn
        (utf8 "FILE_PAUSED " ++ frame.token ++ utf8 " " ++ percentEncode error ++ utf8 "\n")) := by
  rw [Shared.storeFrame] at hstore
  cases happend : s.store.appendUploadBytes frame.token frame.startOffset frame.bytes
    (env.append frame.startOffset) with
  | none =>
    rw [happend] at hstore
    cases hstore
  | some out =>
    obtain ⟨result, store⟩ := out
    rw [happend] at hstore
    cases result with
    | ok acceptedOffset =>
      cases hstore
      exact .inl ⟨acceptedOffset, store, rfl, rfl⟩
    | error error =>
      cases hstore
      exact .inr ⟨error, store, rfl, rfl⟩

theorem storeFrame_binaryUpload {session : ClientSession} {s' : Shared}
    (hstore : s.storeFrame env conn session frame = some s') :
    (s'.sessions conn).binaryUpload = none := by
  obtain ⟨acceptedOffset, store, -, rfl⟩ | ⟨error, store, -, rfl⟩ := storeFrame_cases hstore
  · rw [served_sessions]
    rfl
  · rw [sendText_sessions, served_sessions]
    rfl

theorem not_orphaned_of_binaryUpload
    (hbinary : ∀ s, host.shared = some s → (s.sessions conn).binaryUpload = none) :
    host.orphaned conn = false := by
  cases hshared : host.shared with
  | none => simp [Host.orphaned, hshared]
  | some s =>
    refine not_orphaned hshared fun frame hframe => ?_
    rw [ClientSession.pendingFrame, hbinary s hshared] at hframe
    cases hframe

theorem handleFrameBytes_not_orphaned (hin : host.InFrame conn s frame (some upload)) :
    (host.handleFrameBytes config env conn taken).orphaned conn = false := by
  by_cases hend : (frame.take (values taken)).remainingBytes = 0
  · rw [handleFrameBytes_end hin hend]
    exact not_orphaned_of_binaryUpload fun s' hstore => storeFrame_binaryUpload hstore
  · rw [handleFrameBytes_part hin hend]
    exact not_orphaned_of_inFrame (inFrame_served hin hend rfl)

theorem frame_ends (hin : host.InFrame conn s frame (some upload))
    (hended : (host.handleFrameBytes config env conn taken).uploading conn = false) :
    (frame.take (values taken)).remainingBytes = 0 := by
  by_contra hpart
  rw [handleFrameBytes_part hin hpart] at hended
  have hactive : (s.sessions conn).upload = some upload :=
    (Option.filter_eq_some_iff.mp hin.uploadOf).1
  simp [Host.uploading, Host.session, ClientSession.assign, hactive] at hended

theorem handleFrameBytes_failed (hin : host.InFrame conn s frame (some upload))
    (hended : (host.handleFrameBytes config env conn taken).uploading conn = false) :
    ∃ entry ∈ (host.handleFrameBytes config env conn taken).history, entry.stored = false := by
  have hend := frame_ends hin hended
  rw [handleFrameBytes_end hin hend] at hended ⊢
  have hstored : Host.uploading conn { host with
      shared := s.storeFrame env conn (s.sessions conn) (frame.take (values taken)) } = false :=
    hended
  exact ⟨_, List.mem_append_right _ (List.mem_singleton_self _), hstored⟩

end Reader

/-! ### The lines on record -/

section Lines

variable (config env conn) (host : Host)

theorem settle_lines : (host.settle config env conn).lines = host.lines := by
  unfold Host.settle
  split <;> rfl

theorem handleCommand_lines (command : Command) :
    (host.handleCommand config env conn command).lines = host.lines := by
  unfold Host.handleCommand
  cases commandRequest command with
  | none => rfl
  | some request => rfl

theorem handleLine_lines (line : List Octet) :
    (host.handleLine config env conn line).lines = host.lines ++ [line] := by
  unfold Host.handleLine
  dsimp only
  split
  · rfl
  · exact handleCommand_lines config env conn _ _

theorem handleFrameBytes_lines (taken : List Octet) :
    (host.handleFrameBytes config env conn taken).lines = host.lines := by
  unfold Host.handleFrameBytes
  dsimp only
  split
  · rfl
  · split <;> rfl

end Lines

/-! ### What has happened stays on record -/

/-- Nothing that is on record is lost. -/
def Recorded (before : Host) (after : Host) : Prop :=
  before.lines <+: after.lines ∧ before.history <+: after.history

theorem Recorded.trans {first second third : Host} (hfirst : Recorded first second)
    (hsecond : Recorded second third) : Recorded first third :=
  ⟨hfirst.1.trans hsecond.1, hfirst.2.trans hsecond.2⟩

section Recorded

variable (config env conn)

theorem recorded_settle (host : Host) : Recorded host (host.settle config env conn) := by
  unfold Host.settle
  split
  · exact ⟨List.prefix_rfl, List.prefix_rfl⟩
  · exact ⟨List.prefix_rfl, List.prefix_rfl⟩

theorem recorded_handleLine (line : List Octet) (host : Host) :
    Recorded host (host.handleLine config env conn line) := by
  constructor
  · rw [handleLine_lines]
    exact List.prefix_append _ _
  · unfold Host.handleLine
    dsimp only
    split
    · exact List.prefix_rfl
    · exact List.prefix_append _ _

theorem recorded_handleFrameBytes (taken : List Octet) (host : Host) :
    Recorded host (host.handleFrameBytes config env conn taken) := by
  unfold Host.handleFrameBytes
  split
  · exact ⟨List.prefix_rfl, List.prefix_rfl⟩
  · dsimp only
    split
    · exact ⟨List.prefix_rfl, List.prefix_append _ _⟩
    · exact ⟨List.prefix_rfl, List.prefix_rfl⟩

variable {config env conn} in
theorem recorded_round {host host' : Host} {buffer rest : List Octet}
    (hround : (inputReader config env conn).round newline host buffer = some (host', rest)) :
    Recorded host host' := by
  obtain ⟨line, -, -, rfl⟩ | ⟨count, -, -, -, rfl, -⟩ := Reader.round_cases hround
  · exact (recorded_handleLine config env conn line host).trans (recorded_settle config env conn _)
  · exact recorded_handleFrameBytes config env conn _ host

theorem recorded_drain (host : Host) (buffer : List Octet) :
    Recorded host ((inputReader config env conn).drain newline host buffer).1 := by
  refine Reader.drain_induct (P := fun after _ => Recorded host after) ?_ ?_
  · intro before buffer after rest hbefore hround
    exact hbefore.trans (recorded_round hround)
  · exact ⟨List.prefix_rfl, List.prefix_rfl⟩

variable {config env conn} in
theorem mem_lines_drain {host : Host} {buffer line rest : List Octet}
    (hdemand : host.demand conn = .line) (htake : takeLine newline buffer = some (line, rest)) :
    line ∈ ((inputReader config env conn).drain newline host buffer).1.lines := by
  have hround : (inputReader config env conn).round newline host buffer = some (_, rest) :=
    Reader.round_line hdemand htake
  have hline : line ∈ (host.handleLine config env conn line).lines := by
    rw [handleLine_lines]
    exact List.mem_append_right _ (List.mem_singleton_self _)
  rw [Reader.drain_of_some hround]
  exact ((recorded_settle config env conn _).trans
    (recorded_drain config env conn _ rest)).1.subset hline

end Recorded

/-! ### The rounds of the loop -/

section Rounds

variable {fuel processed : Nat} {input : Input} {s : Shared} {frame : PendingBinaryUploadFrame}
  {upload : IncomingFileUpload}

theorem onMessage_stuck (hshared : input.host.shared = none) :
    input.onMessage config env conn (fuel + 1) processed = input := by
  rw [Input.onMessage, hshared]

theorem onMessage_closed (hshared : input.host.shared = some s)
    (hconnected : s.connected conn = false) :
    input.onMessage config env conn (fuel + 1) processed = input.checkLength conn s := by
  rw [Input.onMessage, hshared]
  simp [hconnected]

theorem onMessage_orphaned (hin : input.host.InFrame conn s frame none) :
    input.onMessage config env conn (fuel + 1) processed =
      { input with host := input.host.serve config env conn (.fileFrame []) } := by
  rw [Input.onMessage, hin.shared]
  simp [hin.connected, hin.pendingFrame, hin.uploadOf]

theorem onMessage_no_data (hin : input.host.InFrame conn s frame (some upload))
    (hbuffer : input.buffer = []) :
    input.onMessage config env conn (fuel + 1) processed = input := by
  rw [Input.onMessage, hin.shared]
  simp [hin.connected, hin.pendingFrame, hin.uploadOf, hbuffer]

theorem onMessage_data (hin : input.host.InFrame conn s frame (some upload))
    (hbuffer : input.buffer ≠ []) :
    input.onMessage config env conn (fuel + 1) processed =
      let taken := input.buffer.take frame.remainingBytes
      let input' := { input with
        host := input.host.handleFrameBytes config env conn taken
        buffer := input.buffer.drop frame.remainingBytes }
      if input'.host.uploading conn then input'.onMessage config env conn fuel processed
      else input' := by
  rw [Input.onMessage, hin.shared]
  simp [hin.connected, hin.pendingFrame, hin.uploadOf, hbuffer]

theorem onMessage_no_line (hat : input.host.AtLine conn s)
    (htake : takeLine newline input.buffer = none) :
    input.onMessage config env conn (fuel + 1) processed = input.checkLength conn s := by
  rw [Input.onMessage, hat.shared]
  simp [hat.connected, hat.pendingFrame, htake]

/-- The call gives way to the loop of the connection. -/
def Input.yields (conn : ConnId) (processed : Nat) (input : Input) : Bool :=
  kRealtimeCommandBatch ≤ processed &&
    (input.host.session conn).any (fun session => session.binaryUpload.isNone) &&
    (takeLine newline input.buffer).isSome

def countCommand (processed : Nat) (line : List Octet) : Nat :=
  if (lineCommand line).name.isEmpty then processed else processed + 1

theorem onMessage_takeLine {line rest : List Octet} (hat : input.host.AtLine conn s)
    (htake : takeLine newline input.buffer = some (line, rest)) :
    input.onMessage config env conn (fuel + 1) processed =
      let input' := { input with host := input.host.handleLine config env conn line, buffer := rest }
      if input'.yields conn (countCommand processed line) then
        { input' with queued := input.queued + 1 }
      else
        input'.onMessage config env conn fuel (countCommand processed line) := by
  rw [Input.onMessage, hat.shared]
  simp only [hat.connected, hat.pendingFrame, htake, Bool.not_true, Bool.false_eq_true, if_false]
  rfl

theorem checkLength_of_le (hlength : input.buffer.length ≤ kMaxInputBuffer) :
    input.checkLength conn s = input := by
  have hlong : decide (kMaxInputBuffer < input.buffer.length) = false := by simpa using hlength
  simp [Input.checkLength, hlong]

theorem checkLength_of_closed (hconnected : s.connected conn = false) :
    input.checkLength conn s = input := by
  simp [Input.checkLength, hconnected]

theorem closeTooLong_connected : (s.closeTooLong conn).connected conn = false := by
  simp [Shared.closeTooLong, Shared.connected]

variable (config env conn) in
/-- A round of the loop that is not the last of its call. -/
def Input.goesOn (processed : Nat) (input : Input) : Option (Nat × Input) :=
  match input.host.demand conn with
  | .nothing => none
  | .data count =>
    let host := input.host.handleFrameBytes config env conn (input.buffer.take count)
    if input.buffer.isEmpty || !host.uploading conn then none
    else some (processed, { input with host, buffer := input.buffer.drop count })
  | .line =>
    match takeLine newline input.buffer with
    | none => none
    | some (line, rest) =>
      let input' := { input with host := input.host.handleLine config env conn line, buffer := rest }
      if input'.yields conn (countCommand processed line) then none
      else some (countCommand processed line, input')

variable (config env conn) in
/-- Where a call is when its last round begins. -/
def Input.lastRound : Nat → Nat → Input → Input
  | 0, _, input => input
  | fuel + 1, processed, input =>
    match input.goesOn config env conn processed with
    | none => input
    | some (processed, input) => lastRound fuel processed input

/-- A round that goes on is one of the reader's, and it leaves the rest of the call to the next. -/
theorem goesOn_round {processed' : Nat} {input' : Input}
    (hgoesOn : input.goesOn config env conn processed = some (processed', input')) :
    (inputReader config env conn).round newline input.host input.buffer =
        some (input'.host.settle config env conn, input'.buffer) ∧
      input'.queued = input.queued ∧
      ∀ fuel, input.onMessage config env conn (fuel + 1) processed =
        input'.onMessage config env conn fuel processed' := by
  unfold Input.goesOn at hgoesOn
  split at hgoesOn
  · cases hgoesOn
  · rename_i hdemand
    obtain ⟨s, frame, upload, hin, rfl⟩ := demand_data hdemand
    dsimp only at hgoesOn
    split at hgoesOn
    · cases hgoesOn
    · rename_i hcond
      cases hgoesOn
      simp only [Bool.or_eq_true, List.isEmpty_iff, Bool.not_eq_true', not_or,
        Bool.not_eq_false] at hcond
      refine ⟨?_, rfl, fun fuel => ?_⟩
      · rw [settle_of_not_orphaned (handleFrameBytes_not_orphaned hin)]
        exact Reader.round_data hdemand (binaryUpload_of_pendingFrame hin.pendingFrame).2 hcond.1
      · rw [onMessage_data hin hcond.1]
        exact if_pos hcond.2
  · rename_i hdemand
    obtain ⟨s, hat⟩ := demand_line hdemand
    split at hgoesOn
    · cases hgoesOn
    · rename_i line rest htake
      dsimp only at hgoesOn
      split at hgoesOn
      · cases hgoesOn
      · rename_i hgoes
        cases hgoesOn
        refine ⟨Reader.round_line hdemand htake, rfl, fun fuel => ?_⟩
        rw [onMessage_takeLine hat htake]
        exact if_neg hgoes

theorem orphaned_of_demand (hdemand : input.host.demand conn ≠ .nothing) :
    input.host.orphaned conn = false := by
  by_contra horphaned
  obtain ⟨s, frame, hin⟩ := orphaned_cases (Bool.not_eq_false _ ▸ horphaned)
  exact hdemand (by simp [Host.demand, hin.shared, hin.connected, hin.pendingFrame, hin.uploadOf])

variable (config env conn) in
/-- A call goes through rounds of the reader to its last round. -/
theorem onMessage_lastRound (processed : Nat) (hfuel : input.buffer.length < fuel) :
    ∃ fuel' processed', let last := input.lastRound config env conn fuel processed
      last.goesOn config env conn processed' = none ∧ last.queued = input.queued ∧
        input.onMessage config env conn fuel processed =
          last.onMessage config env conn (fuel' + 1) processed' ∧
        (inputReader config env conn).Rounds newline
          (input.host.settle config env conn, input.buffer)
          (last.host.settle config env conn, last.buffer) := by
  induction fuel generalizing input processed with
  | zero => omega
  | succ fuel ih =>
    rw [Input.lastRound]
    cases hgoesOn : input.goesOn config env conn processed with
    | none => exact ⟨fuel, processed, hgoesOn, rfl, rfl, .refl⟩
    | some next =>
      obtain ⟨processed', input'⟩ := next
      obtain ⟨hround, hqueued, hsame⟩ := goesOn_round hgoesOn
      have hshorter := Reader.length_round hround
      have hdemand : input.host.demand conn ≠ .nothing := fun hnothing => by
        rw [Reader.round_nothing hnothing] at hround
        cases hround
      obtain ⟨fuel', processed'', hlast, hqueued', hcall, hrounds⟩ :=
        @ih input' processed' (by omega)
      refine ⟨fuel', processed'', hlast, hqueued'.trans hqueued, (hsame fuel).trans hcall, ?_⟩
      rw [settle_of_not_orphaned (orphaned_of_demand hdemand)]
      exact hrounds.head hround

variable (config env conn) in
/-- The last round of a call, from where a frame without its upload has been refused. -/
inductive CallEnd (host : Host) (rest : List Octet) (queued : Nat) : Input → Prop where
  | idle (hdemand : host.demand conn = .nothing) : CallEnd host rest queued ⟨host, rest, queued⟩
  | noData {count : Nat} (hdemand : host.demand conn = .data count) (hempty : rest = []) :
      CallEnd host rest queued ⟨host, rest, queued⟩
  | noLine {s : Shared} (hshared : host.shared = some s) (hdemand : host.demand conn = .line)
      (htake : takeLine newline rest = none)
      (hlength : (s.sessions conn).binaryUpload = none → rest.length ≤ kMaxInputBuffer) :
      CallEnd host rest queued ⟨host, rest, queued⟩
  | tooLong {s : Shared} (hshared : host.shared = some s) (hdemand : host.demand conn = .line)
      (htake : takeLine newline rest = none) (hlength : kMaxInputBuffer < rest.length) :
      CallEnd host rest queued ⟨{ host with shared := some (s.closeTooLong conn) }, rest, queued⟩
  | queued {line rest' : List Octet} (hdemand : host.demand conn = .line)
      (htake : takeLine newline rest = some (line, rest'))
      (horphaned : (host.handleLine config env conn line).orphaned conn = false) :
      CallEnd host rest queued ⟨host.handleLine config env conn line, rest', queued + 1⟩
  | fails {count : Nat} (hdemand : host.demand conn = .data count) (hrest : rest ≠ [])
      (hended : (host.handleFrameBytes config env conn (rest.take count)).uploading conn = false) :
      CallEnd host rest queued
        ⟨host.handleFrameBytes config env conn (rest.take count), rest.drop count, queued⟩

theorem callEnd_nothing (hdemand : input.host.demand conn = .nothing) :
    CallEnd config env conn (input.host.settle config env conn) input.buffer input.queued
      (input.onMessage config env conn (fuel + 1) processed) := by
  cases horphaned : input.host.orphaned conn with
  | true =>
    obtain ⟨s, frame, hin⟩ := orphaned_cases horphaned
    obtain ⟨closed, hserve, hclosed⟩ := serve_orphaned config env hin
    rw [Host.settle, horphaned, if_pos rfl, onMessage_orphaned hin, hserve]
    exact .idle (by simp [Host.demand, hclosed])
  | false =>
    rw [settle_of_not_orphaned horphaned]
    cases hshared : input.host.shared with
    | none =>
      rw [onMessage_stuck hshared]
      exact .idle hdemand
    | some s =>
      have hconnected : s.connected conn = false := by
        by_contra hconnected
        rw [Bool.not_eq_false] at hconnected
        cases hframe : (s.sessions conn).pendingFrame with
        | none => simp [Host.demand, hshared, hconnected, hframe] at hdemand
        | some frame =>
          obtain ⟨upload, hin⟩ := inFrame_of_not_orphaned horphaned hshared hconnected hframe
          simp [demand_of_frame hin] at hdemand
      rw [onMessage_closed hshared hconnected, checkLength_of_closed hconnected]
      exact .idle hdemand

theorem callEnd_line (hlast : input.goesOn config env conn processed = none)
    (hdemand : input.host.demand conn = .line) :
    CallEnd config env conn input.host input.buffer input.queued
      (input.onMessage config env conn (fuel + 1) processed) := by
  obtain ⟨s, hat⟩ := demand_line hdemand
  cases htake : takeLine newline input.buffer with
  | none =>
    rw [onMessage_no_line hat htake, Input.checkLength]
    split
    · rename_i hlong
      simp only [Bool.and_eq_true, decide_eq_true_eq] at hlong
      exact .tooLong hat.shared hdemand htake hlong.1.2
    · rename_i hshort
      refine .noLine hat.shared hdemand htake fun hbinary => ?_
      simpa [hbinary, hat.connected] using hshort
  | some found =>
    obtain ⟨line, rest⟩ := found
    simp only [Input.goesOn, hdemand, htake, ite_eq_left_iff, reduceCtorEq, imp_false,
      not_not] at hlast
    rw [onMessage_takeLine hat htake]
    dsimp only
    rw [if_pos hlast]
    refine .queued hdemand htake (not_orphaned_of_binaryUpload fun s' hs' => ?_)
    simp only [Input.yields, Host.session, hs', Option.map_some, Option.any_some,
      Bool.and_eq_true, Option.isNone_iff_eq_none] at hlast
    exact hlast.1.2

theorem callEnd_last (hlast : input.goesOn config env conn processed = none) :
    CallEnd config env conn (input.host.settle config env conn) input.buffer input.queued
      (input.onMessage config env conn (fuel + 1) processed) := by
  cases hdemand : input.host.demand conn with
  | nothing => exact callEnd_nothing hdemand
  | line =>
    rw [settle_of_not_orphaned (orphaned_of_demand (by rw [hdemand]; exact nofun))]
    exact callEnd_line hlast hdemand
  | data count =>
    rw [settle_of_not_orphaned (orphaned_of_demand (by rw [hdemand]; exact nofun))]
    obtain ⟨s, frame, upload, hin, rfl⟩ := demand_data hdemand
    by_cases hbuffer : input.buffer = []
    · rw [onMessage_no_data hin hbuffer]
      exact .noData hdemand hbuffer
    · simp only [Input.goesOn, hdemand, ite_eq_left_iff, reduceCtorEq, imp_false, not_not,
        Bool.or_eq_true, List.isEmpty_iff, hbuffer, false_or, Bool.not_eq_true'] at hlast
      rw [onMessage_data hin hbuffer]
      dsimp only
      rw [if_neg (Bool.eq_false_iff.mp hlast)]
      exact .fails hdemand hbuffer hlast

variable (config env conn) in
/-- **A call of `onMessage`**: rounds of the reader, and one of the ends. -/
def Calls (before after : Input) : Prop :=
  ∃ host rest, (inputReader config env conn).Rounds newline (before.host, before.buffer)
      (host, rest) ∧ host.orphaned conn = false ∧
    CallEnd config env conn host rest before.queued after

theorem settle_not_orphaned (host : Host) :
    (host.settle config env conn).orphaned conn = false := by
  unfold Host.settle
  split
  · rename_i horphaned
    obtain ⟨s, frame, hin⟩ := orphaned_cases horphaned
    obtain ⟨closed, hserve, hclosed⟩ := serve_orphaned config env hin
    rw [hserve]
    simp [Host.orphaned, hclosed]
  · rename_i horphaned
    exact Bool.eq_false_iff.mpr horphaned

theorem onMessage_calls (processed : Nat) (hfuel : input.buffer.length < fuel)
    (horphaned : input.host.orphaned conn = false) :
    Calls config env conn input (input.onMessage config env conn fuel processed) := by
  obtain ⟨fuel', processed', hlast, hqueued, hcall, hrounds⟩ :=
    onMessage_lastRound config env conn processed hfuel
  rw [settle_of_not_orphaned horphaned] at hrounds
  rw [hcall]
  exact ⟨_, _, hrounds, settle_not_orphaned _, hqueued ▸ callEnd_last hlast⟩

variable (config env conn) in
/-- The ends of a call, by what is left to do. -/
inductive LoopEnd (host : Host) (rest : List Octet) (queued : Nat) : Input → Prop where
  | waiting (hround : (inputReader config env conn).round newline host rest = none) :
      LoopEnd host rest queued ⟨host, rest, queued⟩
  | lost (hlost : ∃ entry ∈ host.history, entry.stored = false) :
      LoopEnd host rest queued ⟨host, rest, queued⟩
  | queued : LoopEnd host rest queued ⟨host, rest, queued + 1⟩
  | tooLong {s : Shared} (hdemand : host.demand conn = .line)
      (htake : takeLine newline rest = none) (hlength : kMaxInputBuffer < rest.length) :
      LoopEnd host rest queued ⟨{ host with shared := some (s.closeTooLong conn) }, rest, queued⟩

variable (config env conn) in
def Loops (before after : Input) : Prop :=
  ∃ host rest, (inputReader config env conn).Rounds newline (before.host, before.buffer)
      (host, rest) ∧ host.orphaned conn = false ∧
    LoopEnd config env conn host rest before.queued after

theorem Calls.loops {before after : Input} (hcalls : Calls config env conn before after) :
    Loops config env conn before after := by
  obtain ⟨host, rest, hrounds, horphaned, hend⟩ := hcalls
  cases hend with
  | idle hdemand => exact ⟨host, rest, hrounds, horphaned, .waiting (Reader.round_nothing hdemand)⟩
  | noData hdemand hempty =>
    refine ⟨host, rest, hrounds, horphaned, .waiting ?_⟩
    rw [hempty]
    exact Reader.round_no_data hdemand
  | noLine _ hdemand htake =>
    exact ⟨host, rest, hrounds, horphaned, .waiting (Reader.round_no_line hdemand htake)⟩
  | tooLong _ hdemand htake hlength =>
    exact ⟨host, rest, hrounds, horphaned, .tooLong hdemand htake hlength⟩
  | @queued line rest' hdemand htake hsettled =>
    have hround : (inputReader config env conn).round newline host rest = some (_, rest') :=
      Reader.round_line hdemand htake
    rw [inputReader_onLine, settle_of_not_orphaned hsettled] at hround
    exact ⟨_, _, hrounds.tail hround, hsettled, .queued⟩
  | fails hdemand hrest hended =>
    obtain ⟨s, frame, upload, hin, rfl⟩ := demand_data hdemand
    have hround : (inputReader config env conn).round newline host rest = some (_, _) :=
      Reader.round_data hdemand (binaryUpload_of_pendingFrame hin.pendingFrame).2 hrest
    exact ⟨_, _, hrounds.tail hround, handleFrameBytes_not_orphaned hin,
      .lost (handleFrameBytes_failed hin hended)⟩

theorem onMessage_loops (processed : Nat) (hfuel : input.buffer.length < fuel)
    (horphaned : input.host.orphaned conn = false) :
    Loops config env conn input (input.onMessage config env conn fuel processed) :=
  (onMessage_calls processed hfuel horphaned).loops

/-- A call keeps what every round and the closing of a connection keep. -/
theorem Loops.keeps {P : Host → List Octet → Prop} {before after : Input}
    (hloops : Loops config env conn before after)
    (hround : ∀ {host host' : Host} {buffer rest : List Octet}, P host buffer →
      (inputReader config env conn).round newline host buffer = some (host', rest) → P host' rest)
    (hclose : ∀ {host : Host} {buffer : List Octet} {s : Shared}, P host buffer →
      s.connected conn = false → P { host with shared := some s } buffer)
    (hstart : P before.host before.buffer) :
    P after.host after.buffer ∧ after.host.orphaned conn = false := by
  obtain ⟨host, rest, hrounds, horphaned, hend⟩ := hloops
  have hlast : P host rest := hrounds.keeps hround hstart
  cases hend with
  | waiting _ => exact ⟨hlast, horphaned⟩
  | lost _ => exact ⟨hlast, horphaned⟩
  | queued => exact ⟨hlast, horphaned⟩
  | tooLong _ _ _ =>
    refine ⟨hclose hlast closeTooLong_connected, ?_⟩
    simp [Host.orphaned, closeTooLong_connected]

theorem recorded_onMessage (processed : Nat) (hfuel : input.buffer.length < fuel) :
    Recorded input.host (input.onMessage config env conn fuel processed).host := by
  cases horphaned : input.host.orphaned conn with
  | false =>
    refine ((onMessage_loops processed hfuel horphaned).keeps
      (P := fun host _ => Recorded input.host host) ?_ ?_ ?_).1
    · intro host host' buffer rest hrecorded hround
      exact hrecorded.trans (recorded_round hround)
    · intro host buffer s hrecorded _
      exact hrecorded
    · exact ⟨List.prefix_rfl, List.prefix_rfl⟩
  | true =>
    obtain ⟨s, frame, hin⟩ := orphaned_cases horphaned
    obtain ⟨fuel', rfl⟩ := Nat.exists_eq_succ_of_ne_zero (show fuel ≠ 0 by omega)
    rw [onMessage_orphaned hin]
    exact ⟨List.prefix_rfl, List.prefix_rfl⟩

theorem mem_lines_onMessage {line rest : List Octet} (processed : Nat)
    (hfuel : input.buffer.length < fuel) (hat : input.host.AtLine conn s)
    (htake : takeLine newline input.buffer = some (line, rest)) :
    line ∈ (input.onMessage config env conn fuel processed).host.lines := by
  have hmem : line ∈ (input.host.handleLine config env conn line).lines := by
    rw [handleLine_lines]
    exact List.mem_append_right _ (List.mem_singleton_self _)
  have hline := List.length_pos_iff.mpr (takeLine_ne_nil htake)
  have hlength := congrArg List.length (takeLine_append htake)
  rw [List.length_append] at hlength
  obtain ⟨fuel', rfl⟩ := Nat.exists_eq_succ_of_ne_zero (show fuel ≠ 0 by omega)
  rw [onMessage_takeLine hat htake]
  dsimp only
  split
  · exact hmem
  · have hshorter : rest.length < fuel' := by omega
    exact (recorded_onMessage _ hshorter).1.subset hmem

end Rounds

/-! ### Runs of the loop -/

/-- What every round keeps of the stream holds in the end, however the stream is cut into reads. -/
theorem receive_keeps {Q : Host → List Octet → Prop}
    (hround : ∀ {host host' : Host} {buffer rest unread : List Octet}, Q host (buffer ++ unread) →
      (inputReader config env conn).round newline host buffer = some (host', rest) →
        Q host' (rest ++ unread))
    (hclose : ∀ {host : Host} {stream : List Octet} {s : Shared}, Q host stream →
      s.connected conn = false → Q { host with shared := some s } stream)
    (suffix : List Octet) (events : List Input.Event) {input : Input}
    (horphaned : input.host.orphaned conn = false)
    (hstart : Q input.host (input.buffer ++ (Input.arriving events ++ suffix))) :
    Q (input.receive config env conn events).host
      ((input.receive config env conn events).buffer ++ suffix) := by
  induction events generalizing input with
  | nil => exact hstart
  | cons event events ih =>
    have hcall : ∀ middle : Input, middle.host.orphaned conn = false →
        Q middle.host (middle.buffer ++ (Input.arriving events ++ suffix)) →
        let after := middle.onMessage config env conn (middle.buffer.length + 1) 0
        Q after.host (after.buffer ++ (Input.arriving events ++ suffix)) ∧
          after.host.orphaned conn = false := by
      intro middle horphaned' hmiddle
      exact (onMessage_loops 0 (Nat.lt_succ_self _) horphaned').keeps
        (P := fun host buffer => Q host (buffer ++ (Input.arriving events ++ suffix)))
        hround hclose hmiddle
    cases event with
    | read chunk =>
      obtain ⟨hafter, horphaned'⟩ := hcall { input with buffer := input.buffer ++ chunk } horphaned
        (by simpa [Input.arriving] using hstart)
      exact ih horphaned' hafter
    | resume =>
      cases hqueued : input.queued with
      | zero =>
        have hstep : input.step config env conn .resume = input := by
          rw [Input.step, hqueued]
        have hrest := ih horphaned hstart
        rw [← hstep] at hrest
        exact hrest
      | succ queued =>
        have hstep : input.step config env conn .resume = Input.onMessage config env conn
            (input.buffer.length + 1) 0 { input with queued } := by
          rw [Input.step, hqueued]
        obtain ⟨hafter, horphaned'⟩ := hcall { input with queued } horphaned hstart
        rw [← hstep] at hafter horphaned'
        exact ih horphaned' hafter

end ChatRoom
