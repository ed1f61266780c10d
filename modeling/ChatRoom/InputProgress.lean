import ChatRoom.Lib.Sequential
import ChatRoom.Proof.Frames
import ChatRoom.UploadStream

/-!
# What a call of `on_message` leaves behind

A call that returns while the client is connected should leave nothing in the buffer that could be
handled: no complete line, and no byte while the data of a frame is expected, unless another call is
queued. A line of more than `kMaxInputBuffer` bytes should never be dispatched.
-/

namespace ChatRoom

open Handler Interleaving MixedStream

/-! ### The last round of a call -/

namespace Host

variable (env : Environment) (conn : ConnId) (host : Host) (buffer : List Octet)

def behind : List Octet :=
  match host.demand conn with
  | .data count => buffer.drop count
  | _ => []

def failsFrame : Bool :=
  host.shared.any fun s => (s.sessions conn).pendingFrame.any fun frame =>
    let frame := frame.take (values (buffer.take frame.remainingBytes))
    match s.store.appendUploadBytes frame.token frame.startOffset frame.bytes
      (env.append frame.startOffset) with
    | some (.error _, _) => true
    | _ => false

/-- A complete line follows a frame that cannot be stored. -/
def strandsLine : Bool :=
  (takeLine newline (host.behind conn buffer)).isSome && host.failsFrame env conn buffer

end Host

section Call

variable {config : ServerConfig} {env : Environment} {conn : ConnId} {host : Host} {s : Shared}
  {rest : List Octet} {input after : Input} {queued count : Nat}

def Input.Attended (conn : ConnId) (input : Input) : Prop :=
  ∀ s, input.host.shared = some s → s.connected conn = true →
    0 < input.queued ∨
      match (s.sessions conn).pendingFrame with
      | none => takeLine newline input.buffer = none
      | some _ => input.buffer = []

theorem strandsLine_of_demand
    (hdata : ∀ count, host.demand conn = .data count → rest = []) :
    host.strandsLine env conn rest = false := by
  have hbehind : host.behind conn rest = [] := by
    rw [Host.behind]
    split
    · rename_i hdemand
      rw [hdata _ hdemand, List.drop_nil]
    · rfl
  rw [Host.strandsLine, hbehind]
  rfl

/-- A frame that could not be stored has ended the call. -/
theorem attended_fails_iff (hdemand : host.demand conn = .data count)
    (hended : (host.handleFrameBytes config env conn (rest.take count)).uploading conn = false) :
    Input.Attended conn
        ⟨host.handleFrameBytes config env conn (rest.take count), rest.drop count, queued⟩ ↔
      0 < queued ∨ host.strandsLine env conn rest = false := by
  obtain ⟨s, frame, upload, hin, rfl⟩ := demand_data hdemand
  have hend := frame_ends hin hended
  have hbehind : host.behind conn rest = rest.drop frame.remainingBytes := by
    rw [Host.behind, hdemand]
  rw [handleFrameBytes_end hin hend] at hended ⊢
  simp only [Host.strandsLine, hbehind, Host.failsFrame, hin.shared, Option.any_some,
    hin.pendingFrame]
  generalize frame.take (values (rest.take frame.remainingBytes)) = frame' at hended ⊢
  cases happend : s.store.appendUploadBytes frame'.token frame'.startOffset frame'.bytes
    (env.append frame'.startOffset) with
  | none => simp [Input.Attended, Shared.storeFrame, happend, Shared.afterAppend]
  | some out =>
    obtain ⟨result, store⟩ := out
    cases result with
    | ok acceptedOffset =>
      -- the upload would still be there
      have hactive : (s.sessions conn).upload = some upload :=
        (Option.filter_eq_some_iff.mp hin.uploadOf).1
      simp [Host.uploading, Host.session, Shared.storeFrame, happend, Shared.afterAppend,
        ClientSession.assign, hactive] at hended
    | error error =>
      obtain ⟨s', hfailed, hconnected⟩ : ∃ s', s.storeFrame env conn (s.sessions conn) frame' =
          some s' ∧ s'.connected conn = true := by
        rw [Shared.storeFrame, happend]
        exact ⟨_, rfl, by rw [sendText_connected]; exact hin.connected⟩
      have hnone := pendingFrame_of_binaryUpload (storeFrame_binaryUpload hfailed)
      simp only [Input.Attended, hfailed, Option.some.injEq, forall_eq', hnone, hconnected,
        true_imp_iff, Bool.and_true, Option.isSome_eq_false_iff, Option.isNone_iff_eq_none]

theorem CallEnd.attended_iff (horphaned : host.orphaned conn = false)
    (hend : CallEnd config env conn host rest queued after) :
    after.Attended conn ↔ 0 < queued ∨ host.strandsLine env conn rest = false := by
  have hnever : ∀ {demand}, host.demand conn = demand → (∀ count, demand ≠ .data count) →
      0 < queued ∨ host.strandsLine env conn rest = false := fun hdemand hother =>
    .inr (strandsLine_of_demand fun count hdata => absurd (hdemand.symm.trans hdata) (hother count))
  cases hend with
  | idle hdemand =>
    refine iff_of_true (fun s hshared hconnected => ?_) (hnever hdemand nofun)
    cases hframe : (s.sessions conn).pendingFrame with
    | none => cases hdemand.symm.trans (demand_of_no_frame ⟨hshared, hconnected, hframe⟩)
    | some frame =>
      obtain ⟨upload, hin⟩ := inFrame_of_not_orphaned horphaned hshared hconnected hframe
      cases hdemand.symm.trans (demand_of_frame hin)
  | noData _ hempty =>
    refine iff_of_true (fun s _ _ => .inr ?_) (.inr (strandsLine_of_demand fun _ _ => hempty))
    dsimp only
    rw [hempty]
    split <;> rfl
  | noLine _ hdemand htake =>
    refine iff_of_true (fun s hshared _ => .inr ?_) (hnever hdemand nofun)
    obtain ⟨s', hat⟩ := demand_line hdemand
    cases hshared.symm.trans hat.shared
    rw [hat.pendingFrame]
    exact htake
  | tooLong _ hdemand =>
    refine iff_of_true ?_ (hnever hdemand nofun)
    rintro s ⟨⟩ hconnected
    exact absurd (hconnected.symm.trans closeTooLong_connected) nofun
  | queued hdemand => exact iff_of_true (fun _ _ _ => .inl (Nat.succ_pos _)) (hnever hdemand nofun)
  | fails hdemand _ hended => exact attended_fails_iff hdemand hended

theorem strandsLine_settle :
    (host.settle config env conn).strandsLine env conn rest = host.strandsLine env conn rest := by
  cases horphaned : host.orphaned conn with
  | false => rw [settle_of_not_orphaned horphaned]
  | true =>
    obtain ⟨s, frame, hin⟩ := orphaned_cases horphaned
    obtain ⟨closed, hserve, hclosed⟩ := serve_orphaned config env hin
    rw [Host.settle, horphaned, if_pos rfl, hserve,
      strandsLine_of_demand fun _ hdata => by simp [Host.demand, hclosed] at hdata,
      strandsLine_of_demand fun _ hdata => by
        simp [Host.demand, hin.shared, hin.connected, hin.pendingFrame, hin.uploadOf] at hdata]

theorem onMessage_attended_iff {fuel processed : Nat} (hfuel : input.buffer.length < fuel) :
    (input.onMessage config env conn fuel processed).Attended conn ↔
      0 < input.queued ∨
        let last := input.lastRound config env conn fuel processed
        last.host.strandsLine env conn last.buffer = false := by
  obtain ⟨fuel', processed', hlast, hqueued, hcall, -⟩ :=
    onMessage_lastRound config env conn processed hfuel
  rw [hcall, (callEnd_last hlast).attended_iff (settle_not_orphaned _), hqueued, strandsLine_settle]

/-- **No input is left stranded**, exactly if an earlier call is still queued or the call does not end
at a frame that cannot be stored and has a complete line behind it. -/
theorem no_input_stranded_iff (input : Input) :
    (input.onMessage config env conn (input.buffer.length + 1) 0).Attended conn ↔
      0 < input.queued ∨
        let last := input.lastRound config env conn (input.buffer.length + 1) 0
        last.host.strandsLine env conn last.buffer = false :=
  onMessage_attended_iff (Nat.lt_succ_self _)

def frameAndPing : Input where
  host := { shared := some uploadState }
  buffer := text (utf8 "FILE_CHUNK " ++ uploadToken ++ utf8 " 0 3\r\n") ++ rawData (utf8 "a\nb") ++
    text (utf8 "PING\n")

/-- The frame cannot be stored: the call returns, and the command behind the frame stays where it is
until something else arrives. -/
theorem input_stranded_behind_frame :
    ¬(frameAndPing.onMessage scriptConfig diskFull 0 (frameAndPing.buffer.length + 1) 0).Attended
      0 := by
  rw [onMessage_attended_iff (Nat.lt_succ_self _)]
  decide +kernel

/-! ### Frames that are pending -/

/-- A frame that is pending is not finished. -/
def ClientSession.FrameOpen (session : ClientSession) : Prop :=
  ∀ frame, session.binaryUpload = some frame → 0 < frame.remainingBytes

def Host.FrameOpen (host : Host) (conn : ConnId) : Prop :=
  ∀ s, host.shared = some s → (s.sessions conn).FrameOpen

/-- The other connections leave the pending frame of this one alone. -/
def Environment.LeavesFrame (env : Environment) (conn : ConnId) : Prop :=
  ∀ history s, ((env.others history s).sessions conn).binaryUpload = (s.sessions conn).binaryUpload

theorem ClientSession.FrameOpen.congr {session session' : ClientSession}
    (hopen : session.FrameOpen) (hsame : session'.binaryUpload = session.binaryUpload) :
    session'.FrameOpen := by
  unfold FrameOpen
  rw [hsame]
  exact hopen

theorem frameOpen_exec {crypto : Crypto} {action : Act} {choice : Choice} {st : Progress}
    {s' : Shared} {result : action.Result} (hallowed : st.Allowed action)
    (hexec : exec crypto conn action choice s = some (result, s'))
    (hopen : (s.sessions conn).FrameOpen) : (s'.sessions conn).FrameOpen := by
  rcases (Change.of_exec hexec).session_field ClientSession.binaryUpload (fun _ _ => rfl)
    (fun _ _ _ => rfl) with ⟨-, hsame⟩ | ⟨a, rfl, rfl⟩
  · exact hopen.congr (hsame conn)
  · have hsession : (s.setSession conn ((s.sessions conn).assign a)).sessions conn =
        (s.sessions conn).assign a := Function.update_self _ _ _
    rw [hsession]
    cases a with
    | binaryUpload frame =>
      rintro _ ⟨⟩
      exact hallowed.1
    | detachUpload | dropBinaryUpload | frameStored => exact fun _ hnone => nomatch hnone
    | _ => exact hopen

theorem frameOpen_serve {feed : Act → List Choice → Option (Choice × List Choice)} {s' : Shared}
    {request : Request} (hopen : (s.sessions conn).FrameOpen)
    (hserve : Interleaving.serve (server config true) feed s ⟨conn, request, []⟩ = some s') :
    (s'.sessions conn).FrameOpen := by
  rw [Interleaving.serve] at hserve
  split at hserve
  · cases hserve
  · rename_i prog started hlaunch
    obtain ⟨task, handler, rfl, ⟨-, _, rfl, -⟩, hdisciplined⟩ := launch_cases hlaunch
    obtain ⟨out, hcomplete, rfl⟩ := Option.map_eq_some_iff.mp hserve
    rw [thenFinish, complete_bind] at hcomplete
    obtain ⟨served, hhandler, hfinish⟩ := Option.bind_eq_some_iff.mp hcomplete
    have hserved : (served.2.1.sessions conn).FrameOpen :=
      hdisciplined.complete (P := fun s => (s.sessions conn).FrameOpen) frameOpen_exec hhandler hopen
    simp only [act, Prog.perform, complete] at hfinish
    split at hfinish
    · cases hfinish
    · split at hfinish
      · cases hfinish
      · rename_i hexec
        cases hfinish
        rw [exec_finish hexec]
        exact hserved

theorem Host.FrameOpen.serve (hopen : host.FrameOpen conn) (request : Request) :
    (host.serve config env conn request).FrameOpen conn := by
  intro s' hserve
  obtain ⟨s, hshared, hserve⟩ := Option.bind_eq_some_iff.mp hserve
  exact frameOpen_serve (hopen s hshared) hserve

theorem Host.FrameOpen.handleLine (hopen : host.FrameOpen conn) (hleaves : env.LeavesFrame conn)
    (line : List Octet) : (host.handleLine config env conn line).FrameOpen conn := by
  have harrived : FrameOpen { host with
      lines := host.lines ++ [line], shared := host.shared.map (env.others host.history) } conn := by
    intro s' hs'
    obtain ⟨s, hshared, rfl⟩ := Option.map_eq_some_iff.mp hs'
    exact (hopen s hshared).congr (hleaves host.history s)
  unfold Host.handleLine
  dsimp only
  split
  · exact hopen
  · unfold Host.handleCommand
    dsimp only
    split <;> exact harrived.serve _

theorem frameOpen_round {host' : Host} {buffer : List Octet} (hleaves : env.LeavesFrame conn)
    (hopen : host.FrameOpen conn)
    (hround : (inputReader config env conn).round newline host buffer = some (host', rest)) :
    host'.FrameOpen conn := by
  obtain ⟨line, -, -, rfl⟩ | ⟨count, -, -, -, rfl, -⟩ := Reader.round_cases hround
  · rw [inputReader_onLine, Host.settle]
    split
    · exact (hopen.handleLine hleaves line).serve _
    · exact hopen.handleLine hleaves line
  · show (host.handleFrameBytes config env conn _).FrameOpen conn
    unfold Host.handleFrameBytes
    split
    · exact hopen.serve _
    · dsimp only
      split <;> exact hopen.serve _

/-! ### Lines that are too long -/

def LinesFit (lines : List (List Octet)) : Prop :=
  ∀ line ∈ lines, line.length ≤ kMaxInputBuffer + 1

/-- The reader is inside a line that is too long already. -/
def Overlong (conn : ConnId) (out : Host × List Octet) : Prop :=
  out.1.demand conn = .line ∧ kMaxInputBuffer < out.2.length

variable (config env conn) in
/-- The input has come by a reader's way through a stream. -/
structure Follows (input : Input) (stream : List Octet → Host × List Octet) : Prop where
  not_orphaned : input.host.orphaned conn = false
  frameOpen : input.host.FrameOpen conn
  destination : ∀ unread, input.destination config env conn unread = stream unread

/-- A call goes on following the stream, or it refuses a line that is too long. -/
theorem call_follows {stream : List Octet → Host × List Octet} (hleaves : env.LeavesFrame conn)
    (hfollows : Follows config env conn input stream) (hcalls : Calls config env conn input after)
    (hstored : ∀ entry ∈ after.host.history, entry.stored = true) :
    (Follows config env conn after stream ∧ (Overlong conn (stream []) → 0 < after.queued)) ∨
      Overlong conn (stream []) ∧ after.host.lines = (stream []).1.lines ∧
        ∃ s', (stream []).1.shared = some s' ∧ after.host.shared = some (s'.closeTooLong conn) := by
  obtain ⟨host, rest, hrounds, horphaned, hend⟩ := hcalls
  have hreach : ∀ {host rest queued}, (inputReader config env conn).Rounds newline
      (input.host, input.buffer) (host, rest) → host.orphaned conn = false →
        Follows config env conn ⟨host, rest, queued⟩ stream := fun hrounds horphaned =>
    { not_orphaned := horphaned
      frameOpen := hrounds.keeps (P := fun host _ => host.FrameOpen conn)
        (fun hopen hround => frameOpen_round hleaves hopen hround) hfollows.frameOpen
      destination := fun unread => (inputReader_lawful.drain_of_rounds unread hrounds).symm.trans
        (hfollows.destination unread) }
  have hfollows' : Follows config env conn ⟨host, rest, input.queued⟩ stream :=
    hreach hrounds horphaned
  have hwaiting : (inputReader config env conn).round newline host rest = none →
      stream [] = (host, rest) := fun hnone => by
    rw [← hfollows'.destination, Input.destination, List.append_nil, Reader.drain_of_none hnone]
  cases hend with
  | idle hdemand =>
    rw [hwaiting (Reader.round_nothing hdemand)]
    exact .inl ⟨hfollows', fun hlong => absurd (hdemand.symm.trans hlong.1) (by simp)⟩
  | noData hdemand hempty =>
    rw [hwaiting (hempty ▸ Reader.round_no_data hdemand)]
    exact .inl ⟨hfollows', fun hlong => absurd (hdemand.symm.trans hlong.1) (by simp)⟩
  | noLine hshared hdemand htake hlength =>
    rw [hwaiting (Reader.round_no_line hdemand htake)]
    refine .inl ⟨hfollows', fun hlong => absurd hlong.2 (Nat.not_lt.mpr (hlength ?_))⟩
    obtain ⟨s', hat⟩ := demand_line hdemand
    cases hshared.symm.trans hat.shared
    -- the session expects a line, so that a frame would be finished
    by_contra hbinary
    obtain ⟨frame, hframe⟩ := Option.ne_none_iff_exists'.mp hbinary
    have hremaining := hfollows'.frameOpen _ hshared frame hframe
    have hpending := hat.pendingFrame
    simp only [ClientSession.pendingFrame, hframe, Option.filter_some, hremaining, decide_true,
      if_true] at hpending
    cases hpending
  | tooLong hshared hdemand htake hlength =>
    rw [hwaiting (Reader.round_no_line hdemand htake)]
    exact .inr ⟨⟨hdemand, hlength⟩, rfl, _, hshared, rfl⟩
  | @queued line rest' hdemand htake hsettled =>
    have hround : (inputReader config env conn).round newline host rest = some (_, rest') :=
      Reader.round_line hdemand htake
    rw [inputReader_onLine, settle_of_not_orphaned hsettled] at hround
    exact .inl ⟨hreach (hrounds.tail hround) hsettled, fun _ => Nat.succ_pos _⟩
  | fails hdemand _ hended =>
    obtain ⟨s, frame, upload, hin, rfl⟩ := demand_data hdemand
    obtain ⟨entry, hentry, hlost⟩ := handleFrameBytes_failed hin hended
    cases hlost.symm.trans (hstored entry hentry)

theorem arriving_append (first second : List Input.Event) :
    Input.arriving (first ++ second) = Input.arriving first ++ Input.arriving second := by
  induction first with
  | nil => rfl
  | cons event first ih => cases event <;> simp [Input.arriving, ih]

def Input.starts (input : Input) : Input.Event → Input
  | .read chunk => { input with buffer := input.buffer ++ chunk }
  | .resume => { input with queued := input.queued - 1 }

theorem host_starts (event : Input.Event) : (input.starts event).host = input.host := by
  cases event <;> rfl

variable (config env conn) in
theorem step_cases (input : Input) (event : Input.Event) :
    (event = .resume ∧ input.step config env conn event = input) ∨
      input.step config env conn event = (input.starts event).onMessage config env conn
        ((input.starts event).buffer.length + 1) 0 := by
  cases event with
  | read chunk => exact .inr rfl
  | resume =>
    rw [Input.step]
    cases hqueued : input.queued with
    | zero => exact .inl ⟨rfl, rfl⟩
    | succ queued => exact .inr (by rw [Input.starts, hqueued]; rfl)

theorem recorded_step (input : Input) (event : Input.Event) :
    Recorded input.host (input.step config env conn event).host := by
  rcases step_cases config env conn input event with ⟨-, hstep⟩ | hstep
  · rw [hstep]
    exact ⟨List.prefix_rfl, List.prefix_rfl⟩
  · rw [hstep, ← host_starts event]
    exact recorded_onMessage 0 (Nat.lt_succ_self _)

/-! ### Connections that are fed with reads -/

/-- A connection, the state it starts in and what comes from outside. -/
structure Feed where
  config : ServerConfig
  env : Environment
  conn : ConnId
  start : Shared

namespace Feed

variable (feed : Feed) (events : List Input.Event)

def received : Input :=
  Input.receive feed.config feed.env feed.conn ⟨{ shared := some feed.start }, [], 0⟩ events

def reader (stream : List Octet) : Host × List Octet :=
  (inputReader feed.config feed.env feed.conn).drain newline { shared := some feed.start } stream

/-- How far the reader that never yields comes with the bytes that have arrived. -/
def reading : Host × List Octet := feed.reader (Input.arriving events)

/-- Every line that is too long is cut: after some read it is too long already and has not ended, and
when the next read comes, no call is queued. -/
structure LongLinesCut : Prop where
  cut : ∀ before chunk after, events = before ++ .read chunk :: after →
    LinesFit (feed.reading before).1.lines → ¬Overlong feed.conn (feed.reading before) →
      LinesFit (feed.reading (before ++ [.read chunk])).1.lines
  inTime : ∀ before chunk after, events = before ++ .read chunk :: after →
    Overlong feed.conn (feed.reading before) → (feed.received before).queued = 0

/-- The client has been told that its line is too long, and has been shut down. -/
def Refused : Prop :=
  ∃ before s, before <+: events ∧ Overlong feed.conn (feed.reading before) ∧
    (feed.reading before).1.shared = some s ∧
    (feed.received events).host.shared = some (s.closeTooLong feed.conn)

/-- The stream is followed, or the client has been refused. -/
def Watched : Prop :=
  (Follows feed.config feed.env feed.conn (feed.received events)
      (fun unread => feed.reader (Input.arriving events ++ unread)) ∧
    LinesFit (feed.reading events).1.lines ∧
    (Overlong feed.conn (feed.reading events) → 0 < (feed.received events).queued)) ∨
  feed.Refused events ∧ LinesFit (feed.received events).host.lines

variable {feed events}

theorem received_snoc (event : Input.Event) :
    feed.received (events ++ [event]) =
      (feed.received events).step feed.config feed.env feed.conn event := by
  simp [received, Input.receive]

theorem recorded_received {before : List Input.Event} (hbefore : before <+: events) :
    Recorded (feed.received before).host (feed.received events).host := by
  obtain ⟨after, rfl⟩ := hbefore
  induction after using List.reverseRecOn with
  | nil =>
    rw [List.append_nil]
    exact ⟨List.prefix_rfl, List.prefix_rfl⟩
  | append_singleton after event ih =>
    rw [← List.append_assoc, received_snoc]
    exact ih.trans (recorded_step _ event)

theorem reading_resume : feed.reading (events ++ [.resume]) = feed.reading events := by
  simp [reading, arriving_append, Input.arriving]

theorem watched_nil (hbinary : (feed.start.sessions feed.conn).binaryUpload = none) :
    feed.Watched [] := by
  have hreading : feed.reading [] = ({ shared := some feed.start }, []) := by
    refine Reader.drain_of_none ?_
    cases hround : (inputReader feed.config feed.env feed.conn).round newline
      { shared := some feed.start } [] with
    | none => exact hround
    | some out => exact absurd (Reader.length_round hround) (Nat.not_lt_zero _)
  refine .inl ⟨⟨not_orphaned_of_binaryUpload ?_, ?_, fun _ => rfl⟩, ?_, ?_⟩
  · rintro _ ⟨⟩
    exact hbinary
  · rintro _ ⟨⟩ frame hframe
    cases hbinary.symm.trans hframe
  · rw [hreading]
    exact fun _ hline => nomatch hline
  · rw [hreading]
    exact fun hlong => nomatch hlong.2

theorem Refused.snoc (hrefused : feed.Refused events) (event : Input.Event) :
    feed.Refused (events ++ [event]) ∧
      (feed.received (events ++ [event])).host = (feed.received events).host := by
  obtain ⟨before, s, hbefore, hlong, hshared, hclosed⟩ := hrefused
  have hsame : (feed.received (events ++ [event])).host = (feed.received events).host := by
    rw [received_snoc]
    rcases step_cases feed.config feed.env feed.conn (feed.received events) event with
      ⟨-, hstep⟩ | hstep
    · rw [hstep]
    · rw [hstep, onMessage_closed (host_starts event ▸ hclosed) closeTooLong_connected,
        checkLength_of_closed closeTooLong_connected, host_starts]
  exact ⟨⟨before, s, hbefore.trans (List.prefix_append _ _), hlong, hshared, hsame ▸ hclosed⟩, hsame⟩

theorem follows_starts (event : Input.Event) (hfollows : Follows feed.config feed.env feed.conn input
      fun unread => feed.reader (Input.arriving events ++ unread)) :
    Follows feed.config feed.env feed.conn (input.starts event)
      fun unread => feed.reader (Input.arriving (events ++ [event]) ++ unread) := by
  cases event with
  | read chunk =>
    refine ⟨hfollows.not_orphaned, hfollows.frameOpen, fun unread => ?_⟩
    have hdestination := hfollows.destination (chunk ++ unread)
    simpa [Input.destination, Input.starts, arriving_append, Input.arriving] using hdestination
  | resume =>
    refine ⟨hfollows.not_orphaned, hfollows.frameOpen, fun unread => ?_⟩
    simpa [Input.destination, Input.starts, arriving_append, Input.arriving] using
      hfollows.destination unread

theorem Watched.snoc {event : Input.Event} (hleaves : feed.env.LeavesFrame feed.conn)
    (hwatched : feed.Watched events)
    (hfits : LinesFit (feed.reading events).1.lines →
      (Overlong feed.conn (feed.reading events) → 0 < (feed.received events).queued) →
      LinesFit (feed.reading (events ++ [event])).1.lines)
    (hstored : ∀ entry ∈ (feed.received (events ++ [event])).host.history, entry.stored = true) :
    feed.Watched (events ++ [event]) := by
  rcases hwatched with ⟨hfollows, hlines, hqueued⟩ | ⟨hrefused, hlines⟩
  · rcases step_cases feed.config feed.env feed.conn (feed.received events) event with
      ⟨rfl, hstep⟩ | hstep
    · left
      rw [reading_resume, received_snoc, hstep, arriving_append, Input.arriving, Input.arriving,
        List.append_nil]
      exact ⟨hfollows, hlines, hqueued⟩
    · have hstarts := follows_starts event hfollows
      have hcalls : Calls feed.config feed.env feed.conn _ _ :=
        onMessage_calls 0 (Nat.lt_succ_self _) hstarts.not_orphaned
      rw [← hstep, ← received_snoc] at hcalls
      have hcall := call_follows hleaves hstarts hcalls hstored
      rw [List.append_nil] at hcall
      rcases hcall with ⟨hfollows', hqueued'⟩ | ⟨hlong, hsame, s, hshared, hclosed⟩
      · exact .inl ⟨hfollows', hfits hlines hqueued, hqueued'⟩
      · refine .inr ⟨⟨_, s, List.prefix_rfl, hlong, hshared, hclosed⟩, ?_⟩
        rw [hsame]
        exact hfits hlines hqueued
  · obtain ⟨hrefused', hsame⟩ := hrefused.snoc event
    exact .inr ⟨hrefused', hsame ▸ hlines⟩

theorem watched_of_cut (hbinary : (feed.start.sessions feed.conn).binaryUpload = none)
    (hleaves : feed.env.LeavesFrame feed.conn) (hcut : feed.LongLinesCut events)
    (hstored : ∀ entry ∈ (feed.received events).host.history, entry.stored = true)
    {before : List Input.Event} (hbefore : before <+: events) : feed.Watched before := by
  induction before using List.reverseRecOn with
  | nil => exact watched_nil hbinary
  | append_singleton before event ih =>
    have hwatched := ih ((List.prefix_append _ _).trans hbefore)
    refine hwatched.snoc hleaves (fun hlines hqueued => ?_) fun entry hentry =>
      hstored entry ((recorded_received hbefore).2.subset hentry)
    obtain ⟨after, rfl⟩ := hbefore
    have hevents : before ++ [event] ++ after = before ++ event :: after := by simp
    cases event with
    | read chunk =>
      refine hcut.cut before chunk after hevents hlines fun hlong => ?_
      exact absurd (hqueued hlong) (by rw [hcut.inTime before chunk after hevents hlong]; decide)
    | resume =>
      rw [reading_resume]
      exact hlines

/-- **The length of a line is limited**, in every run that cuts the lines that are too long and in
which every frame can be stored: no such line is dispatched, and a client that sends one is told and
shut down. -/
theorem line_length_limited (hbinary : (feed.start.sessions feed.conn).binaryUpload = none)
    (hleaves : feed.env.LeavesFrame feed.conn) (hcut : feed.LongLinesCut events)
    (hstored : ∀ entry ∈ (feed.received events).host.history, entry.stored = true) :
    (∀ line ∈ (feed.received events).host.lines, line.length ≤ kMaxInputBuffer + 1) ∧
      ((∃ line ∈ (feed.reading events).1.lines, kMaxInputBuffer + 1 < line.length) ∨
        Overlong feed.conn (feed.reading events) ∧ (feed.received events).queued = 0 →
        feed.Refused events) := by
  rcases watched_of_cut hbinary hleaves hcut hstored List.prefix_rfl with
    ⟨hfollows, hlines, hqueued⟩ | ⟨hrefused, hlines⟩
  · constructor
    · have hdestination := hfollows.destination []
      rw [List.append_nil] at hdestination
      intro line hline
      refine hlines line ?_
      rw [reading, ← hdestination]
      exact (recorded_drain feed.config feed.env feed.conn _ _).1.subset hline
    · rintro (⟨line, hline, hlong⟩ | ⟨hlong, hnone⟩)
      · exact absurd (hlines line hline) (Nat.not_le.mpr hlong)
      · exact absurd (hqueued hlong) (by rw [hnone]; decide)
  · exact ⟨hlines, fun _ => hrefused⟩

/-! ### A line that is too long -/

def amys : Feed := ⟨scriptConfig, quiet, 0, uploadState⟩

@[irreducible]
def longText : List Octet := text (List.replicate (kMaxInputBuffer + 1) 97)

def longLine : List Octet := longText ++ text [newline]

theorem length_longText : kMaxInputBuffer < longText.length := by
  rw [longText, length_text, List.length_replicate]
  exact Nat.lt_succ_self _

theorem takeLine_longText : takeLine newline longText = none := by
  rw [← Option.isNone_iff_eq_none, ← Option.not_isSome, Bool.not_eq_true', ← Bool.not_eq_true,
    takeLine_isSome, longText, values_text]
  intro hmem
  cases List.eq_of_mem_replicate hmem

theorem length_longLine : kMaxInputBuffer + 1 < longLine.length := by
  rw [longLine, List.length_append, length_text, List.length_singleton]
  exact Nat.succ_lt_succ length_longText

theorem takeLine_longLine : takeLine newline longLine = some (longLine, []) :=
  takeLine_append_of_none takeLine_longText _

theorem reading_longText :
    amys.reading [.read longText] = ({ shared := some uploadState }, longText) := by
  have hround : (inputReader scriptConfig quiet 0).round newline { shared := some uploadState }
      longText = none := Reader.round_no_line rfl takeLine_longText
  rw [reading, Input.arriving, Input.arriving, List.append_nil]
  exact Reader.drain_of_none hround

theorem received_longText : amys.received [.read longText] =
    ⟨{ shared := some (uploadState.closeTooLong 0) }, longText, 0⟩ := by
  have hat : Host.AtLine { shared := some uploadState } 0 uploadState := ⟨rfl, rfl, rfl⟩
  rw [received, Input.receive, List.foldl_cons, List.foldl_nil, Input.step, List.nil_append]
  refine (onMessage_no_line hat takeLine_longText).trans ?_
  rw [Input.checkLength, if_pos (by simp only [length_longText, decide_true]; rfl)]
  rfl

theorem refused_longText : amys.Refused [.read longText] := by
  refine ⟨_, uploadState, List.prefix_rfl, ?_⟩
  rw [reading_longText, received_longText]
  exact ⟨⟨rfl, length_longText⟩, rfl, rfl⟩

theorem longLinesCut_longText :
    amys.LongLinesCut [.read longText, .read (text [newline])] := by
  have hcases : ∀ before chunk after,
      [.read longText, .read (text [newline])] = before ++ Input.Event.read chunk :: after →
        before = [] ∧ chunk = longText ∨ before = [.read longText] := by
    intro before chunk after hevents
    rcases before with - | ⟨first, - | ⟨second, before⟩⟩
    all_goals simp_all
  constructor
  · intro before chunk after hevents _ hshort
    rcases hcases before chunk after hevents with ⟨rfl, rfl⟩ | rfl
    · rw [List.nil_append, reading_longText]
      exact fun _ hline => nomatch hline
    · rw [reading_longText] at hshort
      exact absurd ⟨rfl, length_longText⟩ hshort
  · intro before chunk after hevents _
    rcases hcases before chunk after hevents with ⟨rfl, rfl⟩ | rfl
    · rfl
    · rw [received_longText]

/-- The line feed comes with a read of its own, and the line is refused before. -/
theorem line_length_limited_cut :
    (∀ line ∈ (amys.received [.read longText, .read (text [newline])]).host.lines,
        line.length ≤ kMaxInputBuffer + 1) ∧
      amys.Refused [.read longText, .read (text [newline])] := by
  have hsame : (amys.received [.read longText, .read (text [newline])]).host =
      { shared := some (uploadState.closeTooLong 0) } :=
    (refused_longText.snoc (.read (text [newline]))).2.trans (by rw [received_longText])
  have hlimited := line_length_limited rfl (fun _ _ => rfl) longLinesCut_longText
    (by rw [hsame]; exact fun _ hentry => nomatch hentry)
  exact ⟨hlimited.1, hlimited.2 (.inl ⟨longLine, mem_lines_drain rfl takeLine_longLine,
    length_longLine⟩)⟩

/-- A line that is too long is dispatched when it arrives in one piece. -/
theorem long_line_dispatched :
    longLine ∈ (amys.received [.read longLine]).host.lines ∧
      kMaxInputBuffer + 1 < longLine.length := by
  refine ⟨?_, length_longLine⟩
  rw [received, Input.receive, List.foldl_cons, List.foldl_nil, Input.step, List.nil_append]
  exact mem_lines_onMessage 0 (Nat.lt_succ_self _) ⟨rfl, rfl, rfl⟩ takeLine_longLine

end Feed

end Call

end ChatRoom
