import ChatRoom.Proof.Input
import ChatRoom.Proof.Serial

/-!
# Reads of the input may be cut anywhere

What `on_message` does with a stream is compared with the reader that gets all of it at once and
never yields.
-/

namespace ChatRoom

open Handler Interleaving MixedStream

structure Fits (conn : ConnId) (out : Host × List Octet) : Prop where
  line_length : ∀ line ∈ out.1.lines, line.length ≤ kMaxInputBuffer + 1
  rest_length : out.1.demand conn = .line → out.2.length ≤ kMaxInputBuffer
  stored : ∀ entry ∈ out.1.history, entry.stored = true

/-! ### The loop -/

section Loop

variable {config : ServerConfig} {env : Environment} {conn : ConnId}

variable (config env conn) in
def Input.destination (input : Input) (unread : List Octet) : Host × List Octet :=
  (inputReader config env conn).drain newline input.host (input.buffer ++ unread)

variable (config env conn) in
def Input.Waiting (input : Input) : Prop :=
  (inputReader config env conn).round newline input.host input.buffer = none

variable {input : Input} {unread : List Octet} {s : Shared}

theorem unfinished_length (hfits : Fits conn (input.destination config env conn unread))
    (hdemand : input.host.demand conn = .line) (htake : takeLine newline input.buffer = none) :
    input.buffer.length ≤ kMaxInputBuffer := by
  have happend := takeLine_append_of_none htake unread
  cases hunread : takeLine newline unread with
  | none =>
    rw [hunread, Option.map_none] at happend
    have hdrain : input.destination config env conn unread =
        (input.host, input.buffer ++ unread) :=
      Reader.drain_of_none (Reader.round_no_line hdemand happend)
    have hrest := hfits.rest_length (by rw [hdrain]; exact hdemand)
    rw [hdrain, List.length_append] at hrest
    omega
  | some found =>
    obtain ⟨line, rest⟩ := found
    rw [hunread, Option.map_some] at happend
    have hlength := hfits.line_length _ (mem_lines_drain hdemand happend)
    have hline := List.length_pos_iff.mpr (takeLine_ne_nil hunread)
    rw [List.length_append] at hlength
    omega

variable (config env conn) in
structure UpToDate (input : Input) : Prop where
  not_orphaned : input.host.orphaned conn = false
  waiting : input.queued = 0 → input.Waiting config env conn

theorem Loops.upToDate {before after : Input} (hloops : Loops config env conn before after)
    (hfits : Fits conn (before.destination config env conn unread)) :
    after.destination config env conn unread = before.destination config env conn unread ∧
      UpToDate config env conn after := by
  obtain ⟨host, rest, hrounds, horphaned, hend⟩ := hloops
  have hdestination : Input.destination config env conn ⟨host, rest, 0⟩ unread =
      before.destination config env conn unread :=
    (inputReader_lawful.drain_of_rounds unread hrounds).symm
  rw [← hdestination] at hfits
  cases hend with
  | waiting hround => exact ⟨hdestination, horphaned, fun _ => hround⟩
  | queued => exact ⟨hdestination, horphaned, nofun⟩
  | lost hlost =>
    obtain ⟨entry, hmem, hlost⟩ := hlost
    have hstored := hfits.stored entry ((recorded_drain config env conn host _).2.subset hmem)
    rw [hlost] at hstored
    cases hstored
  | tooLong hdemand htake hlength =>
    have hshort := unfinished_length hfits hdemand htake
    exact absurd hlength (Nat.not_lt.mpr hshort)

theorem onMessage_upToDate (input : Input) (horphaned : input.host.orphaned conn = false)
    (hfits : Fits conn (input.destination config env conn unread)) :
    (input.onMessage config env conn (input.buffer.length + 1) 0).destination config env conn
        unread = input.destination config env conn unread ∧
      UpToDate config env conn (input.onMessage config env conn (input.buffer.length + 1) 0) :=
  (onMessage_loops 0 (Nat.lt_succ_self _) horphaned).upToDate hfits

end Loop

/-! ### Reads and queued calls -/

section Events

variable {config : ServerConfig} {env : Environment} {conn : ConnId}

theorem step_upToDate {input : Input} (hinput : UpToDate config env conn input)
    (event : Input.Event) (events : List Input.Event)
    (hfits : Fits conn (input.destination config env conn (Input.arriving (event :: events)))) :
    (input.step config env conn event).destination config env conn (Input.arriving events) =
        input.destination config env conn (Input.arriving (event :: events)) ∧
      UpToDate config env conn (input.step config env conn event) := by
  cases event with
  | read chunk =>
    have hdestination : Input.destination config env conn
        { input with buffer := input.buffer ++ chunk } (Input.arriving events) =
          input.destination config env conn (Input.arriving (.read chunk :: events)) := by
      rw [Input.destination, Input.destination, Input.arriving, List.append_assoc]
    obtain ⟨hafter, hupToDate⟩ := onMessage_upToDate { input with buffer := input.buffer ++ chunk }
      hinput.not_orphaned (hdestination ▸ hfits)
    exact ⟨hafter.trans hdestination, hupToDate⟩
  | resume =>
    rw [Input.step]
    cases hqueued : input.queued with
    | zero => exact ⟨rfl, hinput⟩
    | succ queued =>
      exact onMessage_upToDate { input with queued } hinput.not_orphaned hfits

theorem receive_upToDate (events : List Input.Event) {input : Input}
    (hinput : UpToDate config env conn input)
    (hfits : Fits conn (input.destination config env conn (Input.arriving events))) :
    (input.receive config env conn events).destination config env conn [] =
        input.destination config env conn (Input.arriving events) ∧
      UpToDate config env conn (input.receive config env conn events) := by
  induction events generalizing input with
  | nil => exact ⟨rfl, hinput⟩
  | cons event events ih =>
    obtain ⟨hdestination, hstep⟩ := step_upToDate hinput event events hfits
    obtain ⟨hreceive, hfinal⟩ := ih hstep (hdestination ▸ hfits)
    exact ⟨hreceive.trans hdestination, hfinal⟩

theorem receive_eq_drain {s : Shared} {events : List Input.Event}
    (hbinary : (s.sessions conn).binaryUpload = none)
    (hfits : Fits conn ((inputReader config env conn).drain newline { shared := some s }
      (Input.arriving events)))
    (hqueued : (Input.receive config env conn ⟨{ shared := some s }, [], 0⟩ events).queued = 0) :
    (Input.receive config env conn ⟨{ shared := some s }, [], 0⟩ events).host =
      ((inputReader config env conn).drain newline { shared := some s }
        (Input.arriving events)).1 := by
  have hstart : UpToDate config env conn ⟨{ shared := some s }, [], 0⟩ := by
    constructor
    · refine not_orphaned_of_binaryUpload fun s' hs' => ?_
      cases hs'
      exact hbinary
    · intro _
      cases hround : (inputReader config env conn).round newline { shared := some s } [] with
      | none => exact hround
      | some out =>
        have hshorter := Reader.length_round hround
        simp at hshorter
  obtain ⟨hdestination, hfinal⟩ := receive_upToDate events hstart hfits
  have hwaiting := Reader.drain_of_none (hfinal.waiting hqueued)
  rw [Input.destination, List.append_nil, hwaiting] at hdestination
  exact congrArg Prod.fst hdestination

end Events

/-- **Segmentation.** From between two frames, the same stream cut into reads in two ways leads to
the same commands with the same arguments and to the same appended frames, as soon as no call of the
loop is queued. The stream has no line that is too long, and the appends succeed. -/
theorem dispatched_independent_of_reads {config : ServerConfig} {env : Environment} {conn : ConnId}
    {s : Shared} {first second : List Input.Event}
    (hbinary : (s.sessions conn).binaryUpload = none)
    (hstream : Input.arriving first = Input.arriving second)
    (hfits : Fits conn ((inputReader config env conn).drain newline { shared := some s }
      (Input.arriving first)))
    (hfirst : (Input.receive config env conn ⟨{ shared := some s }, [], 0⟩ first).queued = 0)
    (hsecond : (Input.receive config env conn ⟨{ shared := some s }, [], 0⟩ second).queued = 0) :
    (Input.receive config env conn ⟨{ shared := some s }, [], 0⟩ first).host.history =
      (Input.receive config env conn ⟨{ shared := some s }, [], 0⟩ second).host.history := by
  rw [receive_eq_drain hbinary hfits hfirst, receive_eq_drain hbinary (hstream ▸ hfits) hsecond,
    hstream]

def quiet : Environment where
  others := fun _ s => s
  append := fun _ => .done
  answer := fun _ _ => .proceed

def uploaded (fileSize : Nat) (sha256Hex : Bytes) : FileTransferMetadata :=
  ⟨uploadToken, .privateFile, utf8 "amy", utf8 "bob", 0, [], utf8 "f", fileSize, sha256Hex, 0,
    storedRelativePath uploadToken (utf8 "f")⟩

def uploader (metadata : FileTransferMetadata) : ClientSession where
  loggedIn := true
  username := utf8 "amy"
  upload := some ⟨uploadToken, 0, ⟨metadata, [utf8 "bob"]⟩⟩

def threeByteUpload : FileTransferMetadata :=
  uploaded 3 (utf8 "7e18f737311b2dc3b2f269dd78396b0351f14fb66efa879f768cb23181883c78")

def uploadState : Shared where
  store := { parts := fun token => if token = uploadToken then some [] else none }
  sessions := fun _ => uploader threeByteUpload
  phase := fun _ => .connected

def frameAndPings : List Octet :=
  text (utf8 "FILE_CHUNK " ++ uploadToken ++ utf8 " 0 3\r\n") ++ rawData (utf8 "a\nb") ++
    text (List.replicate 33 (utf8 "PING\n")).flatten

theorem dispatched_frameAndPings :
    (Input.receive scriptConfig quiet 0 ⟨{ shared := some uploadState }, [], 0⟩
      [.read frameAndPings, .resume]).host.history =
    (Input.receive scriptConfig quiet 0 ⟨{ shared := some uploadState }, [], 0⟩
      [.read (frameAndPings.take 7), .read ((frameAndPings.drop 7).take 12),
        .read (frameAndPings.drop 19), .resume]).host.history :=
  dispatched_independent_of_reads rfl (by decide +kernel)
    ⟨by decide +kernel, by decide +kernel, by decide +kernel⟩ (by decide +kernel) (by decide +kernel)

end ChatRoom
