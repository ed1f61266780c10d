import ChatRoom.Proof.OutputOrder

/-! # The framing of the output of a connection -/

namespace ChatRoom.Net

open OutputLedger Transition

variable {Callback Owner Outcome Task : Type}

theorem FileFrame.Fits.length {files : Bytes → Bytes} {frame : FileFrame Callback}
    (h : frame.Fits files) :
    (fileBytes files frame.path frame.offset frame.byteCount).length = frame.byteCount := by
  unfold Fits at h
  rw [fileBytes, List.length_take, List.length_drop]
  omega

namespace Machine

variable {files : Bytes → Bytes} {user : User Callback Owner Outcome Task}

theorem intact_fresh (tls ktls : Bool) (owner : Owner) :
    Intact files (fresh tls ktls owner : Machine Callback Owner).conn [] where
  dropped := rfl
  unbroken := rfl
  draining := by simp
  calm := .nil
  sending := by simp
  whole := by simp [fresh]
  header := by simp

theorem ordered_intact_of_run {tls ktls : Bool} {owner : Owner}
    {inputs : List (Input Callback Outcome Task)} {m : Machine Callback Owner}
    (hrun : Run (fun m input => next m files user input) (Undisturbed files)
      (fresh tls ktls owner) inputs m) :
    Ordered files (fun _ => True) m ∧ Intact files m.conn m.stack := by
  refine hrun.invariant (fun m => Ordered files (fun _ => True) m ∧ Intact files m.conn m.stack)
    ?_ ⟨ordered_start files _ tls ktls owner, intact_fresh tls ktls owner⟩
  rintro m input m' ⟨hordered, hintact⟩ hundisturbed hnext
  exact ⟨hordered.next (fun _ _ => trivial) (fun _ _ _ _ => trivial) hnext,
    intact_next hintact hordered.stacked hundisturbed hnext⟩

/-- **Framing.** In every undisturbed run, what the socket has taken is the beginning of the started
units, one whole unit after the other; the rest of them is in the output buffer or is the rest of
the frame being sent. A frame has exactly the bytes it declares. No unit is started twice, and the
accepted units are those started and those that wait. -/
theorem output_framing {tls ktls : Bool} {owner : Owner}
    {inputs : List (Input Callback Outcome Task)} {m : Machine Callback Owner}
    (hrun : Run (fun m input => next m files user input) (Undisturbed files)
      (fresh tls ktls owner) inputs m) :
    m.conn.emitted <+: concat (Output.bytes files) m.conn.started ∧
      m.conn.emitted ++ (m.ledger files).remaining =
        concat (Output.bytes files) m.conn.started ∧
      (∀ unit ∈ m.conn.started, ∀ frame, unit.request = .frame frame →
        (fileBytes files frame.path frame.offset frame.byteCount).length = frame.byteCount) ∧
      m.conn.started.Nodup ∧
      (m.conn.started : Multiset (Numbered (Output Callback))) + (m.ledger files).waiting =
        m.conn.accepted := by
  obtain ⟨hordered, hintact⟩ := ordered_intact_of_run hrun
  have hwritten := emitted_append_remaining hordered.sound.written
  refine ⟨⟨_, hwritten⟩, hwritten, ?_, hordered.sound.nodup_started, ?_⟩
  · intro unit hunit frame hframe
    have hwhole := hintact.whole unit hunit
    rw [hframe] at hwhole
    exact FileFrame.Fits.length hwhole
  · have hdropped : (m.ledger files).dropped = 0 := by
      change (m.conn.dropped : Multiset (Numbered (Output Callback))) = 0
      rw [hintact.dropped]
      rfl
    have haccounted := hordered.sound.accounted
    rwa [hdropped, add_zero] at haccounted

/-! ### A run -/

def undisturbed [DecidableEq Callback] (files : Bytes → Bytes) (m : Machine Callback Owner)
    (input : Input Callback Outcome Task) : Bool :=
  (match input with
    | .fault | .openFailed => false
    | .failed => decide (m.stack.head? ≠ some .flushTlsOutput ∧ m.stack.head? ≠ some .sendFileBytes)
    | _ => true) &&
  match m.stack.head? with
  | some (.startFileFrame frame) =>
    decide (frame.request.offset + frame.request.byteCount ≤ (files frame.request.path).length)
  | _ => true

theorem undisturbed_of_test [DecidableEq Callback] (files : Bytes → Bytes) (m : Machine Callback Owner)
    (input : Input Callback Outcome Task) (h : undisturbed files m input = true) :
    Undisturbed files m input := by
  obtain ⟨hinput, hfits⟩ := Bool.and_eq_true_iff.mp h
  refine ⟨?_, ?_, ?_, ?_⟩
  · rintro rfl
    cases hinput
  · rintro rfl
    cases hinput
  · rintro rfl
    exact of_decide_eq_true hinput
  · intro frame hframe
    rw [hframe] at hfits
    unfold FileFrame.Fits
    exact of_decide_eq_true hfits

def twoFiles (path : Bytes) : Bytes := if path = utf8 "f" then utf8 "hello" else utf8 "abc"

def chained : User Unit Nat Unit Unit where
  completed _ _ _ count :=
    (count + 1, if count = 0 then [.sendFileFrame (utf8 "G 2\n") (utf8 "g") 1 2 none] else [])
  background _ _ count := (count, [])

def chainedInputs : List (Input Unit Unit Unit) :=
  [.connectEstablished, .calls [], .run,
    .call (.sendFileFrame (utf8 "F 5\n") (utf8 "f") 0 5 (some ())), .opened, .wrote 3, .run, .run,
    .wantWrite, .run,
    .call (.send (utf8 "hi\n") none), .run,
    .writable, .run, .wrote 1, .run, .wrote 2, .wantWrite,
    .writable, .run, .wrote 3, .run, .run,
    .run, .run, .run, .completed (), .run, .opened, .run, .run, .run, .wrote 4]

theorem output_framing_chained :
    ∃ m, Run (fun m input => next m twoFiles chained input) (Undisturbed twoFiles)
        (fresh false false 0) chainedInputs m ∧
      m.conn.emitted = utf8 "F 5\nhellohi\nG" ∧ m.conn.outputBuffer = utf8 " 2\n" ∧
      m.conn.emitted <+: concat (Output.bytes twoFiles) m.conn.started ∧
      (m.conn.started : Multiset (Numbered (Output Unit))) + (m.ledger twoFiles).waiting =
        m.conn.accepted := by
  have hreplay : (replay (fun m input => next m twoFiles chained input) (undisturbed twoFiles)
      (fresh false false 0) chainedInputs).any (fun m =>
        decide (m.conn.emitted = utf8 "F 5\nhellohi\nG" ∧ m.conn.outputBuffer = utf8 " 2\n")) =
      true := by
    decide +kernel
  obtain ⟨m, hrun, htest⟩ := replay_reaches (undisturbed_of_test twoFiles) hreplay
  obtain ⟨hemitted, hbuffer⟩ := of_decide_eq_true htest
  obtain ⟨hleading, -, -, -, hkept⟩ := output_framing hrun
  exact ⟨m, hrun, hemitted, hbuffer, hleading, hkept⟩

end Machine

end ChatRoom.Net
