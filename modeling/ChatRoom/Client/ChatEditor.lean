import ChatRoom.Lib.Runs
import ChatRoom.Client.State
import ChatRoom.Client.TextQueue

/-!
# The input of messages

`handle_chat_message_input` takes the lines that are typed in a chat. In the mode for long texts
they are collected in a draft, and a command sends it.
-/

namespace ChatRoom.Client

open Answers

variable {wire : Bytes}

/-! ### The model -/

def joinMessageLines (lines : List Bytes) : Bytes := [newline].intercalate lines

def resetChatInput (state : ClientState) : ClientState :=
  { state with
    chatModeSelectionActive := false
    chatInputMode := .none
    chatMultilineFinished := false
    chatMessageLines := [] }

def leaveChatInputMode (state : ClientState) : ClientState := resetChatInput state

def clearPendingEntry (state : ClientState) : ClientState :=
  { state with pendingChatScope := .none, pendingChatTarget := [], chatEntryPending := false }

def leaveChatSession (state : ClientState) : ClientState :=
  resetChatInput (clearPendingEntry { state with chatScope := .none, chatTarget := [] })

def sendChatMessage (transport : Transport) (state : ClientState) (message : Bytes) :
    Io Answer (Bool × Transport) :=
  match chatMessageLine state.chatScope state.chatTarget message with
  | none => pure (true, transport)
  | some wire => do
    match ← transport.queueSend wire with
    | (true, transport) => pure (true, transport)
    | (false, transport) => pure (transport.connected, transport)

/-- The branch of the commands that send, which the source has twice. -/
def sendDraft (transport : Transport) (state : ClientState) :
    Io Answer (Bool × Transport × ClientState) := do
  let message := joinMessageLines state.chatMessageLines
  match ← sendChatMessage transport state message with
  | (false, transport) => pure (false, transport, state)
  | (true, transport) =>
    if message ≠ [] ∧ message.length ≤ kMaxEditableChatMessage then
      pure (true, transport, { state with chatMessageLines := [], chatMultilineFinished := false })
    else
      pure (true, transport, state)

abbrev SendCommand (line : Bytes) : Prop := trim line = utf8 "/send" ∨ trim line = utf8 "发送"

def handleChatMessageInput (transport : Transport) (state : ClientState) (line : Bytes) :
    Io Answer (Bool × Transport × ClientState) :=
  let cleaned := trim line
  if state.chatInputMode = .none then
    pure (true, transport, state)
  else if cleaned = utf8 "/quit" then
    pure (true, transport, leaveChatSession state)
  else if cleaned = utf8 "/back" ∨ cleaned = utf8 "返回" then
    pure (true, transport, leaveChatInputMode state)
  else if state.chatInputMode = .instant then
    if line = [] then
      pure (true, transport, state)
    else do
      let (usable, transport) ← sendChatMessage transport state line
      pure (usable, transport, state)
  else if cleaned = utf8 "/cancel" ∨ cleaned = utf8 "取消" then
    pure (true, transport, { state with chatMessageLines := [], chatMultilineFinished := false })
  else if state.chatMultilineFinished then
    if SendCommand line then
      sendDraft transport state
    else if cleaned = utf8 "继续" then
      pure (true, transport, { state with chatMultilineFinished := false })
    else
      pure (true, transport, state)
  else if cleaned = utf8 "结束" then
    if state.chatMessageLines = [] then
      pure (true, transport, state)
    else
      pure (true, transport, { state with chatMultilineFinished := true })
  else if SendCommand line then
    sendDraft transport state
  else
    let lines := state.chatMessageLines ++ [line]
    if kMaxEditableChatMessage < (joinMessageLines lines).length then
      pure (true, transport, state)
    else
      pure (true, transport, { state with chatMessageLines := lines })

/-! ### The draft -/

variable {transport : Transport} {state : ClientState} {line : Bytes}

def Editable (state : ClientState) : Prop :=
  (joinMessageLines state.chatMessageLines).length ≤ kMaxEditableChatMessage

theorem editable_of_nil (hlines : state.chatMessageLines = []) : Editable state := by
  rw [Editable, hlines]
  exact Nat.zero_le _

theorem sendChatMessage_any (transport : Transport) (state : ClientState) (message : Bytes) :
    Io.Ensures (fun _ => True) (sendChatMessage transport state message) fun _ => True :=
  fun _ _ _ _ _ => ⟨fun _ _ => trivial, trivial⟩

theorem sendDraft_editable (hstate : Editable state) :
    Io.Ensures (fun _ => True) (sendDraft transport state) fun out => Editable out.2.2 := by
  refine (sendChatMessage_any _ _ _).bind fun ⟨usable, transport'⟩ _ => ?_
  cases usable with
  | false => exact .pure hstate
  | true => exact .ite (fun _ => .pure (editable_of_nil rfl)) fun _ => .pure hstate

theorem handleChatMessageInput_editable (hstate : Editable state) :
    Io.Ensures (fun _ => True) (handleChatMessageInput transport state line)
      fun out => Editable out.2.2 := by
  refine .ite (fun _ => .pure hstate) fun _ => ?_
  refine .ite (fun _ => .pure (editable_of_nil rfl)) fun _ => ?_
  refine .ite (fun _ => .pure (editable_of_nil rfl)) fun _ => ?_
  refine .ite (fun _ => ?_) fun _ => ?_
  · exact .ite (fun _ => .pure hstate) fun _ =>
      (sendChatMessage_any _ _ _).bind fun _ _ => .pure hstate
  refine .ite (fun _ => .pure (editable_of_nil rfl)) fun _ => ?_
  refine .ite (fun _ => ?_) fun _ => ?_
  · refine .ite (fun _ => sendDraft_editable hstate) fun _ => ?_
    exact .ite (fun _ => .pure hstate) fun _ => .pure hstate
  refine .ite (fun _ => ?_) fun _ => ?_
  · exact .ite (fun _ => .pure hstate) fun _ => .pure hstate
  refine .ite (fun _ => sendDraft_editable hstate) fun _ => ?_
  exact .ite (fun _ => .pure hstate) fun hfits => .pure (Nat.le_of_not_lt hfits)

/-! ### The commands that send -/

theorem handleChatMessageInput_send (transport : Transport)
    (hmode : state.chatInputMode = .multiLine) (hsend : SendCommand line) :
    handleChatMessageInput transport state line = sendDraft transport state := by
  rcases hsend with hsend | hsend
  all_goals
    cases hfinished : state.chatMultilineFinished <;>
      simp +decide [handleChatMessageInput, SendCommand, hmode, hsend, hfinished]

def CarriesDraft (state : ClientState) (wire : Bytes) : Prop :=
  ∃ command ∈ [utf8 "MSG", utf8 "GROUP_MSG"], ∃ content,
    percentDecode content = .ok (joinMessageLines state.chatMessageLines) ∧
      wire = command ++ utf8 " " ++ state.chatTarget ++ utf8 " " ++ content ++ utf8 "\n"

/-- Whatever the calls of OpenSSL return, the line leaves the draft as it is, or empties it when a
line with its content has been put in the queue. -/
def KeepsText (transport : Transport) (state : ClientState) (line : Bytes) : Prop :=
  ∀ answers usable transport' state' rest,
    handleChatMessageInput transport state line answers =
        some ((usable, transport', state'), rest) →
      state'.chatMessageLines = state.chatMessageLines ∨
        state'.chatMessageLines = [] ∧ ∃ wire, CarriesDraft state wire ∧
          transport'.accepted = transport.accepted ++ [wire]

/-- The line of the draft, if there is one, fits in the queue. -/
def HasRoom (transport : Transport) (state : ClientState) : Prop :=
  ∀ wire, chatMessageLine state.chatScope state.chatTarget
      (joinMessageLines state.chatMessageLines) = some wire →
    transport.connected = true →
    transport.queuedOutputBytes + wire.length ≤ kMaxQueuedTextBytes

theorem chatMessageLine_eq_some {scope : ClientChatScope} {target message : Bytes}
    (hwire : chatMessageLine scope target message = some wire) :
    (message ≠ [] ∧ message.length ≤ kMaxEditableChatMessage) ∧ wire ≠ [] := by
  unfold chatMessageLine at hwire
  split at hwire
  · cases hwire
  · rename_i haccepted
    cases hwire
    refine ⟨?_, List.append_ne_nil_of_right_ne_nil _ (by decide)⟩
    simpa [not_or, Nat.not_lt] using haccepted

theorem carriesDraft_of_chatMessageLine (hwire : chatMessageLine state.chatScope state.chatTarget
      (joinMessageLines state.chatMessageLines) = some wire) : CarriesDraft state wire := by
  unfold chatMessageLine at hwire
  split at hwire
  · cases hwire
  · cases hwire
    refine ⟨_, ?_, _, percentDecode_percentEncode _, rfl⟩
    split <;> simp

theorem sendDraft_of_full (hwire : chatMessageLine state.chatScope state.chatTarget
      (joinMessageLines state.chatMessageLines) = some wire)
    (hconnected : transport.connected = true)
    (hfull : kMaxQueuedTextBytes < transport.queuedOutputBytes + wire.length) :
    sendDraft transport state [] = some ((true, transport,
      { state with chatMessageLines := [], chatMultilineFinished := false }), []) := by
  obtain ⟨hmessage, hne⟩ := chatMessageLine_eq_some hwire
  have hnone : transport.enqueueOutput wire = none :=
    (Transport.enqueueOutput_eq_none hne).mpr fun _ => hfull
  have hsent : sendChatMessage transport state (joinMessageLines state.chatMessageLines) [] =
      some ((true, transport), []) := by
    simp only [sendChatMessage, hwire, Transport.queueSend, hnone]
    rw [← hconnected]
    rfl
  refine Io.bind_eq_some.mpr ⟨_, _, hsent, ?_⟩
  simp only [if_pos hmessage]
  rfl

theorem sendChatMessage_accepted {message : Bytes}
    (hwire : chatMessageLine state.chatScope state.chatTarget message = some wire)
    (hroom : transport.connected = true →
      transport.queuedOutputBytes + wire.length ≤ kMaxQueuedTextBytes) :
    Io.Ensures (fun _ => True) (sendChatMessage transport state message) fun out =>
      out.1 = true → out.2.accepted = transport.accepted ++ [wire] := by
  obtain ⟨-, hne⟩ := chatMessageLine_eq_some hwire
  simp only [sendChatMessage, hwire, Transport.queueSend]
  cases hqueued : transport.enqueueOutput wire with
  | none =>
    refine .pure fun hconnected => absurd (hroom hconnected) (Nat.not_le_of_lt ?_)
    exact (Transport.enqueueOutput_eq_none hne).mp hqueued hconnected
  | some queued =>
    refine (Transport.flushQueued_spec queued).bind fun out hflushed => ?_
    obtain ⟨flushed, transport'⟩ := out
    obtain ⟨haccepted, hlost⟩ := hflushed
    cases flushed with
    | true => exact .pure fun _ => haccepted.trans (Transport.accepted_of_enqueueOutput hne hqueued)
    | false => exact .pure fun hconnected => Bool.noConfusion (hconnected.symm.trans (hlost rfl))

theorem sendDraft_keeps (hroom : HasRoom transport state) :
    Io.Ensures (fun _ => True) (sendDraft transport state) fun out =>
      out.2.2 = state ∨ out.2.2.chatMessageLines = [] ∧
        ∃ wire, CarriesDraft state wire ∧
          out.2.1.accepted = transport.accepted ++ [wire] := by
  cases hwire : chatMessageLine state.chatScope state.chatTarget
      (joinMessageLines state.chatMessageLines) with
  | none =>
    have hrefused : ¬(joinMessageLines state.chatMessageLines ≠ [] ∧
        (joinMessageLines state.chatMessageLines).length ≤ kMaxEditableChatMessage) := by
      simpa [chatMessageLine, imp_iff_not_or] using hwire
    simp only [sendDraft, sendChatMessage, hwire, pure_bind, if_neg hrefused]
    exact .pure (.inl rfl)
  | some wire =>
    refine (sendChatMessage_accepted hwire (hroom wire hwire)).bind
      fun ⟨usable, transport'⟩ haccepted => ?_
    cases usable with
    | false => exact .pure (.inl rfl)
    | true =>
      refine .ite (fun _ => .pure (.inr ⟨rfl, wire, ?_, haccepted rfl⟩)) fun _ => .pure (.inl rfl)
      exact carriesDraft_of_chatMessageLine hwire

/-- **A sent draft is not lost** exactly if its line fits in the queue. -/
theorem keepsText_iff_hasRoom (hmode : state.chatInputMode = .multiLine)
    (hsend : SendCommand line) : KeepsText transport state line ↔ HasRoom transport state := by
  have hhandle := handleChatMessageInput_send transport hmode hsend
  constructor
  · intro hkeeps wire hwire hconnected
    refine Nat.le_of_not_lt fun hfull => ?_
    obtain ⟨⟨hmessage, -⟩, -⟩ := chatMessageLine_eq_some hwire
    rcases hkeeps [] true transport _ [] (hhandle ▸ sendDraft_of_full hwire hconnected hfull) with
      hsame | ⟨-, wire', -, haccepted⟩
    · exact hmessage (by rw [← hsame]; rfl)
    · simp at haccepted
  · intro hroom answers usable transport' state' rest hrun
    rw [hhandle] at hrun
    rcases (sendDraft_keeps hroom _ _ _ (fun _ _ => trivial) hrun).2 with hsame | hsent
    · exact .inl (congrArg _ hsame)
    · exact .inr hsent

/-! ### Sequences of lines -/

structure TypedLine where
  transport : Transport
  line : Bytes
  answers : List Answer

def edited (state : ClientState) (typed : TypedLine) : Option ClientState :=
  (handleChatMessageInput typed.transport state typed.line typed.answers).map fun out => out.1.2.2

theorem editable_of_edited {state' : ClientState} {typed : TypedLine} (hstate : Editable state)
    (hedited : edited state typed = some state') : Editable state' := by
  obtain ⟨⟨out, rest⟩, hrun, rfl⟩ := Option.map_eq_some_iff.mp hedited
  exact (handleChatMessageInput_editable hstate _ _ _ (fun _ _ => trivial) hrun).2

/-- **The editor of long texts.** From an empty draft on and whatever is typed, the draft is no longer
than a message may be; and a command that sends loses no text exactly if there is room for the line
in the queue. -/
theorem multi_line_editor_keeps_text {start state : ClientState} {typed : List TypedLine}
    (hstart : start.chatMessageLines = [])
    (hrun : Transition.Run edited Transition.anyStep start typed state) :
    (joinMessageLines state.chatMessageLines).length ≤ kMaxEditableChatMessage ∧
      ∀ transport line, state.chatInputMode = .multiLine → SendCommand line →
        (KeepsText transport state line ↔ HasRoom transport state) := by
  refine ⟨?_, fun transport line hmode hsend => keepsText_iff_hasRoom hmode hsend⟩
  exact hrun.invariant Editable (fun _ _ _ hstate _ => editable_of_edited hstate)
    (editable_of_nil hstart)

def longTextMode (lines : List Bytes) : ClientState :=
  { chatScope := .privateChat
    chatTarget := utf8 "bob"
    chatInputMode := .multiLine
    chatMessageLines := lines }

theorem run_one_line : Transition.Run edited Transition.anyStep (longTextMode [])
    [⟨.connect true, utf8 "hi", []⟩] (longTextMode [utf8 "hi"]) :=
  .snoc .nil trivial rfl

theorem multi_line_editor_keeps_text_one_line :
    (joinMessageLines (longTextMode [utf8 "hi"]).chatMessageLines).length ≤
        kMaxEditableChatMessage ∧
      ∀ transport line, (longTextMode [utf8 "hi"]).chatInputMode = .multiLine → SendCommand line →
        (KeepsText transport (longTextMode [utf8 "hi"]) line ↔
          HasRoom transport (longTextMode [utf8 "hi"])) :=
  multi_line_editor_keeps_text rfl run_one_line

theorem draft_lost_when_queue_full :
    ∃ transport, Transport.Occurs transport ∧
      ∃ typed state, Transition.Run edited Transition.anyStep (longTextMode []) typed state ∧
        state.chatInputMode = .multiLine ∧ ¬KeepsText transport state (utf8 "/send") := by
  have hlength : (List.replicate kMaxQueuedTextBytes (97 : UInt8)).length = kMaxQueuedTextBytes :=
    List.length_replicate
  have hdata : List.replicate kMaxQueuedTextBytes (97 : UInt8) ≠ [] := by
    refine List.length_pos_iff.mp ?_
    rw [hlength]
    decide
  obtain ⟨transport, hoccurs, hconnected, hqueued⟩ := Transport.occurs_waiting hdata hlength.le
  refine ⟨transport, hoccurs, _, _, run_one_line, rfl, fun hkeeps => ?_⟩
  have hroom := (keepsText_iff_hasRoom rfl (.inl (by decide))).mp hkeeps _ rfl hconnected
  rw [hqueued, hlength] at hroom
  exact absurd hroom (Nat.not_le_of_lt (Nat.lt_add_of_pos_right (by decide)))

end ChatRoom.Client
