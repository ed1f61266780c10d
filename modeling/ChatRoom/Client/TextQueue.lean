import Mathlib.Data.List.Chain
import ChatRoom.Client.Transport

/-! # The text queue of the client is a queue of bytes -/

namespace ChatRoom.Client

open Answers

variable {data : Bytes}

/-- The later call repeats the earlier one if that has written nothing. -/
def SslWrite.Repeats (later earlier : SslWrite) : Prop :=
  ∀ failure, earlier.result = .error failure →
    later.block = earlier.block ∧ later.offset = earlier.offset ∧ earlier.request ≤ later.request

namespace Transport

structure Fifo (budget : Nat) (transport : Transport) : Prop where
  contents : transport.written ++ transport.queue.bytes = transport.accepted.flatten
  counted : transport.queuedOutputBytes = transport.queue.bytes.length
  bounded : transport.queuedOutputBytes ≤ kMaxQueuedTextBytes
  repeated : transport.writes.IsChain SslWrite.Repeats
  pending : ∀ last ∈ transport.writes.head?, ∀ failure, last.result = .error failure →
    ∃ front ∈ transport.queue.blocks.head?, ∀ result, SslWrite.Repeats
      (transport.sslWrite (min (front.drop transport.queue.offset).length budget) result) last

variable {transport transport' : Transport} {budget : Nat}

theorem fifo_connect (zeroCopy : Bool) : (connect zeroCopy).Fifo budget where
  contents := rfl
  counted := rfl
  bounded := Nat.zero_le _
  repeated := .nil
  pending := fun _ hlast => nomatch hlast

theorem Fifo.mono {budget' : Nat} (hfifo : transport.Fifo budget) (hle : budget ≤ budget') :
    transport.Fifo budget' where
  __ := hfifo
  pending := by
    intro last hlast failure hfailure
    obtain ⟨front, hfront, hrepeats⟩ := hfifo.pending last hlast failure hfailure
    refine ⟨front, hfront, fun result failure hfailure => ?_⟩
    obtain ⟨hblock, hoffset, hrequest⟩ := hrepeats result failure hfailure
    exact ⟨hblock, hoffset, hrequest.trans (min_le_min_left _ hle)⟩

theorem Fifo.states (hfifo : transport.Fifo budget) (connected : Bool) (wait : QueuedWriteWait) :
    ({ transport with connected, queuedWriteWait := wait } : Transport).Fifo budget :=
  { hfifo with }

theorem Fifo.accepted (hfifo : transport.Fifo budget)
    (haccepted : transport.enqueueOutput data = some transport') : transport'.Fifo budget := by
  unfold enqueueOutput at haccepted
  split at haccepted
  · split at haccepted
    · cases haccepted
      exact hfifo
    · rename_i hdata
      split at haccepted
      · cases haccepted
      · rename_i hfits
        cases haccepted
        refine ⟨?_, ?_, Nat.le_of_not_lt hfits, hfifo.repeated, ?_⟩
        · simp [← hfifo.contents]
        · simp [hfifo.counted]
        · -- The first string stays where it is, and as many have been accepted as queued.
          intro last hlast failure hfailure
          obtain ⟨front, hfront, hrepeats⟩ := hfifo.pending last hlast failure hfailure
          refine ⟨front, ?_, fun result failure hfailure => ?_⟩
          · simp [OutputQueue.pushBack, List.head?_append, Option.mem_def.mp hfront]
          · simpa [sslWrite, OutputQueue.pushBack] using hrepeats result failure hfailure
  · cases haccepted

section Called

variable {front : Bytes} {rest : List Bytes} (hblocks : transport.queue.blocks = front :: rest)

include hblocks

theorem Fifo.isChain_called (hfifo : transport.Fifo budget) (result : Except SslFailure Nat) :
    (transport.called (front.drop transport.queue.offset)
      (min (front.drop transport.queue.offset).length budget) result).writes.IsChain
      SslWrite.Repeats := by
  refine List.isChain_cons.mpr ⟨fun last hlast failure hfailure => ?_, hfifo.repeated⟩
  obtain ⟨front', hfront, hrepeats⟩ := hfifo.pending last hlast failure hfailure
  rw [hblocks, List.head?_cons, Option.mem_some_iff] at hfront
  subst hfront
  exact hrepeats result failure hfailure

theorem Fifo.refused (hfifo : transport.Fifo budget) (failure : SslFailure) :
    (transport.called (front.drop transport.queue.offset)
      (min (front.drop transport.queue.offset).length budget) (.error failure)).Fifo budget where
  __ := hfifo
  contents := by simpa [called] using hfifo.contents
  repeated := hfifo.isChain_called hblocks _
  pending := by
    intro last hlast failure _
    cases hlast
    exact ⟨front, by simp [called, hblocks], fun _ _ _ => ⟨rfl, rfl, Nat.le_refl _⟩⟩

theorem Fifo.taken {count : Nat} (hfifo : transport.Fifo budget)
    (hcount : count ≤ min (front.drop transport.queue.offset).length budget) (budget' : Nat) :
    ((transport.called (front.drop transport.queue.offset)
      (min (front.drop transport.queue.offset).length budget) (.ok count)).wroteQueued
        count).Fifo budget' := by
  have hfront : count ≤ (front.drop transport.queue.offset).length :=
    hcount.trans (Nat.min_le_left _ _)
  have hlength : ((front.drop transport.queue.offset).take count).length = count := by
    rw [List.length_take, Nat.min_eq_left hfront]
  have hbytes : (front.drop transport.queue.offset).take count ++
      (transport.queue.advance count).bytes = transport.queue.bytes :=
    OutputQueue.take_append_advance hblocks (List.length_drop ▸ hfront)
  have hsum : count + (transport.queue.advance count).bytes.length =
      transport.queue.bytes.length := by
    rw [← hbytes, List.length_append, hlength]
  refine ⟨?_, ?_, ?_, hfifo.isChain_called hblocks _, ?_⟩
  · simp only [wroteQueued, called, List.append_assoc, hbytes]
    exact hfifo.contents
  · simp only [wroteQueued, called, hfifo.counted]
    omega
  · exact (Nat.sub_le _ _).trans hfifo.bounded
  · intro last hlast failure hfailure
    cases hlast
    cases hfailure

end Called

theorem flushRound_fifo (s : Nat × Transport)
    (hs : s.1 ≤ kQueuedFlushBudgetBytes ∧ s.2.Fifo s.1) :
    Io.Ensures (fun _ => True) (flushRound s)
      (Sum.elim (fun s => s.1 ≤ kQueuedFlushBudgetBytes ∧ s.2.Fifo s.1)
        fun out => out.2.Fifo kQueuedFlushBudgetBytes) := by
  obtain ⟨budget, transport⟩ := s
  obtain ⟨hbudget, hfifo⟩ := hs
  rw [flushRound]
  split
  · exact .pure ((hfifo.mono hbudget).states _ _)
  · rename_i front rest hblocks
    refine .ite (fun _ => ?_) fun _ => ?_
    · split
      · exact .pure ((hfifo.mono hbudget).states _ _)
      · exact .pure (hfifo.mono hbudget)
    · refine Io.Ensures.answer.bind fun answer _ => ?_
      split
      · refine .ite (fun hcount => .pure ?_) fun _ => .failure
        exact ⟨(Nat.sub_le _ _).trans hbudget, hfifo.taken hblocks hcount.2 _⟩
      · rename_i failure
        have hrefused := hfifo.refused hblocks failure
        cases failure with
        | wantRead => exact .pure ((hrefused.mono hbudget).states _ _)
        | wantWrite => exact .pure ((hrefused.mono hbudget).states _ _)
        | interrupted => exact .pure ⟨hbudget, hrefused⟩
        | failed => exact .pure ((hrefused.mono hbudget).states _ _)
      · exact .failure

theorem flushQueued_fifo (hfifo : transport.Fifo kQueuedFlushBudgetBytes) :
    Io.Ensures (fun _ => True) transport.flushQueued
      fun out => out.2.Fifo kQueuedFlushBudgetBytes :=
  .ite (fun _ => .loop flushRound_fifo ⟨Nat.le_refl _, hfifo⟩) fun _ => .pure hfifo

theorem flushBlockingRound_fifo (transport : Transport)
    (hfifo : transport.Fifo kQueuedFlushBudgetBytes) :
    Io.Ensures (fun _ => True) transport.flushBlockingRound
      (Sum.elim (Fifo kQueuedFlushBudgetBytes) fun out => out.2.Fifo kQueuedFlushBudgetBytes) := by
  refine .ite (fun _ => ?_) fun _ => .pure hfifo
  refine (flushQueued_fifo hfifo).bind fun ⟨flushed, transport'⟩ hfifo' => ?_
  cases flushed with
  | false => exact .pure hfifo'
  | true =>
    refine .ite (fun _ => ?_) fun _ => .pure hfifo'
    have hwait : Io.Ensures (fun _ => True) waitForSocket fun _ => True :=
      fun _ _ _ _ _ => ⟨fun _ _ => trivial, trivial⟩
    exact hwait.bind fun _ _ => .ite (fun _ => .pure hfifo') fun _ => .pure hfifo'

/-! ### What a call has accepted -/

theorem enqueueOutput_eq_none (hdata : data ≠ []) :
    transport.enqueueOutput data = none ↔
      (transport.connected = true →
        kMaxQueuedTextBytes < transport.queuedOutputBytes + data.length) := by
  cases hconnected : transport.connected <;> simp [enqueueOutput, hconnected, hdata]

theorem accepted_of_enqueueOutput (hdata : data ≠ [])
    (haccepted : transport.enqueueOutput data = some transport') :
    transport'.accepted = transport.accepted ++ [data] := by
  unfold enqueueOutput at haccepted
  rw [dif_neg hdata] at haccepted
  split at haccepted
  · split at haccepted
    · cases haccepted
    · cases haccepted
      rfl
  · cases haccepted

theorem flushQueued_spec (transport : Transport) :
    Io.Ensures (fun _ => True) transport.flushQueued fun out =>
      out.2.accepted = transport.accepted ∧ (out.1 = false → out.2.connected = false) := by
  refine .ite (fun _ => ?_) fun hdown => .pure ⟨rfl, fun _ => Bool.eq_false_of_not_eq_true hdown⟩
  suffices hround : ∀ s : Nat × Transport, s.2.accepted = transport.accepted →
      Io.Ensures (fun _ => True) (flushRound s)
        (Sum.elim (fun s => s.2.accepted = transport.accepted) fun out =>
          out.2.accepted = transport.accepted ∧ (out.1 = false → out.2.connected = false)) from
    .loop hround rfl
  rintro ⟨budget, current⟩ hcurrent
  rw [flushRound]
  split
  · exact .pure ⟨hcurrent, nofun⟩
  · refine .ite (fun _ => ?_) fun _ => ?_
    · split <;> exact .pure ⟨hcurrent, nofun⟩
    · refine Io.Ensures.answer.bind fun answer _ => ?_
      split
      · exact .ite (fun _ => .pure hcurrent) fun _ => .failure
      · rename_i failure
        cases failure with
        | wantRead => exact .pure ⟨hcurrent, nofun⟩
        | wantWrite => exact .pure ⟨hcurrent, nofun⟩
        | interrupted => exact .pure hcurrent
        | failed => exact .pure ⟨hcurrent, fun _ => rfl⟩
      · exact .failure

/-! ### Sequences of calls -/

inductive TextCall where
  | queueSend (data : Bytes)
  | send (data : Bytes)
  | flushQueued

def TextCall.run (transport : Transport) : TextCall → Io Answer (Bool × Transport)
  | .queueSend data => transport.queueSend data
  | .send data => transport.send data
  | .flushQueued => transport.flushQueued

/-- The transports that occur in a sequence of calls: after a call and, whether or not it returns,
after a string has been accepted and between two rounds of a loop. -/
inductive Occurs : Transport → Prop where
  | connect (zeroCopy : Bool) : Occurs (.connect zeroCopy)
  | called {transport transport' : Transport} {call : TextCall} {answers rest : List Answer}
      {result : Bool} : Occurs transport →
      call.run transport answers = some ((result, transport'), rest) → Occurs transport'
  | accepted {transport transport' : Transport} {data : Bytes} : Occurs transport →
      transport.enqueueOutput data = some transport' → Occurs transport'
  | flushing {transport transport' : Transport} {budget : Nat} : Occurs transport →
      transport.connected = true →
      Io.Reaches flushRound (kQueuedFlushBudgetBytes, transport) (budget, transport') →
      Occurs transport'
  | waiting {transport transport' : Transport} : Occurs transport →
      Io.Reaches flushBlockingRound transport transport' → Occurs transport'

theorem TextCall.run_fifo (hfifo : transport.Fifo kQueuedFlushBudgetBytes) (call : TextCall) :
    Io.Ensures (fun _ => True) (call.run transport)
      fun out => out.2.Fifo kQueuedFlushBudgetBytes := by
  cases call with
  | queueSend data =>
    rw [run, Transport.queueSend]
    split
    · exact .pure hfifo
    · rename_i haccepted
      exact flushQueued_fifo (hfifo.accepted haccepted)
  | send data =>
    rw [run, Transport.send]
    split
    · exact .pure hfifo
    · rename_i haccepted
      exact .loop flushBlockingRound_fifo (hfifo.accepted haccepted)
  | flushQueued => exact flushQueued_fifo hfifo

theorem Occurs.fifo (hoccurs : Occurs transport) : transport.Fifo kQueuedFlushBudgetBytes := by
  induction hoccurs with
  | connect zeroCopy => exact fifo_connect zeroCopy
  | called _ hcall ih => exact (TextCall.run_fifo ih _ _ _ _ (fun _ _ => trivial) hcall).2
  | accepted _ haccepted ih => exact ih.accepted haccepted
  | flushing _ _ hreaches ih =>
    obtain ⟨hbudget, hfifo⟩ := hreaches.invariant flushRound_fifo ⟨Nat.le_refl _, ih⟩
    exact hfifo.mono hbudget
  | waiting _ hreaches ih => exact hreaches.invariant flushBlockingRound_fifo ih

theorem occurs_waiting (hdata : data ≠ []) (hfits : data.length ≤ kMaxQueuedTextBytes) :
    ∃ transport, Occurs transport ∧ transport.connected = true ∧
      transport.queuedOutputBytes = data.length := by
  have hrun : ∃ transport', (TextCall.queueSend data).run (.connect true)
      [.sslWrite (.error .wantWrite)] = some ((true, transport'), []) ∧
      transport'.connected = true ∧ transport'.queuedOutputBytes = data.length := by
    have hroom : ¬kMaxQueuedTextBytes < (connect true).queuedOutputBytes + data.length := by
      simpa [connect] using hfits
    have hup : (connect true).connected = true := rfl
    rw [TextCall.run, Transport.queueSend, enqueueOutput, if_pos hup, dif_neg hdata, if_neg hroom]
    exact ⟨_, rfl, rfl, Nat.zero_add _⟩
  obtain ⟨transport', hcall, hrest⟩ := hrun
  exact ⟨transport', (Occurs.connect true).called hcall, hrest⟩

/-- **The text queue refines a queue of bytes**, at every moment of every sequence of calls and
whatever `SSL_write` and `poll` return. -/
theorem text_queue_refines_fifo {transport : Transport} (hoccurs : Occurs transport) :
    transport.written <+: transport.accepted.flatten ∧
      transport.written.length + transport.queuedOutputBytes = transport.accepted.flatten.length ∧
      transport.queuedOutputBytes ≤ kMaxQueuedTextBytes ∧
      transport.writes.IsChain SslWrite.Repeats := by
  have hfifo := hoccurs.fifo
  refine ⟨⟨_, hfifo.contents⟩, ?_, hfifo.bounded, hfifo.repeated⟩
  rw [← hfifo.contents, List.length_append, hfifo.counted]

theorem text_queue_refines_fifo_blocked :
    ∃ transport, Occurs transport ∧ transport.writes.length = 4 ∧
      transport.written <+: transport.accepted.flatten ∧
      transport.written.length + transport.queuedOutputBytes = transport.accepted.flatten.length ∧
      transport.queuedOutputBytes ≤ kMaxQueuedTextBytes ∧
      transport.writes.IsChain SslWrite.Repeats := by
  have hfirst := Occurs.called (.connect true)
    (rfl : (TextCall.queueSend [72, 105, 10]).run (connect true)
      [.sslWrite (.ok 1), .sslWrite (.error .wantWrite)] = some ((true, _), []))
  have hsecond := hfirst.called
    (rfl : (TextCall.queueSend [10]).run _
      [.sslWrite (.error .interrupted), .sslWrite (.error .wantRead)] = some ((true, _), []))
  exact ⟨_, hsecond, rfl, text_queue_refines_fifo hsecond⟩

end Transport

end ChatRoom.Client
