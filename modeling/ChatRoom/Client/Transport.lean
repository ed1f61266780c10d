import ChatRoom.Lib.Answers
import ChatRoom.Text

/-!
# The transport of the client

`TlsClientTransport` queues text and writes it as far as the socket takes it. A procedure of the
transport is answered by OpenSSL and the kernel; the loops go on as long as the answers say so.
-/

namespace ChatRoom.Client

open Answers

def kMaxQueuedTextBytes : Nat := 8 * 1024 * 1024

def kQueuedFlushBudgetBytes : Nat := 256 * 1024

/-! ### The queue -/

/-- `output_queue_`, and `output_offset_`: how much of its first block has been written. -/
structure OutputQueue where
  blocks : List Bytes
  offset : Nat
  blocks_ne : ∀ block ∈ blocks, block ≠ []
  offset_lt : ∀ front ∈ blocks.head?, offset < front.length
  offset_nil : blocks = [] → offset = 0

namespace OutputQueue

def empty : OutputQueue where
  blocks := []
  offset := 0
  blocks_ne := by simp
  offset_lt := by simp
  offset_nil := fun _ => rfl

def bytes (queue : OutputQueue) : Bytes := queue.blocks.flatten.drop queue.offset

def pushBack (queue : OutputQueue) (data : Bytes) (hdata : data ≠ []) : OutputQueue where
  blocks := queue.blocks ++ [data]
  offset := queue.offset
  blocks_ne := by
    intro block hblock
    rcases List.mem_append.mp hblock with hblock | hblock
    · exact queue.blocks_ne block hblock
    · rw [List.mem_singleton.mp hblock]
      exact hdata
  offset_lt := by
    intro front hfront
    cases hblocks : queue.blocks with
    | nil =>
      rw [hblocks, List.nil_append, List.head?_cons, Option.mem_some_iff] at hfront
      rw [queue.offset_nil hblocks, ← hfront]
      exact List.length_pos_iff.mpr hdata
    | cons first rest =>
      refine queue.offset_lt front ?_
      rw [hblocks] at hfront ⊢
      exact hfront
  offset_nil := by simp

def advance : OutputQueue → Nat → OutputQueue
  | ⟨[], offset, hne, hlt, hnil⟩, _ => ⟨[], offset, hne, hlt, hnil⟩
  | ⟨front :: rest, offset, hne, _, _⟩, count =>
    if hcount : offset + count < front.length then
      { blocks := front :: rest
        offset := offset + count
        blocks_ne := hne
        offset_lt := by simpa using hcount
        offset_nil := by simp }
    else
      { blocks := rest
        offset := 0
        blocks_ne := fun block hblock => hne block (List.mem_cons_of_mem _ hblock)
        offset_lt := fun next hnext => List.length_pos_iff.mpr
          (hne next (List.mem_cons_of_mem _ (List.mem_of_mem_head? hnext)))
        offset_nil := fun _ => rfl }

theorem bytes_of_cons {queue : OutputQueue} {front : Bytes} {rest : List Bytes}
    (hblocks : queue.blocks = front :: rest) :
    queue.bytes = front.drop queue.offset ++ rest.flatten := by
  have hoffset : queue.offset < front.length := queue.offset_lt front (by simp [hblocks])
  rw [bytes, hblocks, List.flatten_cons, List.drop_append_of_le_length (Nat.le_of_lt hoffset)]

@[simp]
theorem bytes_pushBack (queue : OutputQueue) {data : Bytes} (hdata : data ≠ []) :
    (queue.pushBack data hdata).bytes = queue.bytes ++ data := by
  have hoffset : queue.offset ≤ queue.blocks.flatten.length := by
    cases hblocks : queue.blocks with
    | nil => simp [queue.offset_nil hblocks]
    | cons front rest =>
      have hlt : queue.offset < front.length := queue.offset_lt front (by simp [hblocks])
      rw [List.flatten_cons, List.length_append]
      omega
  change (queue.blocks ++ [data]).flatten.drop queue.offset = _
  rw [List.flatten_append, List.flatten_singleton, List.drop_append_of_le_length hoffset, bytes]

theorem take_append_advance {queue : OutputQueue} {front : Bytes} {rest : List Bytes}
    (hblocks : queue.blocks = front :: rest) {count : Nat}
    (hcount : count ≤ front.length - queue.offset) :
    (front.drop queue.offset).take count ++ (queue.advance count).bytes = queue.bytes := by
  have hoffset : queue.offset < front.length := queue.offset_lt front (by simp [hblocks])
  rw [bytes_of_cons hblocks]
  obtain ⟨blocks, offset, hne, hlt, hnil⟩ := queue
  subst hblocks
  simp only at hoffset hcount ⊢
  rw [advance]
  by_cases hless : offset + count < front.length
  · rw [dif_pos hless, bytes_of_cons rfl, ← List.append_assoc, ← List.drop_drop,
      List.take_append_drop]
  · have hall : count = front.length - offset := by omega
    rw [dif_neg hless, bytes, List.drop_zero, hall, ← List.length_drop, List.take_length]

end OutputQueue

/-! ### The answers of OpenSSL and the kernel -/

inductive SslFailure where
  | wantRead
  | wantWrite
  | interrupted
  | failed
  deriving DecidableEq, Repr

inductive PollResult where
  | ready
  /-- `POLLERR`, `POLLHUP` or `POLLNVAL`. -/
  | broken
  | timedOut
  | interrupted
  | failed
  deriving DecidableEq, Repr

inductive Answer where
  | sslWrite (result : Except SslFailure Nat)
  | poll (result : PollResult)

inductive QueuedWriteWait where
  | none
  | read
  | write
  deriving DecidableEq, Repr

/-- A call of `SSL_write` by `flush_queued`. The strings are numbered as they have been accepted; one
in the queue is never moved, so that its number and the offset stand for the address. -/
structure SslWrite where
  block : Nat
  offset : Nat
  request : Nat
  result : Except SslFailure Nat

/-- `written` is what OpenSSL has taken on this connection, `accepted` what has been put in the
queue, and `writes` has the calls of `flush_queued`, the last one first. -/
structure Transport where
  connected : Bool
  queue : OutputQueue
  queuedOutputBytes : Nat
  queuedWriteWait : QueuedWriteWait
  zeroCopySendAvailable : Bool
  written : Bytes
  accepted : List Bytes
  writes : List SslWrite

namespace Transport

def hasPendingOutput (transport : Transport) : Bool := !transport.queue.blocks.isEmpty

def sslWrite (transport : Transport) (request : Nat) (result : Except SslFailure Nat) :
    SslWrite where
  block := transport.accepted.length - transport.queue.blocks.length
  offset := transport.queue.offset
  request := request
  result := result

/-- A call of `SSL_write` with `request` bytes from `data` on. What it reports it has taken. -/
def called (transport : Transport) (data : Bytes) (request : Nat)
    (result : Except SslFailure Nat) : Transport :=
  { transport with
    written := transport.written ++
      match result with
      | .ok count => data.take count
      | .error _ => []
    writes := transport.sslWrite request result :: transport.writes }

def wroteQueued (transport : Transport) (count : Nat) : Transport :=
  { transport with
    queue := transport.queue.advance count
    queuedOutputBytes := transport.queuedOutputBytes - count
    queuedWriteWait := .none }

/-- One round of `flush_queued`. The budget is far below `INT_MAX`. -/
def flushRound : Nat × Transport → Io Answer ((Nat × Transport) ⊕ (Bool × Transport))
  | (budget, transport) =>
    match transport.queue.blocks with
    | [] => pure (.inr (true, { transport with queuedWriteWait := .none }))
    | front :: _ =>
      if budget = 0 then
        match transport.queuedWriteWait with
        | .none => pure (.inr (true, { transport with queuedWriteWait := .write }))
        | _ => pure (.inr (true, transport))
      else do
        let data := front.drop transport.queue.offset
        let request := min data.length budget
        match ← Io.answer with
        | .sslWrite (.ok count) =>
          if 0 < count ∧ count ≤ request then
            pure (.inl (budget - count,
              (transport.called data request (.ok count)).wroteQueued count))
          else
            failure
        | .sslWrite (.error sslFailure) =>
          let transport := transport.called data request (.error sslFailure)
          match sslFailure with
          | .wantWrite => pure (.inr (true, { transport with queuedWriteWait := .write }))
          | .wantRead => pure (.inr (true, { transport with queuedWriteWait := .read }))
          | .interrupted => pure (.inl (budget, transport))
          | .failed => pure (.inr (false, { transport with connected := false }))
        | _ => failure

def flushQueued (transport : Transport) : Io Answer (Bool × Transport) :=
  if transport.connected then
    Io.loop flushRound (kQueuedFlushBudgetBytes, transport)
  else
    pure (false, transport)

def waitForSocket : Io Answer Bool :=
  Io.loop (fun () => do
    match ← Io.answer with
    | .poll .ready => pure (.inr true)
    | .poll .interrupted => pure (.inl ())
    | .poll _ => pure (.inr false)
    | _ => failure) ()

def flushBlockingRound (transport : Transport) : Io Answer (Transport ⊕ (Bool × Transport)) :=
  if transport.hasPendingOutput then do
    match ← transport.flushQueued with
    | (false, transport) => pure (.inr (false, transport))
    | (true, transport) =>
      if transport.hasPendingOutput then
        if ← waitForSocket then pure (.inl transport) else pure (.inr (false, transport))
      else
        pure (.inr (true, transport))
  else
    pure (.inr (true, transport))

def flushQueuedBlocking (transport : Transport) : Io Answer (Bool × Transport) :=
  Io.loop flushBlockingRound transport

def enqueueOutput (transport : Transport) (data : Bytes) : Option Transport :=
  if transport.connected then
    if hdata : data = [] then
      some transport
    else if kMaxQueuedTextBytes < transport.queuedOutputBytes + data.length then
      none
    else
      some
        { transport with
          queue := transport.queue.pushBack data hdata
          queuedOutputBytes := transport.queuedOutputBytes + data.length
          accepted := transport.accepted ++ [data] }
  else
    none

def queueSend (transport : Transport) (data : Bytes) : Io Answer (Bool × Transport) :=
  match transport.enqueueOutput data with
  | none => pure (false, transport)
  | some transport => transport.flushQueued

def send (transport : Transport) (data : Bytes) : Io Answer (Bool × Transport) :=
  match transport.enqueueOutput data with
  | none => pure (false, transport)
  | some transport => transport.flushQueuedBlocking

def connect (zeroCopy : Bool) : Transport where
  connected := true
  queue := .empty
  queuedOutputBytes := 0
  queuedWriteWait := .none
  zeroCopySendAvailable := zeroCopy
  written := []
  accepted := []
  writes := []

end Transport

end ChatRoom.Client
