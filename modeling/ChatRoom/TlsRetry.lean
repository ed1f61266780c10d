import ChatRoom.Server.Buffer
import ChatRoom.Proof.OutputFrame

/-!
# The repeated writes of a TLS connection

An `SSL_write` that ends with `SSL_ERROR_WANT_READ` or `SSL_ERROR_WANT_WRITE` has to be repeated
with the same pointer and no fewer bytes, unless the context is told otherwise.
-/

namespace ChatRoom.Net

open OutputLedger Transition

variable {Callback Owner Outcome Task : Type}
variable {write : Write}

inductive Address where
  /-- An index of the vector of `outputBuffer_`. -/
  | output (allocation index : Nat)
  /-- The array `buffer` of a call of `flushFileSend`. -/
  | stack (call : Nat)
  deriving DecidableEq

structure Write where
  address : Address
  length : Nat
  deriving DecidableEq

def Write.Repeats (later earlier : Write) : Prop :=
  later.address = earlier.address ∧ earlier.length ≤ later.length

instance (later earlier : Write) : Decidable (later.Repeats earlier) :=
  inferInstanceAs (Decidable (_ ∧ _))

structure TlsWriter (Callback Owner : Type) where
  machine : Machine Callback Owner
  storage : Storage := .initial
  calls : Nat := 0
  pending : Option Write := none

def intMax : Nat := 2 ^ 31 - 1

namespace TlsWriter

variable (w : TlsWriter Callback Owner)

def flushWrite : Option Write :=
  let c := w.machine.conn
  if c.tls = true ∧ c.tlsHandshakeComplete = true ∧ c.state ≠ .disconnected ∧
      0 < w.storage.readableBytes then
    some ⟨.output w.storage.allocation w.storage.readerIndex, min w.storage.readableBytes intMax⟩
  else none

def fileWrite (files : Bytes → Bytes) : Option Write :=
  let c := w.machine.conn
  match c.activeFileSend with
  | none => none
  | some file =>
    let readCount := min (min file.remaining (16 * 1024))
      ((files file.frame.request.path).length - file.offset)
    if c.tls = true ∧ c.ktls = false ∧ c.tlsHandshakeComplete = true ∧ 0 < readCount then
      some ⟨.stack w.calls, readCount⟩
    else none

def issue (files : Bytes → Bytes) : Option Write :=
  match w.machine.stack.head? with
  | some .flushTlsOutput => w.flushWrite
  | some .sendFileBytes => w.fileWrite files
  | _ => none

def pendingAfter (files : Bytes → Bytes) (input : Input Callback Outcome Task) : Option Write :=
  match w.issue files, input with
  | some write, .wantRead | some write, .wantWrite => some write
  | some _, .wrote _ | some _, .interrupted | some _, .failed => none
  | _, _ => w.pending

def growth (machine : Machine Callback Owner) : Nat :=
  machine.conn.outputBuffer.length - w.machine.conn.outputBuffer.length

def storageAfter (input : Input Callback Outcome Task) (machine : Machine Callback Owner) : Storage :=
  match w.machine.stack.head?, input with
  | some .flushTlsOutput, .wrote count | some .handlePlainWrite, .wrote count =>
    w.storage.retrieve count
  | _, _ => w.storage.append (w.growth machine)

def callsAfter (input : Input Callback Outcome Task) : Nat :=
  match w.machine.stack.head?, input with
  | some .flushFileSend, .run => w.calls + 1
  | _, _ => w.calls

def next (files : Bytes → Bytes) (user : User Callback Owner Outcome Task)
    (input : Input Callback Outcome Task) : Option (TlsWriter Callback Owner) :=
  (w.machine.next files user input).map fun machine =>
    { machine
      storage := w.storageAfter input machine
      calls := w.callsAfter input
      pending := w.pendingAfter files input }

def fresh (ktls : Bool) (owner : Owner) : TlsWriter Callback Owner :=
  { machine := .fresh true ktls owner }

/-- The next `SSL_write` repeats the one that has to be repeated. -/
def Obeys (files : Bytes → Bytes) : Prop :=
  ∀ earlier ∈ w.pending, ∀ later ∈ w.issue files, later.Repeats earlier

instance (files : Bytes → Bytes) : Decidable (w.Obeys files) :=
  inferInstanceAs (Decidable (∀ earlier ∈ w.pending, ∀ later ∈ w.issue files, later.Repeats earlier))

/-- A write from the stack is not turned away, and what is appended while a write has to be repeated
leaves the buffer in its place. -/
structure InPlace (files : Bytes → Bytes) (user : User Callback Owner Outcome Task)
    (input : Input Callback Outcome Task) : Prop where
  file : ∀ call length, w.issue files = some ⟨.stack call, length⟩ →
    input ≠ .wantRead ∧ input ≠ .wantWrite
  append : w.pending ≠ none → ∀ machine, w.machine.next files user input = some machine →
    w.storage.Fits (w.growth machine)

end TlsWriter

def Input.writes : Input Callback Outcome Task → Bool
  | .wrote _ | .wantRead | .wantWrite | .interrupted | .failed => true
  | _ => false

/-! ### The output buffer -/

structure Unbuffered (c c' : TcpConnection Callback) (more : List (Code Callback)) : Prop where
  buffer : c'.outputBuffer = c.outputBuffer
  tls : c'.tls = c.tls
  plain : c.tls = true → .handlePlainWrite ∉ more

section Buffered

variable {c c' : TcpConnection Callback} {more : List (Code Callback)}
  {input : Input Callback Outcome Task}

theorem Sends.grows {unit : Numbered (Output Callback)} {text : Numbered (TextSend Callback)}
    (h : Sends c unit text c' more) :
    c'.tls = c.tls ∧ (∃ rest, c'.outputBuffer = c.outputBuffer ++ rest) ∧
      .handlePlainWrite ∉ more := by
  have hflush : ∀ {more : List (Code Callback)}, more = [] ∨ more = [.flushTlsOutput] →
      .handlePlainWrite ∉ more := by
    rintro more (rfl | rfl) <;> simp
  cases h with
  | closed hstate | deferred hstate hactive | broke hstate hidle hplain hwriting hempty =>
    exact ⟨rfl, ⟨[], (List.append_nil _).symm⟩, by simp⟩
  | gone first rest writing hstate hidle hlive hmessage hfirst hmore =>
    exact ⟨rfl, ⟨rest, rfl⟩, hflush hmore⟩
  | kept first rest writing hstate hidle hlive hmessage hfirst hmore hcompletion =>
    exact ⟨rfl, ⟨rest, rfl⟩, hflush hmore⟩
  | sent hstate hidle hsound hempty hcompletion =>
    exact ⟨rfl, ⟨[], rfl⟩, by simp⟩

theorem Frame.unbuffered {code : Option (Code Callback)} (h : Frame c code c' more)
    (hcode : code.any Code.buffers = false) : Unbuffered c c' more :=
  ⟨h.buffer hcode, h.tls, h.plain⟩

theorem unbuffered_post (call : Call Callback) : Unbuffered c (c.post call) [] := by
  have hposts := post_posted (c := c) call
  generalize c.post call = d at hposts
  cases hposts <;> exact ⟨rfl, rfl, by simp⟩

theorem unbuffered_postAll (calls : List (Call Callback)) (c : TcpConnection Callback) :
    Unbuffered c (calls.foldl TcpConnection.post c) [] := by
  induction calls generalizing c with
  | nil => exact ⟨rfl, rfl, by simp⟩
  | cons call calls ih =>
    have hfirst := unbuffered_post (c := c) call
    have hrest := ih (c.post call)
    exact ⟨hrest.buffer.trans hfirst.buffer, hrest.tls.trans hfirst.tls, by simp⟩

theorem wake_unbuffered (hwake : wake c input = some (c', more)) : Unbuffered c c' more := by
  cases wake_wakes hwake with
  | call call hcalled => exact (hcalled.frame []).unbuffered rfl
  | functor functor functors hfunctors hran =>
    obtain ⟨hbuffer, htls, hplain⟩ := hran.frame.unbuffered rfl
    exact ⟨hbuffer, htls, hplain⟩
  | event harises => exact harises.frame.unbuffered rfl

end Buffered

/-! ### The invariant -/

namespace TlsWriter

structure Flushes (storage : Storage) (write : Write) : Prop where
  address : write.address = .output storage.allocation storage.readerIndex
  length : write.length ≤ min storage.readableBytes intMax
  some : 0 < storage.readableBytes

/-- What has to be repeated is a flush of the output buffer, which is where it was. -/
structure Held (files : Bytes → Bytes) (w : TlsWriter Callback Owner) : Prop where
  ordered : Machine.Ordered files (fun _ => True) w.machine
  secure : w.machine.conn.tls = true
  plain : .handlePlainWrite ∉ w.machine.stack
  readable : w.storage.readableBytes = w.machine.conn.outputBuffer.length
  pending : ∀ write, w.pending = some write → Flushes w.storage write

variable {files : Bytes → Bytes} {user : User Callback Owner Outcome Task}
  {w w' : TlsWriter Callback Owner} {m : Machine Callback Owner}
  {input : Input Callback Outcome Task} {code : Code Callback} {rest more : List (Code Callback)}
  {c : TcpConnection Callback}

theorem held_fresh (ktls : Bool) (owner : Owner) :
    Held files (fresh ktls owner : TlsWriter Callback Owner) where
  ordered := Machine.ordered_start files _ true ktls owner
  secure := rfl
  plain := by simp [fresh, Machine.fresh]
  readable := rfl
  pending := nofun

theorem Held.obeys (h : Held files w) : w.Obeys files := by
  intro earlier hearlier later hlater
  obtain ⟨haddress, hlength, hsome⟩ := h.pending earlier hearlier
  rw [Option.mem_def] at hlater
  unfold issue at hlater
  split at hlater
  · unfold flushWrite at hlater
    dsimp only at hlater
    split at hlater
    · cases hlater
      exact ⟨haddress.symm, hlength⟩
    · cases hlater
  · rename_i hhead
    have hempty : w.machine.conn.outputBuffer = [] := (h.ordered.stacked.poised _ hhead).1
    rw [h.readable, hempty] at hsome
    exact absurd hsome (by simp)
  · cases hlater

theorem Held.unbuffered (h : Held files w) (hordered : Machine.Ordered files (fun _ => True) m)
    (hbuffer : m.conn.outputBuffer = w.machine.conn.outputBuffer)
    (htls : m.conn.tls = w.machine.conn.tls) (hplain : .handlePlainWrite ∉ m.stack)
    {pending : Option Write} (hpending : ∀ write, pending = some write → Flushes w.storage write)
    {storage : Storage} (hstorage : storage = w.storage.append (w.growth m)) (calls : Nat) :
    Held files { machine := m, storage, calls, pending } := by
  have hsame : storage = w.storage := by
    rw [hstorage, growth, hbuffer, Nat.sub_self, Storage.append_zero]
  subst hsame
  exact ⟨hordered, htls.trans h.secure, hplain, h.readable.trans (congrArg _ hbuffer.symm), hpending⟩

theorem pendingAfter_subset (hplace : w.InPlace files user input)
    (hhead : w.machine.stack.head? ≠ some .flushTlsOutput)
    (hpending : w.pendingAfter files input = some write) : w.pending = some write := by
  have hstack : ∀ write, w.issue files = some write → ∃ call, write.address = .stack call := by
    intro write hissue
    unfold issue at hissue
    split at hissue
    · rename_i hflush
      exact absurd hflush hhead
    · unfold fileWrite at hissue
      dsimp only at hissue
      split at hissue
      · cases hissue
      · split at hissue
        · cases hissue
          exact ⟨w.calls, rfl⟩
        · cases hissue
    · cases hissue
  unfold pendingAfter at hpending
  split at hpending
  · rename_i other hissue
    obtain ⟨call, hcall⟩ := hstack other hissue
    exact absurd rfl (hplace.file call other.length (by rw [hissue, ← hcall])).1
  · rename_i other hissue
    obtain ⟨call, hcall⟩ := hstack other hissue
    exact absurd rfl (hplace.file call other.length (by rw [hissue, ← hcall])).2
  · cases hpending
  · cases hpending
  · cases hpending
  · exact hpending

theorem pendingAfter_flush (hhead : w.machine.stack.head? = some .flushTlsOutput)
    (hpending : w.pendingAfter files input = some write) :
    w.pending = some write ∨ w.flushWrite = some write := by
  have hissue : w.issue files = w.flushWrite := by
    unfold issue
    rw [hhead]
  rw [← hissue]
  unfold pendingAfter at hpending
  split at hpending
  · rename_i hwrite
    exact .inr (hwrite.trans hpending)
  · rename_i hwrite
    exact .inr (hwrite.trans hpending)
  · cases hpending
  · cases hpending
  · cases hpending
  · exact .inl hpending

theorem flushes_flushWrite (h : w.flushWrite = some write) :
    Flushes w.storage write := by
  unfold flushWrite at h
  dsimp only at h
  split at h
  · rename_i hready
    cases h
    exact ⟨rfl, le_rfl, hready.2.2.2⟩
  · cases h

theorem pendingAfter_other (hinput : input.writes = false) :
    w.pendingAfter files input = w.pending := by
  unfold pendingAfter
  split <;> first | cases hinput | rfl

theorem storageAfter_other (hinput : input.writes = false) :
    w.storageAfter input m = w.storage.append (w.growth m) := by
  unfold storageAfter
  split <;> first | cases hinput | rfl

theorem storageAfter_append (hflush : w.machine.stack.head? ≠ some .flushTlsOutput)
    (hplain : w.machine.stack.head? ≠ some .handlePlainWrite) :
    w.storageAfter input m = w.storage.append (w.growth m) := by
  unfold storageAfter
  split
  · rename_i hhead
    exact absurd hhead hflush
  · rename_i hhead
    exact absurd hhead hplain
  · rfl

theorem Held.grows (h : Held files w) (hordered : Machine.Ordered files (fun _ => True) m)
    (hissue : w.issue files = none) (hhead : w.machine.stack.head? ≠ some .flushTlsOutput)
    {added : Bytes} (hbuffer : m.conn.outputBuffer = w.machine.conn.outputBuffer ++ added)
    (htls : m.conn.tls = w.machine.conn.tls) (hplain : .handlePlainWrite ∉ m.stack)
    (hfits : w.pending ≠ none → w.storage.Fits (w.growth m)) (calls : Nat) :
    Held files
      { machine := m
        storage := w.storageAfter input m
        calls
        pending := w.pendingAfter files input } := by
  have hpending : w.pendingAfter files input = w.pending := by
    unfold pendingAfter
    rw [hissue]
  have hstorage : w.storageAfter input m = w.storage.append (w.growth m) :=
    storageAfter_append hhead fun hwrite => h.plain (List.mem_of_mem_head? hwrite)
  have hgrowth := w.storage.readableBytes_append (w.growth m)
  rw [hpending, hstorage]
  refine ⟨hordered, htls.trans h.secure, hplain, ?_, fun write hwrite => ?_⟩
  · have hreadable := h.readable
    simp only [growth, hbuffer, List.length_append] at hgrowth ⊢
    omega
  · obtain ⟨haddress, hlength, hsome⟩ := h.pending write hwrite
    have hblocked : w.pending ≠ none := by
      intro hnone
      rw [hnone] at hwrite
      cases hwrite
    obtain ⟨hallocation, hreader⟩ := w.storage.append_fits (hfits hblocked)
    refine ⟨?_, by dsimp only; omega, by dsimp only; omega⟩
    dsimp only
    rw [hallocation, hreader]
    exact haddress

theorem Held.exec_flush (h : Held files w) (hordered : Machine.Ordered files (fun _ => True)
      { w.machine with conn := c, stack := more ++ rest })
    (hstack : w.machine.stack = .flushTlsOutput :: rest)
    (hexec : w.machine.conn.flushTlsOutput input = some (c, more)) :
    Held files
      { machine := { w.machine with conn := c, stack := more ++ rest }
        storage := w.storageAfter input { w.machine with conn := c, stack := more ++ rest }
        calls := w.callsAfter input
        pending := w.pendingAfter files input } := by
  have hhead : w.machine.stack.head? = some .flushTlsOutput := by rw [hstack]; rfl
  have hbelow : .handlePlainWrite ∉ rest := by
    have hplain := h.plain
    rw [hstack, List.mem_cons, not_or] at hplain
    exact hplain.2
  have hpending : ∀ write, w.pendingAfter files input = some write → Flushes w.storage write := by
    intro write hwrite
    rcases pendingAfter_flush hhead hwrite with hwrite | hwrite
    · exact h.pending write hwrite
    · exact flushes_flushWrite hwrite
  have hkept : (∀ count, input ≠ .wrote count) → c.outputBuffer = w.machine.conn.outputBuffer →
      c.tls = w.machine.conn.tls → .handlePlainWrite ∉ more →
      Held files
        { machine := { w.machine with conn := c, stack := more ++ rest }
          storage := w.storageAfter input { w.machine with conn := c, stack := more ++ rest }
          calls := w.callsAfter input
          pending := w.pendingAfter files input } := by
    intro hinput hbuffer htls hplain
    refine h.unbuffered hordered hbuffer htls ?_ hpending ?_ _
    · exact fun hin => (List.mem_append.mp hin).elim hplain hbelow
    · unfold storageAfter
      split
      · exact absurd rfl (hinput _)
      · exact absurd rfl (hinput _)
      · rfl
  unfold TcpConnection.flushTlsOutput at hexec
  split at hexec
  · obtain ⟨rfl, hvalue⟩ := proceed_eq_some hexec
    cases hvalue
    exact hkept (by simp) rfl rfl (by simp)
  split at hexec
  · obtain ⟨rfl, hvalue⟩ := proceed_eq_some hexec
    cases hvalue
    exact hkept (by simp) rfl rfl (by simp)
  rename_i hready hsome
  cases input with
  | wrote count =>
    simp only at hexec
    split at hexec <;> cases hexec
    rename_i htakes
    obtain ⟨⟨-, hcount⟩, -⟩ := takes_iff.mp htakes
    have hretrieve := w.storage.readableBytes_retrieve (hcount.trans_eq h.readable.symm)
    -- a write that has been made is not to be repeated
    have hissue : w.issue files = w.flushWrite := by
      unfold issue
      rw [hhead]
    have hreadable : 0 < w.storage.readableBytes := by
      rw [h.readable]
      exact List.length_pos_iff.mpr hsome
    have hflush : w.flushWrite ≠ none := by
      rw [not_or, not_or, Bool.not_eq_false, Bool.not_eq_false] at hready
      simp [flushWrite, hready.1, hready.2.1, hready.2.2, hreadable]
    have hdone : w.pendingAfter files (.wrote count : Input Callback Outcome Task) = none := by
      unfold pendingAfter
      rw [hissue]
      cases hwrite : w.flushWrite with
      | none => exact absurd hwrite hflush
      | some write => rfl
    have hstorage : w.storageAfter (.wrote count : Input Callback Outcome Task)
        { w.machine with conn := w.machine.conn.emit count, stack := [.flushTlsOutput] ++ rest } =
          w.storage.retrieve count := by
      unfold storageAfter
      rw [hhead]
    refine ⟨hordered, h.secure, ?_, ?_, fun write hwrite => ?_⟩
    · simpa using hbelow
    · rw [hstorage, hretrieve, h.readable]
      exact (List.length_drop ..).symm
    · dsimp only at hwrite
      rw [hdone] at hwrite
      cases hwrite
  | wantWrite | wantRead | interrupted | failed =>
    cases hexec
    exact hkept (by simp) rfl rfl (by simp)
  | _ => cases hexec

theorem Held.next (h : Held files w) (hplace : w.InPlace files user input)
    (hnext : w.next files user input = some w') : Held files w' := by
  obtain ⟨m, hm, rfl⟩ := Option.map_eq_some_iff.mp hnext
  have hordered : Machine.Ordered files (fun _ => True) m :=
    h.ordered.next (fun _ _ => trivial) (fun _ _ _ _ => trivial) hm
  have hfits : w.pending ≠ none → w.storage.Fits (w.growth m) := fun hpending =>
    hplace.append hpending m hm
  -- steps after which the buffer is as it was and no flush was tried
  have hkept : w.machine.stack.head? ≠ some .flushTlsOutput →
      m.conn.outputBuffer = w.machine.conn.outputBuffer → m.conn.tls = w.machine.conn.tls →
      .handlePlainWrite ∉ m.stack →
      Held files
        { machine := m
          storage := w.storageAfter input m
          calls := w.callsAfter input
          pending := w.pendingAfter files input } := by
    intro hhead hbuffer htls hplain
    refine h.unbuffered hordered hbuffer htls hplain
      (fun write hwrite => h.pending write (pendingAfter_subset hplace hhead hwrite)) ?_ _
    refine storageAfter_append hhead fun hwrite => ?_
    exact h.plain (List.mem_of_mem_head? hwrite)
  cases Machine.next_cases hm with
  | post call =>
    obtain ⟨hbuffer, htls, -⟩ := unbuffered_post (c := w.machine.conn) call
    refine h.unbuffered hordered hbuffer htls h.plain (fun write hwrite => ?_) ?_ _
    · exact h.pending write (by rwa [pendingAfter_other rfl] at hwrite)
    · exact storageAfter_other rfl
  | background task =>
    obtain ⟨hbuffer, htls, -⟩ := unbuffered_postAll
      (user.background task w.machine.conn.connected w.machine.owner).2 w.machine.conn
    refine h.unbuffered hordered hbuffer htls h.plain (fun write hwrite => ?_) ?_ _
    · exact h.pending write (by rwa [pendingAfter_other rfl] at hwrite)
    · exact storageAfter_other rfl
  | wake _ c more hidle hwake =>
    obtain ⟨hbuffer, htls, hplain⟩ := wake_unbuffered hwake
    exact hkept (by simp [hidle]) hbuffer htls (hplain h.secure)
  | complete _ unit rest _ hstack hcomplete =>
    obtain ⟨more, hcalls, hconn, hstack'⟩ := Machine.complete_cases hcomplete
    refine hkept (by simp [hstack]) (by rw [hconn]) (by rw [hconn]) ?_
    have hplain := h.plain
    rw [hstack, List.mem_cons, not_or] at hplain
    rw [hstack']
    rcases hcalls with rfl | ⟨calls, rfl⟩
    · exact hplain.2
    · simpa using hplain.2
  | exec _ code rest more c hstack hexec =>
    have hbelow : .handlePlainWrite ∉ rest ∧ code ≠ .handlePlainWrite := by
      have hplain := h.plain
      rw [hstack, List.mem_cons, not_or] at hplain
      exact ⟨hplain.2, Ne.symm hplain.1⟩
    have hstill : .handlePlainWrite ∉ more → .handlePlainWrite ∉ more ++ rest :=
      fun hmore hin => (List.mem_append.mp hin).elim hmore hbelow.1
    by_cases hcode : code.buffers = false
    · obtain ⟨hbuffer, htls, hplain⟩ := (exec_frame hexec).unbuffered hcode
      refine hkept ?_ hbuffer htls (hstill (hplain h.secure))
      rw [hstack]
      rintro ⟨⟩
      cases hcode
    cases code with
    | sendInLoop text =>
      obtain ⟨htls, ⟨added, hbuffer⟩, hplain⟩ := (sendInLoop_cases hexec).grows
      exact h.grows hordered (by simp [issue, hstack]) (by simp [hstack]) hbuffer htls
        (hstill hplain) hfits _
    | sendHeader frame =>
      obtain ⟨⟨sent, code⟩, hsent, heq⟩ := Option.map_eq_some_iff.mp hexec
      cases heq
      obtain ⟨htls, ⟨added, hbuffer⟩, hplain⟩ := (sendInLoop_cases hsent).grows
      exact h.grows hordered (by simp [issue, hstack]) (by simp [hstack]) hbuffer htls
        (hstill (by simpa using hplain)) hfits _
    | flushTlsOutput => exact h.exec_flush hordered hstack hexec
    | handlePlainWrite => exact absurd rfl hbelow.2
    | _ => exact absurd rfl hcode

/-- **What is written again is written from the same place.** In a run in which no write of a file is
turned away and no text moves a buffer that is being flushed, every `SSL_write` repeats the one
before it where that has to be repeated. -/
theorem ssl_writes_repeated_in_place {ktls : Bool} {owner : Owner}
    {inputs : List (Input Callback Outcome Task)}
    (hrun : Run (fun w input => next w files user input) (fun w input => w.InPlace files user input)
      (fresh ktls owner) inputs w) : w.Obeys files :=
  (hrun.invariant (Held files) (fun _ _ _ h hplace hnext => h.next hplace hnext)
    (held_fresh ktls owner)).obeys

def inPlace (files : Bytes → Bytes) (user : User Callback Owner Outcome Task)
    (w : TlsWriter Callback Owner) (input : Input Callback Outcome Task) : Bool :=
  (match w.issue files with
    | some ⟨.stack _, _⟩ => false
    | _ => true) &&
  (w.pending.isNone ||
    (w.machine.next files user input).all fun machine => decide (w.storage.Fits (w.growth machine)))

theorem inPlace_of_test (w : TlsWriter Callback Owner) (input : Input Callback Outcome Task)
    (h : inPlace files user w input = true) : w.InPlace files user input := by
  obtain ⟨hfile, happend⟩ := Bool.and_eq_true_iff.mp h
  refine ⟨fun call length hissue => ?_, fun hpending machine hnext => ?_⟩
  · rw [hissue] at hfile
    cases hfile
  · rw [hnext] at happend
    rcases Bool.or_eq_true_iff.mp happend with hnone | hfits
    · exact absurd (Option.isNone_iff_eq_none.mp hnone) hpending
    · exact of_decide_eq_true hfits

def blockedText (message : Bytes) : List (Input Unit Unit Unit) :=
  [.connectEstablished, .handshaken, .calls [], .run, .run, .sslPending false,
    .call (.send message none), .run, .wantWrite]

theorem ssl_writes_repeated_two_lines :
    ∃ w, Run (fun w input => next w (fun _ => []) passive input)
        (fun w input => w.InPlace (fun _ => []) passive input) (fresh false ())
        (blockedText (utf8 "one\n") ++ [.call (.send (utf8 "two\n") none), .run]) w ∧
      w.pending = some ⟨.output 0 8, 4⟩ ∧ w.issue (fun _ => []) = some ⟨.output 0 8, 8⟩ ∧
      w.Obeys (fun _ => []) := by
  have hreplay : (replay (fun w input => next w (fun _ => []) passive input)
      (inPlace (fun _ => []) passive) (fresh false ())
      (blockedText (utf8 "one\n") ++ [.call (.send (utf8 "two\n") none), .run])).any (fun w =>
        decide (w.pending = some ⟨.output 0 8, 4⟩ ∧
          w.issue (fun _ => []) = some ⟨.output 0 8, 8⟩)) = true := by
    decide +kernel
  obtain ⟨w, hrun, htest⟩ := replay_reaches inPlace_of_test hreplay
  obtain ⟨hpending, hissue⟩ := of_decide_eq_true htest
  exact ⟨w, hrun, hpending, hissue, ssl_writes_repeated_in_place hrun⟩

def blockedFile : List (Input Unit Unit Unit) :=
  [.connectEstablished, .handshaken, .calls [], .run, .run, .sslPending false,
    .call (.sendFileFrame (utf8 "FILE_DATA\n") (utf8 "f") 0 3 none), .opened, .run, .wrote 10, .run,
    .run, .run, .wantWrite]

/-- **A write is repeated elsewhere.** A hundred bytes are appended behind a thousand that the socket
has not taken, and the vector takes new memory; the bytes of a file are read again into the array of
another call. -/
theorem ssl_write_repeated_elsewhere :
    (∃ w, Run (fun w input => next w (fun _ => []) passive input) anyStep (fresh false ())
        (blockedText (List.replicate 1000 97) ++
          [.call (.send (List.replicate 100 97) none), .run]) w ∧
      w.pending = some ⟨.output 0 8, 1000⟩ ∧
      w.issue (fun _ => []) = some ⟨.output 1 8, 1100⟩ ∧ ¬w.Obeys (fun _ => [])) ∧
    ∃ w, Run (fun w input => next w (fun _ => [1, 2, 3]) passive input) anyStep (fresh false ())
        (blockedFile ++ [.writable, .run]) w ∧
      w.pending = some ⟨.stack 1, 3⟩ ∧ w.issue (fun _ => [1, 2, 3]) = some ⟨.stack 2, 3⟩ ∧
      ¬w.Obeys (fun _ => [1, 2, 3]) := by
  have htext : (replay (fun w input => next w (fun _ => []) passive input) (fun _ _ => true)
      (fresh false ()) (blockedText (List.replicate 1000 97) ++
        [.call (.send (List.replicate 100 97) none), .run])).any (fun w =>
          decide (w.pending = some ⟨.output 0 8, 1000⟩ ∧
            w.issue (fun _ => []) = some ⟨.output 1 8, 1100⟩ ∧ ¬w.Obeys (fun _ => []))) = true := by
    decide +kernel
  have hfile : (replay (fun w input => next w (fun _ => [1, 2, 3]) passive input) (fun _ _ => true)
      (fresh false ()) (blockedFile ++ [.writable, .run])).any (fun w =>
        decide (w.pending = some ⟨.stack 1, 3⟩ ∧
          w.issue (fun _ => [1, 2, 3]) = some ⟨.stack 2, 3⟩ ∧
          ¬w.Obeys (fun _ => [1, 2, 3]))) = true := by
    decide +kernel
  obtain ⟨w, hrun, htest⟩ := replay_reaches (fun _ _ _ => trivial) htext
  obtain ⟨w', hrun', htest'⟩ := replay_reaches (fun _ _ _ => trivial) hfile
  exact ⟨⟨w, hrun, of_decide_eq_true htest⟩, w', hrun', of_decide_eq_true htest'⟩

end TlsWriter

end ChatRoom.Net
