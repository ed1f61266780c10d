import Mathlib.Order.Lattice

/-!
# The storage of a `Buffer`

`minimuduo/net/Buffer.cpp` without the bytes: where in its vector the readable ones lie, and when
they are moved. The asserts of the source are the bounds that a `Storage` carries and the argument
that `hasWritten` asks for.
-/

namespace ChatRoom.Net

def kCheapPrepend : Nat := 8

def kInitialSize : Nat := 1024

/-- Two states of a `Buffer` share the memory of its vector if they have the same `allocation`. -/
structure Storage where
  allocation : Nat
  capacity : Nat
  size : Nat
  readerIndex : Nat
  writerIndex : Nat
  prepend_le : kCheapPrepend ≤ readerIndex
  reader_le : readerIndex ≤ writerIndex
  writer_le : writerIndex ≤ size
  size_le : size ≤ capacity
  deriving DecidableEq

namespace Storage

def initial : Storage where
  allocation := 0
  capacity := kCheapPrepend + kInitialSize
  size := kCheapPrepend + kInitialSize
  readerIndex := kCheapPrepend
  writerIndex := kCheapPrepend
  prepend_le := le_rfl
  reader_le := le_rfl
  writer_le := Nat.le_add_right _ _
  size_le := le_rfl

variable (s : Storage)

def readableBytes : Nat := s.writerIndex - s.readerIndex

def writableBytes : Nat := s.size - s.writerIndex

def prependableBytes : Nat := s.readerIndex

def retrieveAll : Storage :=
  { s with
    readerIndex := kCheapPrepend
    writerIndex := kCheapPrepend
    prepend_le := le_rfl
    reader_le := le_rfl
    writer_le := s.prepend_le.trans (s.reader_le.trans s.writer_le) }

def retrieve (length : Nat) : Storage :=
  if h : length < s.readableBytes then
    { s with
      readerIndex := s.readerIndex + length
      prepend_le := s.prepend_le.trans (Nat.le_add_right _ _)
      reader_le := by unfold readableBytes at h; omega }
  else s.retrieveAll

/-- `buffer_.resize`. Beyond its capacity the vector takes new memory, as much more as it has bytes
or as it needs. -/
def resize (size : Nat) (hsize : s.writerIndex ≤ size) : Storage :=
  if h : size ≤ s.capacity then { s with size := size, writer_le := hsize, size_le := h }
  else
    { s with
      allocation := s.allocation + 1
      capacity := s.size + max s.size (size - s.size)
      size := size
      writer_le := hsize
      size_le := by omega }

def makeSpace (length : Nat) : Storage :=
  if s.writableBytes + s.prependableBytes < length + kCheapPrepend then
    s.resize (s.writerIndex + length) (Nat.le_add_right _ _)
  else
    { s with
      readerIndex := kCheapPrepend
      writerIndex := kCheapPrepend + s.readableBytes
      prepend_le := le_rfl
      reader_le := Nat.le_add_right _ _
      writer_le := by
        have hprepend := s.prepend_le
        have hreader := s.reader_le
        have hwriter := s.writer_le
        unfold readableBytes
        omega }

def ensureWritableBytes (length : Nat) : Storage :=
  if s.writableBytes < length then s.makeSpace length else s

theorem le_writableBytes_ensure (length : Nat) :
    length ≤ (s.ensureWritableBytes length).writableBytes := by
  unfold ensureWritableBytes
  split
  · unfold makeSpace
    split
    · unfold resize
      split <;> simp [writableBytes]
    · rename_i hroom
      have hprepend := s.prepend_le
      have hreader := s.reader_le
      have hwriter := s.writer_le
      simp only [writableBytes, prependableBytes, readableBytes] at hroom ⊢
      omega
  · rename_i hfits
    exact Nat.le_of_not_lt hfits

def hasWritten (length : Nat) (hlength : length ≤ s.writableBytes) : Storage :=
  { s with
    writerIndex := s.writerIndex + length
    reader_le := s.reader_le.trans (Nat.le_add_right _ _)
    writer_le := by
      have hwriter := s.writer_le
      unfold writableBytes at hlength
      omega }

def append (length : Nat) : Storage :=
  (s.ensureWritableBytes length).hasWritten length (s.le_writableBytes_ensure length)

theorem append_zero : s.append 0 = s := rfl

theorem readableBytes_ensure (length : Nat) :
    (s.ensureWritableBytes length).readableBytes = s.readableBytes := by
  unfold ensureWritableBytes
  split
  · unfold makeSpace
    split
    · unfold resize
      split <;> rfl
    · exact Nat.add_sub_cancel_left _ _
  · rfl

theorem readableBytes_append (length : Nat) :
    (s.append length).readableBytes = s.readableBytes + length := by
  have hreader := (s.ensureWritableBytes length).reader_le
  have hensure := s.readableBytes_ensure length
  simp only [append, hasWritten, readableBytes] at hensure ⊢
  omega

theorem readableBytes_retrieve {length : Nat} (hlength : length ≤ s.readableBytes) :
    (s.retrieve length).readableBytes = s.readableBytes - length := by
  unfold retrieve
  split
  · simp only [readableBytes]
    omega
  · simp only [retrieveAll, readableBytes] at *
    omega

/-- So many bytes can be appended without moving those that are there. -/
def Fits (length : Nat) : Prop :=
  length ≤ s.writableBytes ∨
    (s.writableBytes + s.prependableBytes < length + kCheapPrepend ∧
      s.writerIndex + length ≤ s.capacity)

instance (length : Nat) : Decidable (s.Fits length) := inferInstanceAs (Decidable (_ ∨ _))

theorem append_fits {length : Nat} (hfits : s.Fits length) :
    (s.append length).allocation = s.allocation ∧
      (s.append length).readerIndex = s.readerIndex := by
  simp only [append, hasWritten]
  unfold ensureWritableBytes
  split
  · rename_i hfull
    obtain ⟨hgrows, hcapacity⟩ := hfits.resolve_left (Nat.not_le_of_lt hfull)
    unfold makeSpace
    rw [if_pos hgrows]
    unfold resize
    rw [dif_pos hcapacity]
    exact ⟨rfl, rfl⟩
  · exact ⟨rfl, rfl⟩

end Storage

end ChatRoom.Net
