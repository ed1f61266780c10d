import ChatRoom.Lib.MixedStream
import ChatRoom.Text

/-!
# The upload loop of the client

`send_upload_data` runs after `FILE_READY` and sends the rest of the file in frames, a header line
and the raw data each, without waiting for an answer.
-/

namespace ChatRoom

open MixedStream

variable {offset : Nat}

def kFileFrameBytes : Nat := 16 * 1024 * 1024

def uploadFrameSize (fileSize offset : Nat) : Nat := min (fileSize - offset) kFileFrameBytes

def fileChunkLine (token : Bytes) (offset frameSize : Nat) : Bytes :=
  utf8 "FILE_CHUNK " ++ token ++ utf8 " " ++ decimal offset ++ utf8 " " ++ decimal frameSize ++
    utf8 "\n"

def fileEndLine (token : Bytes) : Bytes := utf8 "FILE_END " ++ token ++ utf8 "\n"

/-- What the loop sends: the bytes of a file, in frames that name the token of the upload. -/
structure UploadStream where
  token : Bytes
  content : Bytes

namespace UploadStream

variable (upload : UploadStream)

def fileSize : Nat := upload.content.length

def frameSize (offset : Nat) : Nat := uploadFrameSize upload.fileSize offset

def chunkLine (offset : Nat) : Bytes := fileChunkLine upload.token offset (upload.frameSize offset)

def endLine : Bytes := fileEndLine upload.token

theorem chunkLine_ne_nil (offset : Nat) : upload.chunkLine offset ≠ [] := by
  simp [chunkLine, fileChunkLine, utf8]

def frame (offset : Nat) : Bytes := (upload.content.drop offset).take (upload.frameSize offset)

theorem frameSize_pos (hoffset : offset < upload.fileSize) :
    0 < upload.frameSize offset :=
  lt_min (Nat.sub_pos_of_lt hoffset) (by decide)

theorem length_frame (offset : Nat) : (upload.frame offset).length = upload.frameSize offset := by
  rw [frame, List.length_take, List.length_drop]
  exact Nat.min_eq_left (Nat.min_le_left _ _)

def frames (offset : Nat) : List (MixedStream.Octet UInt8) :=
  if _ : offset < upload.fileSize then
    text (upload.chunkLine offset) ++ (rawData (upload.frame offset) ++
      frames (offset + upload.frameSize offset))
  else
    text upload.endLine
termination_by upload.fileSize - offset
decreasing_by
  have hpos := upload.frameSize_pos ‹offset < upload.fileSize›
  omega

def sendUploadData (startOffset : Nat) : List (MixedStream.Octet UInt8) :=
  if upload.fileSize < startOffset then [] else upload.frames startOffset

theorem frames_of_lt (hoffset : offset < upload.fileSize) :
    upload.frames offset = text (upload.chunkLine offset) ++ (rawData (upload.frame offset) ++
      upload.frames (offset + upload.frameSize offset)) := by
  rw [frames, dif_pos hoffset]

theorem frames_of_le (hoffset : upload.fileSize ≤ offset) :
    upload.frames offset = text upload.endLine := by
  rw [frames, dif_neg (Nat.not_lt.mpr hoffset)]

theorem frame_ne_nil (hoffset : offset < upload.fileSize) :
    upload.frame offset ≠ [] := by
  have hlength := upload.length_frame offset
  have hpos := upload.frameSize_pos hoffset
  intro hnil
  rw [hnil] at hlength
  simp only [List.length_nil] at hlength
  omega

end UploadStream

end ChatRoom
