import Mathlib.Data.List.Basic

/-!
# Valid UTF-8

A byte string is valid if it is a sequence of encoded scalar values. The validator reads it byte by
byte.
-/

namespace Utf8

def lead (c : UInt8) : Option (Nat × UInt8 × UInt8) :=
  if c ≤ 0x7F then some (0, 0x80, 0xBF)
  else if 0xC2 ≤ c ∧ c ≤ 0xDF then some (1, 0x80, 0xBF)
  else if c = 0xE0 then some (2, 0xA0, 0xBF)
  else if c = 0xED then some (2, 0x80, 0x9F)
  else if 0xE1 ≤ c ∧ c ≤ 0xEF then some (2, 0x80, 0xBF)
  else if c = 0xF0 then some (3, 0x90, 0xBF)
  else if 0xF1 ≤ c ∧ c ≤ 0xF3 then some (3, 0x80, 0xBF)
  else if c = 0xF4 then some (3, 0x80, 0x8F)
  else none

def isValidFrom : Nat → UInt8 → UInt8 → List UInt8 → Bool
  | owed, _, _, [] => owed = 0
  | 0, _, _, c :: rest =>
    match lead c with
    | some (owed, low, high) => isValidFrom owed low high rest
    | none => false
  | owed + 1, low, high, c :: rest =>
    low ≤ c && c ≤ high && isValidFrom owed 0x80 0xBF rest

def isValid (text : List UInt8) : Bool := isValidFrom 0 0x80 0xBF text

theorem isValid_of_ascii {text : List UInt8} (hascii : ∀ c ∈ text, c ≤ 0x7F) :
    isValid text = true := by
  induction text with
  | nil => rfl
  | cons c rest ih =>
    have hlead : lead c = some (0, 0x80, 0xBF) := if_pos (hascii c List.mem_cons_self)
    rw [isValid, isValidFrom, hlead]
    exact ih fun c hmem => hascii c (List.mem_cons_of_mem _ hmem)

example : isValid [0xE4, 0xBD, 0xA0] = true := by decide

example : isValid [0xED, 0xA0, 0x80] = false := by decide

end Utf8
