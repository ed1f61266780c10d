import Mathlib.Data.List.Basic
import Mathlib.Data.List.DropRight
import Mathlib.Tactic.IntervalCases

/-!
# Byte strings and the text protocol

`std::string` is a list of bytes. The classification functions are those of the C locale, which is
in effect throughout.
-/

namespace ChatRoom

variable {word first : Bytes} {value : Nat}

abbrev Bytes := List UInt8

/-- A property of the bytes of a text is checked byte by byte, not for all 256 bytes. -/
instance (priority := high) {p : UInt8 → Prop} [DecidablePred p] (text : Bytes) :
    Decidable (∀ c ∈ text, p c) := List.decidableBAll p text

/-- The bytes of a string literal of the source, which is encoded in UTF-8. -/
def utf8 (text : String) : Bytes := text.toList.flatMap String.utf8EncodeChar

def newline : UInt8 := 10

def carriageReturn : UInt8 := 13

def space : UInt8 := 32

def isSpace (c : UInt8) : Bool := c = 32 || (9 ≤ c && c ≤ 13)

def isDigit (c : UInt8) : Bool := 48 ≤ c && c ≤ 57

def isUpper (c : UInt8) : Bool := 65 ≤ c && c ≤ 90

def isLower (c : UInt8) : Bool := 97 ≤ c && c ≤ 122

def isAlnum (c : UInt8) : Bool := isDigit c || isUpper c || isLower c

def isXDigit (c : UInt8) : Bool := isDigit c || (65 ≤ c && c ≤ 70) || (97 ≤ c && c ≤ 102)

def isCntrl (c : UInt8) : Bool := c < 32 || c = 127

def toUpper (c : UInt8) : UInt8 := if isLower c then c - 32 else c

def toLower (c : UInt8) : UInt8 := if isUpper c then c + 32 else c

def trim (text : Bytes) : Bytes := (text.dropWhile isSpace).rdropWhile isSpace

def toUpperAscii (text : Bytes) : Bytes := text.map toUpper

/-- The separators of `find_first_of(" \t")`. -/
def isBlank (c : UInt8) : Bool := c = 32 || c = 9

structure Command where
  name : Bytes
  rawArguments : Bytes
  deriving DecidableEq, Repr

def parseCommand (line : Bytes) : Command :=
  let cleaned := trim line
  { name := toUpperAscii (cleaned.takeWhile fun c => !isBlank c)
    rawArguments := trim ((cleaned.dropWhile fun c => !isBlank c).drop 1) }

def splitWordsFrom (word : Bytes) : Bytes → List Bytes
  | [] => if word.isEmpty then [] else [word]
  | c :: rest =>
    if isSpace c then
      if word.isEmpty then splitWordsFrom [] rest else word :: splitWordsFrom [] rest
    else
      splitWordsFrom (word ++ [c]) rest

def splitWords (text : Bytes) : List Bytes := splitWordsFrom [] text

def splitFirstToken (text : Bytes) : Option (Bytes × Bytes) :=
  let cleaned := trim text
  let first := cleaned.takeWhile fun c => !isBlank c
  let remaining := cleaned.dropWhile fun c => !isBlank c
  if remaining.isEmpty then
    none
  else
    let rest := trim (remaining.drop 1)
    if first.isEmpty || rest.isEmpty then none else some (first, rest)

/-- The value of a digit string read so far as `value`; `none` at a byte that is not a digit. -/
def digitsValue (value : Nat) : Bytes → Option Nat
  | [] => some value
  | c :: rest => if isDigit c then digitsValue (value * 10 + (c.toNat - 48)) rest else none

/-- `std::from_chars` into a `std::uint64_t`, which has to consume the whole text. -/
def parseUint64Value (text : Bytes) : Option Nat :=
  if text.isEmpty then
    none
  else
    match digitsValue 0 text with
    | some value => if value < 2 ^ 64 then some value else none
    | none => none

def parseCount (text : Bytes) (minimum maximum : Nat) : Option Nat :=
  (parseUint64Value text).filter fun value => minimum ≤ value && value ≤ maximum

def decimal (value : Nat) : Bytes := (Nat.toDigits 10 value).map fun c => c.toNat.toUInt8

/-! ### Numbers survive the wire -/

theorem digitsValue_append (value : Nat) (left right : Bytes) :
    digitsValue value (left ++ right) = (digitsValue value left).bind fun v => digitsValue v right := by
  induction left generalizing value with
  | nil => rfl
  | cons c left ih =>
    simp only [List.cons_append, digitsValue]
    split
    · exact ih _
    · rfl

theorem isDigit_digitChar {digit : Nat} (hdigit : digit < 10) :
    isDigit (Nat.digitChar digit).toNat.toUInt8 = true ∧
      (Nat.digitChar digit).toNat.toUInt8.toNat - 48 = digit := by
  interval_cases digit <;> decide

theorem decimal_of_lt (hvalue : value < 10) :
    decimal value = [(Nat.digitChar value).toNat.toUInt8] := by
  simp [decimal, Nat.toDigits_of_lt_base hvalue]

theorem decimal_of_le (hvalue : 10 ≤ value) :
    decimal value = decimal (value / 10) ++ [(Nat.digitChar (value % 10)).toNat.toUInt8] := by
  simp [decimal, Nat.toDigits_of_base_le (by decide : 1 < 10) hvalue]

theorem digitsValue_decimal (value : Nat) : digitsValue 0 (decimal value) = some value := by
  induction value using Nat.strong_induction_on with
  | _ value ih =>
    by_cases hvalue : value < 10
    · obtain ⟨hdigit, hback⟩ := isDigit_digitChar hvalue
      simp only [decimal_of_lt hvalue, digitsValue, hdigit, if_true, hback, Nat.zero_mul, Nat.zero_add]
    · obtain ⟨hdigit, hback⟩ := isDigit_digitChar (Nat.mod_lt value (by decide : 0 < 10))
      rw [decimal_of_le (by omega), digitsValue_append, ih (value / 10) (by omega)]
      simp only [Option.bind_some, digitsValue, hdigit, if_true, hback]
      congr 1
      omega

theorem decimal_ne_nil (value : Nat) : decimal value ≠ [] := by
  simp [decimal, Nat.toDigits_ne_nil]

theorem isDigit_of_mem_decimal {c : UInt8} (hmem : c ∈ decimal value) :
    isDigit c = true := by
  induction value using Nat.strong_induction_on with
  | _ value ih =>
    by_cases hvalue : value < 10
    · rw [decimal_of_lt hvalue, List.mem_singleton] at hmem
      exact hmem ▸ (isDigit_digitChar hvalue).1
    · rw [decimal_of_le (by omega), List.mem_append, List.mem_singleton] at hmem
      rcases hmem with hmem | hmem
      · exact ih (value / 10) (by omega) hmem
      · exact hmem ▸ (isDigit_digitChar (Nat.mod_lt value (by decide))).1

/-- **Numbers round trip.** A 64-bit number that is printed is parsed back. -/
theorem parseUint64Value_decimal (hvalue : value < 2 ^ 64) :
    parseUint64Value (decimal value) = some value := by
  have hne : (decimal value).isEmpty = false := by simp [decimal_ne_nil]
  rw [parseUint64Value, hne, digitsValue_decimal]
  exact if_pos hvalue

/-! ### Words survive the wire -/

/-- Something that `operator>>` reads as one word. -/
structure IsWord (word : Bytes) : Prop where
  ne_nil : word ≠ []
  no_space : ∀ c ∈ word, isSpace c = false

theorem isWord_decimal (value : Nat) : IsWord (decimal value) where
  ne_nil := decimal_ne_nil value
  no_space := by
    intro c hmem
    have hdigit := isDigit_of_mem_decimal hmem
    simp only [isDigit, Bool.and_eq_true, decide_eq_true_eq] at hdigit
    simp only [isSpace, Bool.or_eq_false_iff, decide_eq_false_iff_not, Bool.and_eq_false_iff]
    obtain ⟨hlow, hhigh⟩ := hdigit
    rw [UInt8.le_iff_toNat_le] at hlow hhigh
    rw [UInt8.le_iff_toNat_le, UInt8.le_iff_toNat_le, ← UInt8.toNat_inj]
    have h32 : (32 : UInt8).toNat = 32 := rfl
    have h48 : (48 : UInt8).toNat = 48 := rfl
    have h13 : (13 : UInt8).toNat = 13 := rfl
    omega

theorem splitWordsFrom_append (hword : ∀ c ∈ word, isSpace c = false) (read rest : Bytes) :
    splitWordsFrom read (word ++ rest) = splitWordsFrom (read ++ word) rest := by
  induction word generalizing read with
  | nil => rw [List.nil_append, List.append_nil]
  | cons c word ih =>
    have hspace : ¬isSpace c = true := by simp [hword c List.mem_cons_self]
    rw [List.cons_append, splitWordsFrom, if_neg hspace,
      ih (fun c hmem => hword c (List.mem_cons_of_mem _ hmem)), List.append_assoc,
      List.singleton_append]

theorem splitWords_cons (hword : IsWord word) (rest : Bytes) :
    splitWords (word ++ space :: rest) = word :: splitWords rest := by
  have hne : word.isEmpty = false := by simp [hword.ne_nil]
  rw [splitWords, splitWordsFrom_append hword.no_space, List.nil_append, splitWordsFrom,
    if_pos (by decide), hne]
  rfl

theorem splitWords_word (hword : IsWord word) : splitWords word = [word] := by
  have hne : word.isEmpty = false := by simp [hword.ne_nil]
  have hsplit := splitWordsFrom_append hword.no_space [] []
  rw [List.append_nil, List.nil_append, splitWordsFrom, hne] at hsplit
  exact hsplit

theorem trim_words {last : Bytes} (hfirst : IsWord first) (hlast : IsWord last) (middle : Bytes) :
    trim (first ++ middle ++ last) = first ++ middle ++ last := by
  have hleft : (first ++ middle ++ last).dropWhile isSpace = first ++ middle ++ last := by
    obtain ⟨c, rest, rfl⟩ := List.exists_cons_of_ne_nil hfirst.ne_nil
    simp [hfirst.no_space c List.mem_cons_self]
  obtain ⟨front, c, hback⟩ := List.eq_nil_or_concat last |>.resolve_left hlast.ne_nil
  have hspace : ¬isSpace c = true := by simp [hlast.no_space c (by simp [hback])]
  rw [trim, hleft, hback, List.concat_eq_append, ← List.append_assoc,
    List.rdropWhile_concat_neg _ _ _ hspace]

theorem trim_word (hword : IsWord word) : trim word = word := by
  have hhead : word.dropWhile isSpace = word := by
    obtain ⟨c, rest, rfl⟩ := List.exists_cons_of_ne_nil hword.ne_nil
    simp [hword.no_space c List.mem_cons_self]
  obtain ⟨front, c, hback⟩ := List.eq_nil_or_concat word |>.resolve_left hword.ne_nil
  have hspace : ¬isSpace c = true := by simp [hword.no_space c (by simp [hback])]
  rw [trim, hhead, hback, List.concat_eq_append, List.rdropWhile_concat_neg _ _ _ hspace]

theorem takeWhile_word (hword : IsWord word) (rest : Bytes) :
    (word ++ space :: rest).takeWhile (fun c => !isBlank c) = word ∧
      (word ++ space :: rest).dropWhile (fun c => !isBlank c) = space :: rest := by
  have hblank : ∀ c ∈ word, (!isBlank c) = true := by
    intro c hmem
    have hspace := hword.no_space c hmem
    simp only [isSpace, Bool.or_eq_false_iff, decide_eq_false_iff_not, Bool.and_eq_false_iff] at hspace
    simp only [isBlank, Bool.not_eq_true', Bool.or_eq_false_iff, decide_eq_false_iff_not]
    refine ⟨hspace.1, ?_⟩
    rintro rfl
    exact absurd hspace.2 (by decide)
  have hend : (!isBlank space) = false := by decide
  rw [List.takeWhile_append_of_pos hblank, List.dropWhile_append_of_pos hblank,
    List.takeWhile_cons_of_neg (by simp [hend]), List.dropWhile_cons_of_neg (by simp [hend]),
    List.append_nil]
  exact ⟨rfl, rfl⟩

/-- **Commands round trip.** A command name and arguments that begin and end with a word are parsed
back from the line that is made of them. -/
theorem parseCommand_line {name middle last : Bytes} (hname : IsWord name) (hfirst : IsWord first)
    (hlast : IsWord last) :
    parseCommand (name ++ space :: (first ++ middle ++ last)) =
      ⟨toUpperAscii name, first ++ middle ++ last⟩ := by
  have hcleaned : trim (name ++ space :: (first ++ middle ++ last)) =
      name ++ space :: (first ++ middle ++ last) := by
    have htrim := trim_words hname hlast (space :: (first ++ middle))
    simpa using htrim
  obtain ⟨htake, hdrop⟩ := takeWhile_word hname (first ++ middle ++ last)
  rw [parseCommand, hcleaned, htake, hdrop, List.drop_one, List.tail_cons,
    trim_words hfirst hlast middle]

theorem splitFirstToken_words {second : Bytes} (hfirst : IsWord first) (hsecond : IsWord second) :
    splitFirstToken (first ++ space :: second) = some (first, second) := by
  have hcleaned : trim (first ++ space :: second) = first ++ space :: second := by
    simpa using trim_words hfirst hsecond [space]
  obtain ⟨htake, hdrop⟩ := takeWhile_word hfirst second
  have hfirstEmpty : first.isEmpty = false := by simp [hfirst.ne_nil]
  have hsecondEmpty : second.isEmpty = false := by simp [hsecond.ne_nil]
  simp only [splitFirstToken, hcleaned, htake, hdrop, List.isEmpty_cons, List.drop_one,
    List.tail_cons, trim_word hsecond, hfirstEmpty, hsecondEmpty, Bool.or_self, if_false,
    Bool.false_eq_true]

end ChatRoom
