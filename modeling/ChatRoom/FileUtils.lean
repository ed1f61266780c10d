import ChatRoom.Text

/-!
# The helpers of `file_utils.cpp`

Percent coding of text tokens, the cleaning of file names and the format checks of transfer tokens
and digests.
-/

namespace ChatRoom

def percentSign : UInt8 := 37

def isUnreserved (c : UInt8) : Bool := isAlnum c || c = 45 || c = 95 || c = 46 || c = 126

def hexDigit (value : UInt8) : UInt8 := if value < 10 then 48 + value else 55 + value

def percentEncode (text : Bytes) : Bytes :=
  text.flatMap fun c =>
    if isUnreserved c then [c] else [percentSign, hexDigit (c >>> 4), hexDigit (c &&& 15)]

def hexValue (c : UInt8) : Option UInt8 :=
  if 48 ≤ c && c ≤ 57 then
    some (c - 48)
  else if 97 ≤ c && c ≤ 102 then
    some (10 + c - 97)
  else if 65 ≤ c && c ≤ 70 then
    some (10 + c - 65)
  else
    none

def percentDecode : Bytes → Except Bytes Bytes
  | [] => .ok []
  | c :: rest =>
    if c = percentSign then
      match rest with
      | high :: low :: rest =>
        match hexValue high, hexValue low with
        | some high, some low => (percentDecode rest).map ((high <<< 4 ||| low) :: ·)
        | _, _ => .error (utf8 "百分号编码无效")
      | _ => .error (utf8 "百分号编码不完整")
    else
      (percentDecode rest).map (c :: ·)

theorem forall_byte {P : UInt8 → Prop} (h : ∀ value : Fin 256, P (UInt8.ofFin value)) (c : UInt8) :
    P c := h c.toFin

theorem isUnreserved_hexDigit : ∀ c : UInt8, isUnreserved (hexDigit (c >>> 4)) = true ∧
    isUnreserved (hexDigit (c &&& 15)) = true :=
  forall_byte (by decide +kernel)

theorem mem_percentEncode {text : Bytes} {c : UInt8} (hmem : c ∈ percentEncode text) :
    isUnreserved c = true ∨ c = percentSign := by
  obtain ⟨byte, -, hc⟩ := List.mem_flatMap.mp hmem
  by_cases hbyte : isUnreserved byte = true
  · rw [if_pos hbyte, List.mem_singleton] at hc
    exact .inl (hc ▸ hbyte)
  · rw [if_neg hbyte] at hc
    simp only [List.mem_cons, List.not_mem_nil, or_false] at hc
    rcases hc with rfl | rfl | rfl
    · exact .inr rfl
    · exact .inl (isUnreserved_hexDigit byte).1
    · exact .inl (isUnreserved_hexDigit byte).2

theorem hexValue_hexDigit : ∀ c : UInt8, hexValue (hexDigit (c >>> 4)) = some (c >>> 4) ∧
    hexValue (hexDigit (c &&& 15)) = some (c &&& 15) ∧ (c >>> 4) <<< 4 ||| (c &&& 15) = c :=
  forall_byte (by decide +kernel)

theorem isUnreserved_ne_percentSign {c : UInt8} (hc : isUnreserved c = true) : c ≠ percentSign := by
  rintro rfl
  exact absurd hc (by decide)

theorem percentDecode_percentEncode (text : Bytes) :
    percentDecode (percentEncode text) = .ok text := by
  induction text with
  | nil => rfl
  | cons c text ih =>
    have hcons : percentEncode (c :: text) = (if isUnreserved c then [c] else
        [percentSign, hexDigit (c >>> 4), hexDigit (c &&& 15)]) ++ percentEncode text := rfl
    by_cases hc : isUnreserved c = true
    · rw [hcons, if_pos hc, List.singleton_append, percentDecode.eq_def]
      simp only [if_neg (isUnreserved_ne_percentSign hc), ih]
      rfl
    · obtain ⟨hhigh, hlow, hbyte⟩ := hexValue_hexDigit c
      rw [hcons, if_neg hc, List.cons_append, List.cons_append, List.cons_append, List.nil_append,
        percentDecode.eq_def]
      simp only [if_true, hhigh, hlow, ih, hbyte]
      rfl

theorem percentEncode_injective {left right : Bytes}
    (heq : percentEncode left = percentEncode right) : left = right := by
  have hdecoded := congrArg percentDecode heq
  rw [percentDecode_percentEncode, percentDecode_percentEncode] at hdecoded
  exact Except.ok.inj hdecoded

theorem newline_notMem_percentEncode {text : Bytes} : newline ∉ percentEncode text := by
  intro hmem
  rcases mem_percentEncode hmem with hunreserved | hpercent
  · exact absurd hunreserved (by decide)
  · exact absurd hpercent (by decide)

def percentDecodeInto (encoded text error : Bytes) : Bool × Bytes × Bytes :=
  match percentDecode encoded with
  | .ok decoded => (true, decoded, error)
  | .error reason => (false, text, reason)

/-- In a scan from the left, every percent sign that starts an escape is followed by two hexadecimal
digits. -/
inductive WellEscaped : Bytes → Prop where
  | nil : WellEscaped []
  | byte {c : UInt8} {rest : Bytes} (hc : c ≠ percentSign) (hrest : WellEscaped rest) :
      WellEscaped (c :: rest)
  | escape {high low : UInt8} {rest : Bytes} (hhigh : isXDigit high = true)
      (hlow : isXDigit low = true) (hrest : WellEscaped rest) :
      WellEscaped (percentSign :: high :: low :: rest)

theorem isSome_hexValue : ∀ c : UInt8, (hexValue c).isSome = isXDigit c :=
  forall_byte (by decide +kernel)

theorem wellEscaped_cons_iff {c : UInt8} {rest : Bytes} (hc : c ≠ percentSign) :
    WellEscaped (c :: rest) ↔ WellEscaped rest := by
  constructor
  · rintro (_ | ⟨-, hrest⟩ | _)
    · exact hrest
    · exact absurd rfl hc
  · exact .byte hc

theorem wellEscaped_escape_iff {high low : UInt8} {rest : Bytes} :
    WellEscaped (percentSign :: high :: low :: rest) ↔
      (isXDigit high = true ∧ isXDigit low = true) ∧ WellEscaped rest := by
  constructor
  · rintro (_ | ⟨hc, -⟩ | ⟨hhigh, hlow, hrest⟩)
    · exact absurd rfl hc
    · exact ⟨⟨hhigh, hlow⟩, hrest⟩
  · rintro ⟨⟨hhigh, hlow⟩, hrest⟩
    exact .escape hhigh hlow hrest

theorem percentDecode_isOk_iff (encoded : Bytes) :
    (percentDecode encoded).isOk = true ↔ WellEscaped encoded := by
  have hmap (byte : UInt8) (result : Except Bytes Bytes) :
      (result.map (byte :: ·)).isOk = result.isOk := by cases result <;> rfl
  induction encoded using percentDecode.induct with
  | case1 => exact iff_of_true rfl .nil
  | case2 high low rest highValue lowValue hlow hhigh ih =>
    rw [percentDecode.eq_def, wellEscaped_escape_iff, ← isSome_hexValue, ← isSome_hexValue]
    simp only [if_true, hhigh, hlow, hmap, ih, Option.isSome_some, and_self, true_and]
  | case3 high low rest hnone =>
    rw [percentDecode.eq_def, wellEscaped_escape_iff, ← isSome_hexValue, ← isSome_hexValue]
    cases hhigh : hexValue high with
    | none => simp [hhigh, Except.isOk, Except.toBool]
    | some highValue =>
      cases hlow : hexValue low with
      | none => simp [hhigh, hlow, Except.isOk, Except.toBool]
      | some lowValue => exact absurd hlow (hnone _ _ hhigh)
  | case4 rest hshort =>
    refine iff_of_false ?_ ?_
    · rw [percentDecode.eq_def]
      match rest, hshort with
      | [], _ => simp [Except.isOk, Except.toBool]
      | [_], _ => simp [Except.isOk, Except.toBool]
      | high :: low :: rest, hshort => exact absurd rfl (hshort high low rest)
    · rintro (_ | ⟨hc, -⟩ | _)
      · exact hc rfl
      · exact hshort _ _ _ rfl
  | case5 c rest hc ih =>
    rw [wellEscaped_cons_iff hc, percentDecode.eq_def]
    simp only [if_neg hc, hmap, ih]

theorem isUnreserved_cases : ∀ c : UInt8, isUnreserved c = true ∨ c = percentSign →
    (isAlnum c = true ∨ c ∈ utf8 "-_.~%") ∧ isSpace c = false :=
  forall_byte (by decide +kernel)

/-- **The percent codec.** What is encoded is decoded to the same bytes; the encoding has unreserved
bytes and percent signs only; what can be decoded is what is escaped properly, and a call that fails
does not touch its output. -/
theorem percent_codec (s e text error : Bytes) :
    percentDecodeInto (percentEncode s) text error = (true, s, error) ∧
      (∀ c ∈ percentEncode s, (isAlnum c = true ∨ c ∈ utf8 "-_.~%") ∧ isSpace c = false) ∧
      (percentEncode s = [] ↔ s = []) ∧
      ((percentDecodeInto e text error).1 = true ↔ WellEscaped e) ∧
      ((percentDecodeInto e text error).1 = false →
        (percentDecodeInto e text error).2.1 = text) := by
  refine ⟨?_, fun c hmem => ?_, ⟨fun hnil => ?_, ?_⟩, ?_, ?_⟩
  · rw [percentDecodeInto, percentDecode_percentEncode]
  · exact isUnreserved_cases c (mem_percentEncode hmem)
  · exact percentEncode_injective hnil
  · rintro rfl
    rfl
  · rw [← percentDecode_isOk_iff, percentDecodeInto]
    cases percentDecode e <;> simp [Except.isOk, Except.toBool]
  · rw [percentDecodeInto]
    cases percentDecode e <;> simp

/-- `std::filesystem::path::filename`: what follows the last slash. -/
def pathFilename (path : Bytes) : Bytes := path.rtakeWhile fun c => c ≠ 47

def sanitizeFilename (filename : Bytes) : Bytes :=
  let name := pathFilename filename
  if name.isEmpty || name = utf8 "." || name = utf8 ".." then
    utf8 "file.bin"
  else
    let cleaned := name.map fun c => if isAlnum c || c = 46 || c = 95 || c = 45 then c else 95
    let shortened := cleaned.take 180
    if shortened.isEmpty then utf8 "file.bin" else shortened

structure SafeName (name : Bytes) : Prop where
  ne_nil : name ≠ []
  ne_dot : name ≠ utf8 "."
  ne_dots : name ≠ utf8 ".."
  length_le : name.length ≤ 180
  bytes : ∀ c ∈ name, (isAlnum c || c = 46 || c = 95 || c = 45) = true

theorem SafeName.sanitizeFilename_eq {name : Bytes} (hsafe : SafeName name) :
    sanitizeFilename name = name := by
  have hslash : pathFilename name = name := by
    refine List.rtakeWhile_eq_self_iff.mpr fun c hmem => decide_eq_true fun hc => ?_
    exact absurd (hsafe.bytes c hmem) (by rw [hc]; decide)
  have hmap : (name.map fun c => if isAlnum c || c = 46 || c = 95 || c = 45 then c else 95) = name :=
    (List.map_congr_left fun c hmem => if_pos (hsafe.bytes c hmem)).trans (List.map_id' name)
  simp only [sanitizeFilename, hslash, hmap]
  rw [List.take_of_length_le hsafe.length_le,
    if_neg (by simp [hsafe.ne_nil, hsafe.ne_dot, hsafe.ne_dots]), if_neg (by simp [hsafe.ne_nil])]

theorem safeName_sanitizeFilename (filename : Bytes) : SafeName (sanitizeFilename filename) := by
  have hdefault : SafeName (utf8 "file.bin") := by constructor <;> decide
  unfold sanitizeFilename
  dsimp only
  split
  · exact hdefault
  · rename_i hname
    split
    · exact hdefault
    · rename_i hshort
      simp only [Bool.or_eq_true, List.isEmpty_iff, decide_eq_true_eq, not_or] at hname
      obtain ⟨⟨-, hdot⟩, hdots⟩ := hname
      -- Only a dot becomes a dot, and a name of one or two bytes is not shortened.
      have hkept : ∀ dots : Bytes, dots.length < 180 → (∀ c ∈ dots, c = 46) →
          pathFilename filename ≠ dots →
          ((pathFilename filename).map fun c =>
            if isAlnum c || c = 46 || c = 95 || c = 45 then c else 95).take 180 ≠ dots := by
        intro dots hlength hdots hne heq
        have hfew := congrArg List.length heq
        rw [List.length_take] at hfew
        rw [List.take_of_length_le (by omega)] at heq
        refine hne (heq ▸ ((List.map_congr_left fun c hmem => ?_).trans (List.map_id' _)).symm)
        have hdot := hdots _ (heq ▸ List.mem_map_of_mem hmem)
        split at hdot
        · rename_i hsafe
          exact if_pos hsafe
        · exact absurd hdot (by decide)
      refine ⟨fun hnil => hshort (List.isEmpty_iff.mpr hnil), hkept _ (by decide) (by decide) hdot,
        hkept _ (by decide) (by decide) hdots, List.length_take_le _ _, fun c hmem => ?_⟩
      obtain ⟨byte, -, rfl⟩ := List.mem_map.mp (List.mem_of_mem_take hmem)
      split
      · assumption
      · rfl

def isValidTransferToken (token : Bytes) : Bool := token.length = 32 && token.all isXDigit

def isValidSha256Hex (value : Bytes) : Bool := value.length = 64 && value.all isXDigit

end ChatRoom
