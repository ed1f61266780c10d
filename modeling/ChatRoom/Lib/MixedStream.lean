import Mathlib.Data.List.Basic
import Mathlib.Logic.Relation

/-!
# Streams of lines and raw data

One stream carries text lines and raw data. Whoever reads it has to know where lines end and how
much raw data follows, and receives the stream in pieces that are cut anywhere.
-/

namespace MixedStream

structure Octet (α : Type) where
  value : α
  raw : Bool
  deriving DecidableEq, Repr

variable {α : Type}

def text (values : List α) : List (Octet α) := values.map fun value => ⟨value, false⟩

def rawData (values : List α) : List (Octet α) := values.map fun value => ⟨value, true⟩

def values (octets : List (Octet α)) : List α := octets.map Octet.value

def Plain (octets : List (Octet α)) : Prop := ∀ octet ∈ octets, octet.raw = false

instance (octets : List (Octet α)) : Decidable (Plain octets) :=
  inferInstanceAs (Decidable (∀ octet ∈ octets, octet.raw = false))

@[simp] theorem values_text (line : List α) : values (text line) = line := by
  rw [values, text, List.map_map]
  exact List.map_id' line

@[simp] theorem values_rawData (data : List α) : values (rawData data) = data := by
  rw [values, rawData, List.map_map]
  exact List.map_id' data

@[simp] theorem length_values (octets : List (Octet α)) :
    (values octets).length = octets.length := by
  simp [values]

@[simp] theorem values_append (left right : List (Octet α)) :
    values (left ++ right) = values left ++ values right := by
  simp [values]

@[simp] theorem length_text (line : List α) : (text line).length = line.length := by
  simp [text]

@[simp] theorem length_rawData (data : List α) : (rawData data).length = data.length := by
  simp [rawData]

theorem plain_text (line : List α) : Plain (text line) := by
  intro octet hoctet
  obtain ⟨value, -, rfl⟩ := List.mem_map.mp hoctet
  rfl

theorem Plain.of_append_left {left right : List (Octet α)} (hplain : Plain (left ++ right)) :
    Plain left := fun octet hoctet => hplain octet (List.mem_append_left _ hoctet)

theorem Plain.of_append_right {left right : List (Octet α)} (hplain : Plain (left ++ right)) :
    Plain right := fun octet hoctet => hplain octet (List.mem_append_right _ hoctet)

/-! ### Lines -/

section Lines

variable [DecidableEq α] (lineEnd : α)

def takeLine : List (Octet α) → Option (List (Octet α) × List (Octet α))
  | [] => none
  | octet :: rest =>
    if octet.value = lineEnd then
      some ([octet], rest)
    else
      (takeLine rest).map fun (line, rest) => (octet :: line, rest)

def IsLine (line : List α) : Prop := ∃ body, line = body ++ [lineEnd] ∧ lineEnd ∉ body

variable {lineEnd}

theorem takeLine_append {octets line rest : List (Octet α)}
    (htake : takeLine lineEnd octets = some (line, rest)) : octets = line ++ rest := by
  induction octets generalizing line with
  | nil => cases htake
  | cons octet octets ih =>
    rw [takeLine] at htake
    split at htake
    · cases htake
      rfl
    · obtain ⟨⟨line', rest'⟩, htake', heq⟩ := Option.map_eq_some_iff.mp htake
      cases heq
      rw [ih htake', List.cons_append]

theorem takeLine_of_append {octets line rest : List (Octet α)}
    (htake : takeLine lineEnd octets = some (line, rest)) (more : List (Octet α)) :
    takeLine lineEnd (octets ++ more) = some (line, rest ++ more) := by
  induction octets generalizing line with
  | nil => cases htake
  | cons octet octets ih =>
    rw [List.cons_append, takeLine]
    rw [takeLine] at htake
    split at htake
    · rename_i hend
      cases htake
      rw [if_pos hend]
    · rename_i hend
      obtain ⟨⟨line', rest'⟩, htake', heq⟩ := Option.map_eq_some_iff.mp htake
      cases heq
      rw [if_neg hend, ih htake']
      rfl

theorem takeLine_append_of_none {octets : List (Octet α)} (htake : takeLine lineEnd octets = none)
    (more : List (Octet α)) :
    takeLine lineEnd (octets ++ more) =
      (takeLine lineEnd more).map fun (line, rest) => (octets ++ line, rest) := by
  induction octets with
  | nil => simp
  | cons octet octets ih =>
    rw [takeLine] at htake
    split at htake
    · cases htake
    · rename_i hend
      rw [List.cons_append, takeLine, if_neg hend, ih (Option.map_eq_none_iff.mp htake),
        Option.map_map]
      rfl

theorem takeLine_ne_nil {octets line rest : List (Octet α)}
    (htake : takeLine lineEnd octets = some (line, rest)) : line ≠ [] := by
  cases octets with
  | nil => cases htake
  | cons octet octets =>
    rw [takeLine] at htake
    split at htake
    · cases htake
      exact List.cons_ne_nil _ _
    · obtain ⟨⟨line', rest'⟩, -, heq⟩ := Option.map_eq_some_iff.mp htake
      cases heq
      exact List.cons_ne_nil _ _

theorem takeLine_isSome {octets : List (Octet α)} :
    (takeLine lineEnd octets).isSome = true ↔ lineEnd ∈ values octets := by
  induction octets with
  | nil => simp [takeLine, values]
  | cons octet octets ih =>
    rw [takeLine]
    by_cases hend : octet.value = lineEnd
    · simp [hend, values]
    · have hne : ¬lineEnd = octet.value := fun heq => hend heq.symm
      simpa [hend, values, hne] using ih

theorem takeLine_of_isLine {buffer unread rest found after : List (Octet α)} {line : List α}
    (hline : IsLine lineEnd line) (hstream : buffer ++ unread = text line ++ rest)
    (htake : takeLine lineEnd buffer = some (found, after)) :
    found = text line ∧ after ++ unread = rest := by
  obtain ⟨body, rfl, hbody⟩ := hline
  induction body generalizing buffer found with
  | nil =>
    cases buffer with
    | nil => cases htake
    | cons octet buffer =>
      simp only [text, List.nil_append, List.map_cons, List.map_nil, List.cons_append,
        List.cons.injEq] at hstream
      obtain ⟨rfl, hrest⟩ := hstream
      simp only [takeLine, if_true, Option.some.injEq, Prod.mk.injEq] at htake
      obtain ⟨rfl, rfl⟩ := htake
      exact ⟨rfl, hrest⟩
  | cons value body ih =>
    have hne : value ≠ lineEnd := fun heq => hbody (heq ▸ List.mem_cons_self)
    cases buffer with
    | nil => cases htake
    | cons octet buffer =>
      simp only [text, List.cons_append, List.map_cons, List.cons.injEq] at hstream
      obtain ⟨rfl, hrest⟩ := hstream
      rw [takeLine, if_neg hne] at htake
      obtain ⟨⟨line', rest'⟩, htake', heq⟩ := Option.map_eq_some_iff.mp htake
      cases heq
      obtain ⟨rfl, hafter⟩ :=
        ih htake' (fun hmem => hbody (List.mem_cons_of_mem _ hmem)) hrest
      exact ⟨rfl, hafter⟩

theorem takeLine_text {line : List α} (hline : IsLine lineEnd line) (rest : List (Octet α)) :
    takeLine lineEnd (text line ++ rest) = some (text line, rest) := by
  have hsome : (takeLine lineEnd (text line ++ rest)).isSome = true := by
    obtain ⟨body, rfl, -⟩ := hline
    rw [takeLine_isSome]
    simp [values, text]
  obtain ⟨⟨found, after⟩, htake⟩ := Option.isSome_iff_exists.mp hsome
  obtain ⟨rfl, hafter⟩ := takeLine_of_isLine hline (List.append_nil _) htake
  rw [htake, ← hafter, List.append_nil]

end Lines

/-! ### Raw data -/

theorem take_of_rawData {buffer unread rest : List (Octet α)} {data : List α}
    (hstream : buffer ++ unread = rawData data ++ rest) :
    (buffer.take data.length = rawData data ∧ buffer.drop data.length ++ unread = rest) ∨
      ∃ come still, data = come ++ still ∧ still ≠ [] ∧ buffer = rawData come ∧
        unread = rawData still ++ rest := by
  by_cases hlength : data.length ≤ buffer.length
  · left
    have htake := congrArg (List.take data.length) hstream
    have hdrop := congrArg (List.drop data.length) hstream
    have hraw := length_rawData data
    rw [List.take_append_of_le_length hlength, ← hraw, List.take_left] at htake
    rw [List.drop_append_of_le_length hlength, ← hraw, List.drop_left] at hdrop
    rw [← hraw]
    exact ⟨htake, hdrop⟩
  · right
    obtain ⟨missing, hdata, hunread⟩ | ⟨extra, hbuffer, -⟩ := List.append_eq_append_iff.mp hstream
    · obtain ⟨come, still, rfl, rfl, rfl⟩ := List.map_eq_append_iff.mp hdata
      refine ⟨come, still, rfl, ?_, rfl, hunread⟩
      rintro rfl
      simp at hlength
    · rw [hbuffer, List.length_append, length_rawData] at hlength
      omega

/-! ### Readers

A reader demands a line or a number of raw values, handles what it gets and demands the next. Raw
values may come in pieces. -/

inductive Demand where
  | nothing
  | line
  | data (count : Nat)
  deriving DecidableEq, Repr

structure Reader (α σ : Type) where
  demand : σ → Demand
  onLine : σ → List (Octet α) → σ
  onData : σ → List (Octet α) → σ

namespace Reader

variable {σ : Type} [DecidableEq α] (reader : Reader α σ) (lineEnd : α)

structure Lawful : Prop where
  demand_onData : ∀ {s : σ} {count : Nat} {part : List (Octet α)}, reader.demand s = .data count →
    part ≠ [] → part.length < count →
      reader.demand (reader.onData s part) = .data (count - part.length)
  onData_onData : ∀ {s : σ} {count : Nat} {part : List (Octet α)}, reader.demand s = .data count →
    part ≠ [] → part.length < count → ∀ more, more ≠ [] →
      reader.onData (reader.onData s part) more = reader.onData s (part ++ more)

def round (s : σ) (buffer : List (Octet α)) : Option (σ × List (Octet α)) :=
  match reader.demand s with
  | .nothing => none
  | .line => (takeLine lineEnd buffer).map fun (line, rest) => (reader.onLine s line, rest)
  | .data count =>
    if count = 0 || buffer.isEmpty then
      none
    else
      some (reader.onData s (buffer.take count), buffer.drop count)

variable {reader lineEnd} {s s' : σ} {buffer rest : List (Octet α)}

theorem round_nothing (hdemand : reader.demand s = .nothing) :
    reader.round lineEnd s buffer = none := by
  rw [round, hdemand]

theorem round_line {line : List (Octet α)} (hdemand : reader.demand s = .line)
    (htake : takeLine lineEnd buffer = some (line, rest)) :
    reader.round lineEnd s buffer = some (reader.onLine s line, rest) := by
  rw [round, hdemand]
  simp only [htake, Option.map_some]

theorem round_no_line (hdemand : reader.demand s = .line)
    (htake : takeLine lineEnd buffer = none) : reader.round lineEnd s buffer = none := by
  rw [round, hdemand]
  simp only [htake, Option.map_none]

theorem round_no_data {count : Nat} (hdemand : reader.demand s = .data count) :
    reader.round lineEnd s [] = none := by
  rw [round, hdemand]
  simp

theorem round_data {count : Nat} (hdemand : reader.demand s = .data count) (hcount : 0 < count)
    (hbuffer : buffer ≠ []) :
    reader.round lineEnd s buffer =
      some (reader.onData s (buffer.take count), buffer.drop count) := by
  rw [round, hdemand]
  have hcond : ¬(count = 0 || buffer.isEmpty) = true := by
    simp [hbuffer]
    omega
  simp only [hcond]
  rfl

theorem round_cases (hround : reader.round lineEnd s buffer = some (s', rest)) :
    (∃ line, reader.demand s = .line ∧ takeLine lineEnd buffer = some (line, rest) ∧
      s' = reader.onLine s line) ∨
    (∃ count, reader.demand s = .data count ∧ 0 < count ∧ buffer ≠ [] ∧
      s' = reader.onData s (buffer.take count) ∧ rest = buffer.drop count) := by
  rw [round] at hround
  split at hround
  · cases hround
  · rename_i hdemand
    obtain ⟨⟨line, rest'⟩, htake, heq⟩ := Option.map_eq_some_iff.mp hround
    cases heq
    exact .inl ⟨line, hdemand, htake, rfl⟩
  · rename_i count hdemand
    split at hround
    · cases hround
    · rename_i hcond
      cases hround
      simp only [Bool.or_eq_true, decide_eq_true_eq, List.isEmpty_iff, not_or] at hcond
      exact .inr ⟨count, hdemand, Nat.pos_of_ne_zero hcond.1, hcond.2, rfl, rfl⟩

theorem buffer_of_round (hround : reader.round lineEnd s buffer = some (s', rest)) :
    ∃ taken, buffer = taken ++ rest := by
  obtain ⟨line, -, htake, -⟩ | ⟨count, -, -, -, -, rfl⟩ := round_cases hround
  · exact ⟨line, takeLine_append htake⟩
  · exact ⟨buffer.take count, (List.take_append_drop count buffer).symm⟩

theorem length_round (hround : reader.round lineEnd s buffer = some (s', rest)) :
    rest.length < buffer.length := by
  obtain ⟨line, -, htake, -⟩ | ⟨count, -, hcount, hbuffer, -, rfl⟩ := round_cases hround
  · have hline := List.length_pos_iff.mpr (takeLine_ne_nil htake)
    rw [takeLine_append htake, List.length_append]
    omega
  · have hlength := List.length_pos_iff.mpr hbuffer
    rw [List.length_drop]
    omega

variable (reader lineEnd) in
def rounds : Nat → σ → List (Octet α) → σ × List (Octet α)
  | 0, s, buffer => (s, buffer)
  | count + 1, s, buffer =>
    match reader.round lineEnd s buffer with
    | none => (s, buffer)
    | some (s', rest) => rounds count s' rest

variable (reader lineEnd) in
def drain (s : σ) (buffer : List (Octet α)) : σ × List (Octet α) :=
  reader.rounds lineEnd buffer.length s buffer

theorem rounds_congr {first second : Nat} (hfirst : buffer.length ≤ first)
    (hsecond : buffer.length ≤ second) :
    reader.rounds lineEnd first s buffer = reader.rounds lineEnd second s buffer := by
  induction first generalizing second s buffer with
  | zero =>
    cases second with
    | zero => rfl
    | succ second =>
      cases hround : reader.round lineEnd s buffer with
      | none => simp only [rounds, hround]
      | some out =>
        have hshorter := length_round hround
        omega
  | succ first ih =>
    cases hround : reader.round lineEnd s buffer with
    | none => cases second <;> simp only [rounds, hround]
    | some out =>
      have hshorter := length_round hround
      cases second with
      | zero => omega
      | succ second =>
        simp only [rounds, hround]
        exact ih (by omega) (by omega)

theorem drain_of_none (hround : reader.round lineEnd s buffer = none) :
    reader.drain lineEnd s buffer = (s, buffer) := by
  rw [drain, rounds_congr (Nat.le_refl _) (Nat.le_succ _), rounds, hround]

theorem drain_of_some (hround : reader.round lineEnd s buffer = some (s', rest)) :
    reader.drain lineEnd s buffer = reader.drain lineEnd s' rest := by
  rw [drain, rounds_congr (Nat.le_refl _) (Nat.le_succ _), rounds, hround]
  exact rounds_congr (Nat.le_of_lt (length_round hround)) (Nat.le_refl _)

theorem drain_induct {P : σ → List (Octet α) → Prop}
    (hstep : ∀ s buffer s' rest, P s buffer →
      reader.round lineEnd s buffer = some (s', rest) → P s' rest)
    (hstart : P s buffer) :
    P (reader.drain lineEnd s buffer).1 (reader.drain lineEnd s buffer).2 := by
  induction hlength : buffer.length using Nat.strongRecOn generalizing s buffer with
  | _ length ih =>
    cases hround : reader.round lineEnd s buffer with
    | none =>
      rw [drain_of_none hround]
      exact hstart
    | some out =>
      obtain ⟨s', rest⟩ := out
      rw [drain_of_some hround]
      exact ih rest.length (hlength ▸ length_round hround) (hstep s buffer s' rest hstart hround)
        rfl

theorem drain_of_data {count : Nat} (hdemand : reader.demand s = .data count) (hcount : 0 < count)
    (hbuffer : buffer ≠ []) :
    reader.drain lineEnd s buffer =
      reader.drain lineEnd (reader.onData s (buffer.take count)) (buffer.drop count) :=
  drain_of_some (round_data hdemand hcount hbuffer)

theorem Lawful.drain_of_round (hlawful : reader.Lawful) (more : List (Octet α))
    (hround : reader.round lineEnd s buffer = some (s', rest)) :
    reader.drain lineEnd s (buffer ++ more) = reader.drain lineEnd s' (rest ++ more) := by
  obtain ⟨line, hdemand, htake, rfl⟩ | ⟨count, hdemand, hcount, hbuffer, rfl, rfl⟩ :=
    round_cases hround
  · exact drain_of_some (round_line hdemand (takeLine_of_append htake more))
  · have hne : buffer ++ more ≠ [] := fun heq => hbuffer (List.append_eq_nil_iff.mp heq).1
    rw [drain_of_data hdemand hcount hne]
    by_cases hlength : count ≤ buffer.length
    · rw [List.take_append_of_le_length hlength, List.drop_append_of_le_length hlength]
    · have hlt : buffer.length < count := by omega
      have hle : buffer.length ≤ count := by omega
      rw [List.take_of_length_le hle, List.drop_of_length_le hle, List.nil_append]
      cases more with
      | nil =>
        rw [List.append_nil, List.take_of_length_le hle, List.drop_of_length_le hle]
      | cons octet more =>
        have hdemand' := hlawful.demand_onData hdemand hbuffer hlt
        have hcount' : 0 < count - buffer.length := by omega
        have hcons := List.cons_ne_nil octet more
        have htaken : (octet :: more).take (count - buffer.length) ≠ [] := by
          rw [Ne, List.take_eq_nil_iff]
          rintro (hzero | hnil)
          · omega
          · exact hcons hnil
        rw [drain_of_data hdemand' hcount' hcons,
          hlawful.onData_onData hdemand hbuffer hlt _ htaken, List.take_append,
          List.take_of_length_le hle, List.drop_append, List.drop_of_length_le hle,
          List.nil_append]

variable (reader lineEnd) in
def Rounds : σ × List (Octet α) → σ × List (Octet α) → Prop :=
  Relation.ReflTransGen fun before after => reader.round lineEnd before.1 before.2 = some after

theorem Rounds.keeps {P : σ → List (Octet α) → Prop}
    (hround : ∀ {s s' : σ} {buffer rest : List (Octet α)}, P s buffer →
      reader.round lineEnd s buffer = some (s', rest) → P s' rest)
    {before after : σ × List (Octet α)} (hrounds : reader.Rounds lineEnd before after)
    (hstart : P before.1 before.2) : P after.1 after.2 := by
  induction hrounds with
  | refl => exact hstart
  | tail _ hlast ih => exact hround ih hlast

theorem Lawful.drain_of_rounds (hlawful : reader.Lawful) (more : List (Octet α))
    {before after : σ × List (Octet α)} (hrounds : reader.Rounds lineEnd before after) :
    reader.drain lineEnd before.1 (before.2 ++ more) =
      reader.drain lineEnd after.1 (after.2 ++ more) := by
  induction hrounds with
  | refl => rfl
  | tail _ hround ih => exact ih.trans (hlawful.drain_of_round more hround)

end Reader

end MixedStream
