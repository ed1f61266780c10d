import Mathlib.Data.List.Basic

/-!
# POSIX path names

A path as the C++ standard describes it on a system without root names: whether it begins with the
root directory, and its file names in order.
-/

namespace Filesystem

variable {names base done : List Name}

abbrev Name := List UInt8

def separator : UInt8 := 47

def dot : Name := [46]

def dotDot : Name := [46, 46]

def Name.Proper (name : Name) : Prop := name ≠ [] ∧ name ≠ dot ∧ name ≠ dotDot

instance (name : Name) : Decidable name.Proper := inferInstanceAs (Decidable (_ ∧ _ ∧ _))

structure Path where
  absolute : Bool
  elements : List Name
  deriving DecidableEq, Repr

def splitSeparators : List UInt8 → List Name
  | [] => [[]]
  | c :: text =>
    if c = separator then [] :: splitSeparators text
    else
      match splitSeparators text with
      | [] => [[c]]
      | name :: names => (c :: name) :: names

namespace Path

/-- A path from its text. Separators in a row are one separator; one at the end leaves an empty
last name, unless it is the root directory. -/
def ofBytes (text : List UInt8) : Path :=
  let names := (splitSeparators text).filter fun name => !name.isEmpty
  { absolute := text.head? = some separator
    elements :=
      if names ≠ [] ∧ text.getLast? = some separator then names ++ [[]] else names }

def hasFilename (path : Path) : Bool :=
  match path.elements.getLast? with
  | some name => !name.isEmpty
  | none => false

def withoutTrailing (path : Path) : List Name :=
  if path.elements.getLast? = some [] then path.elements.dropLast else path.elements

/-- `operator/`: an absolute right operand replaces the left one, an empty one adds a separator
behind a file name. -/
def append (left right : Path) : Path :=
  if right.absolute then right
  else if right.elements = [] then
    if left.hasFilename then { left with elements := left.elements ++ [[]] } else left
  else { left with elements := left.withoutTrailing ++ right.elements }

instance : HDiv Path Path Path := ⟨append⟩

def parentPath (path : Path) : Path := { path with elements := path.elements.dropLast }

def normalStep (absolute : Bool) (done : List Name) (name : Name) : List Name :=
  if name = [] ∨ name = dot then done
  else if name = dotDot then
    match done with
    | [] => if absolute then [] else [dotDot]
    | last :: before => if last = dotDot then dotDot :: last :: before else before
  else name :: done

/-- `lexically_normal`. What ends in a separator, a dot or a dot-dot that was removed ends in a
separator, unless nothing or a dot-dot stands before it. -/
def lexicallyNormal (path : Path) : Path :=
  let done := path.elements.foldl (normalStep path.absolute) []
  let removed :=
    match path.elements.getLast? with
    | some name => decide ¬name.Proper
    | none => false
  if path.absolute = false ∧ path.elements = [] then path
  else if done = [] then { path with elements := if path.absolute then [] else [dot] }
  else if removed && done.head? != some dotDot then
    { path with elements := done.reverse ++ [[]] }
  else { path with elements := done.reverse }

end Path

def mismatch : List Name → List Name → List Name × List Name
  | x :: xs, y :: ys => if x = y then mismatch xs ys else (x :: xs, y :: ys)
  | xs, ys => (xs, ys)

def depth (names : List Name) : Int :=
  (names.countP fun name => decide name.Proper) - (names.count dotDot : Int)

namespace Path

def lexicallyRelative (path base : Path) : Path :=
  if path.absolute ≠ base.absolute then ⟨false, []⟩
  else
    let (rest, behind) := mismatch path.elements base.elements
    if rest = [] ∧ behind = [] then ⟨false, [dot]⟩
    else if depth behind < 0 then ⟨false, []⟩
    else if depth behind = 0 ∧ (rest = [] ∨ rest.head? = some []) then ⟨false, [dot]⟩
    else ⟨false, List.replicate (depth behind).toNat dotDot ++ rest⟩

end Path

/-! ### Lemmas -/

section Mismatch

theorem mismatch_append (base rest : List Name) : mismatch (base ++ rest) base = (rest, []) := by
  induction base with
  | nil => cases rest <;> rfl
  | cons name base ih => simpa [mismatch] using ih

theorem append_of_mismatch {rest : List Name} (hmismatch : mismatch names base = (rest, [])) :
    names = base ++ rest := by
  induction base generalizing names with
  | nil => cases names <;> simpa [mismatch] using hmismatch
  | cons name base ih =>
    cases names with
    | nil => simp [mismatch] at hmismatch
    | cons first names =>
      rw [mismatch] at hmismatch
      split at hmismatch
      · rename_i hsame
        rw [hsame, ih hmismatch, List.cons_append]
      · simp at hmismatch

theorem mem_of_mismatch {rest behind : List Name}
    (hmismatch : mismatch names base = (rest, behind)) : ∀ name ∈ behind, name ∈ base := by
  induction base generalizing names with
  | nil =>
    have hnone : behind = [] := by
      cases names <;> simp only [mismatch, Prod.mk.injEq] at hmismatch <;> exact hmismatch.2.symm
    simp [hnone]
  | cons name base ih =>
    cases names with
    | nil =>
      simp only [mismatch, Prod.mk.injEq] at hmismatch
      simp [← hmismatch.2]
    | cons first names =>
      rw [mismatch] at hmismatch
      split at hmismatch
      · exact fun other hother => List.mem_cons_of_mem _ (ih hmismatch other hother)
      · simp only [Prod.mk.injEq] at hmismatch
        simp [← hmismatch.2]

end Mismatch

theorem depth_of_proper (hnames : ∀ name ∈ names, name.Proper) :
    depth names = names.length := by
  have hall : (names.countP fun name => decide name.Proper) = names.length := by
    rw [List.countP_eq_length]
    exact fun name hname => decide_eq_true (hnames name hname)
  have hnone : names.count dotDot = 0 := by
    rw [List.count_eq_zero]
    exact fun hmem => (hnames dotDot hmem).2.2 rfl
  simp [depth, hall, hnone]

/-- **The test of a relative path.** A path relative to a base of proper names does without dot-dot
only if the base is the beginning of the path. -/
theorem append_of_lexicallyRelative (hbase : ∀ name ∈ base, name.Proper)
    (hrel : dotDot ∉ ((Path.mk true names).lexicallyRelative ⟨true, base⟩).elements) :
    ∃ rest, names = base ++ rest := by
  rcases hmismatch : mismatch names base with ⟨rest, behind⟩
  have hproper : ∀ name ∈ behind, name.Proper :=
    fun name hname => hbase name (mem_of_mismatch hmismatch name hname)
  rcases hbehind : behind with _ | ⟨first, others⟩
  · rw [hbehind] at hmismatch
    exact ⟨rest, append_of_mismatch hmismatch⟩
  · -- Each name of the base that is left over adds a dot-dot.
    have hdepth : depth behind = behind.length := depth_of_proper hproper
    have hlength : behind.length = others.length + 1 := by rw [hbehind]; rfl
    have hpositive : ¬depth behind < 0 := by omega
    have hnonzero : ¬depth behind = 0 := by omega
    have hne : behind ≠ [] := by rw [hbehind]; simp
    apply absurd _ hrel
    simp only [Path.lexicallyRelative, hmismatch, hne, hpositive, hnonzero, and_false, false_and,
      if_false, ne_eq, not_true_eq_false, List.mem_append, List.mem_replicate]
    exact Or.inl ⟨by omega, trivial⟩

theorem lexicallyRelative_append (base rest : List Name) (hrest : ∀ name ∈ rest, name.Proper) :
    (Path.mk true (base ++ rest)).lexicallyRelative ⟨true, base⟩
      = ⟨false, if rest = [] then [dot] else rest⟩ := by
  have hhead : rest.head? ≠ some [] := by
    intro hhead
    exact (hrest [] (List.mem_of_mem_head? (by simp [hhead]))).1 rfl
  simp only [Path.lexicallyRelative, mismatch_append]
  by_cases hnone : rest = []
  · simp [hnone]
  · simp [hnone, depth, hhead]

theorem foldl_normalStep {absolute : Bool} (hnames : ∀ name ∈ names, name.Proper) :
    names.foldl (Path.normalStep absolute) done = names.reverse ++ done := by
  induction names generalizing done with
  | nil => rfl
  | cons name names ih =>
    have hproper := hnames name List.mem_cons_self
    rw [List.foldl_cons, ih fun other hother => hnames other (List.mem_cons_of_mem _ hother)]
    simp [Path.normalStep, hproper.1, hproper.2.1, hproper.2.2]

theorem lexicallyNormal_of_proper (hnames : ∀ name ∈ names, name.Proper) :
    (Path.mk true names).lexicallyNormal = ⟨true, names⟩ := by
  have hlast : ∀ name, names.getLast? = some name → name.Proper :=
    fun name hname => hnames name (List.mem_of_getLast? hname)
  rcases hcase : names.getLast? with _ | last
  · simp [List.getLast?_eq_none_iff.mp hcase, Path.lexicallyNormal]
  · have hne : names ≠ [] := by
      rintro rfl
      simp at hcase
    simp [Path.lexicallyNormal, foldl_normalStep hnames, hcase, hlast last hcase, hne]

theorem proper_normalStep (hdone : ∀ name ∈ done, name.Proper) (name : Name) :
    ∀ other ∈ Path.normalStep true done name, other.Proper := by
  unfold Path.normalStep
  split
  · exact hdone
  · rename_i hplain
    rw [not_or] at hplain
    split
    · cases done with
      | nil => simp
      | cons last before =>
        have hlast : last ≠ dotDot := (hdone last List.mem_cons_self).2.2
        simp only [hlast, if_false]
        exact fun other hother => hdone other (List.mem_cons_of_mem _ hother)
    · rename_i hup
      intro other hother
      rcases List.mem_cons.mp hother with rfl | hother
      · exact ⟨hplain.1, hplain.2, hup⟩
      · exact hdone other hother

theorem proper_foldl (hdone : ∀ name ∈ done, name.Proper) :
    ∀ other ∈ names.foldl (Path.normalStep true) done, other.Proper := by
  induction names generalizing done with
  | nil => exact hdone
  | cons name names ih => exact ih (proper_normalStep hdone name)

def Normal (path : Path) (names tail : List Name) : Prop :=
  path = ⟨true, names ++ tail⟩ ∧ (∀ name ∈ names, name.Proper) ∧ (tail = [] ∨ tail = [[]])

theorem normal_lexicallyNormal (elements : List Name) :
    ∃ names tail, Normal (Path.mk true elements).lexicallyNormal names tail := by
  have hdone : ∀ name ∈ (elements.foldl (Path.normalStep true) []).reverse, name.Proper :=
    fun name hname => proper_foldl (by simp) name (List.mem_reverse.mp hname)
  simp only [Path.lexicallyNormal, Bool.true_eq_false, false_and, if_false, if_true]
  split_ifs
  · exact ⟨[], [], rfl, by simp, Or.inl rfl⟩
  · exact ⟨_, [[]], rfl, hdone, Or.inr rfl⟩
  · exact ⟨_, [], by rw [List.append_nil], hdone, Or.inl rfl⟩

theorem absolute_lexicallyNormal (path : Path) :
    path.lexicallyNormal.absolute = path.absolute := by
  unfold Path.lexicallyNormal
  dsimp only
  split_ifs <;> rfl

theorem absolute_append {left right : Path} (hleft : left.absolute = true) :
    (left / right).absolute = true := by
  change (left.append right).absolute = true
  unfold Path.append
  split
  · assumption
  · split
    · split <;> exact hleft
    · exact hleft

end Filesystem
