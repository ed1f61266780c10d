import Mathlib.Data.List.Induction
import ChatRoom.Lib.Paths

/-!
# File trees with symbolic links

A file tree by the canonical location of its entries, the walk of the kernel along a path, and the
operations of `std::filesystem` that look at the tree.
-/

namespace Filesystem

abbrev Location := List Name

inductive Entry where
  | directory
  | file (size : Nat)
  | link (target : Path)
  deriving DecidableEq, Repr

inductive Status where
  | found (location : Location)
  | missing
  | loop
  deriving DecidableEq, Repr

def Path.start (path : Path) (base : Location) : Location := if path.absolute then [] else base

/-- The walk along names up to the first link, which is left to `follow`. A walk that `create`s
accepts a missing last entry of a directory. -/
def walkWith (entry : Location → Option Entry) (create : Bool)
    (follow : Location → List Name → Status) : Location → List Name → Status
  | location, [] => .found location
  | location, name :: rest =>
    match entry location with
    | some .directory =>
      if name = [] ∨ name = dot then walkWith entry create follow location rest
      else if name = dotDot then walkWith entry create follow location.dropLast rest
      else
        match entry (location ++ [name]) with
        | none => if create && rest.isEmpty then .found (location ++ [name]) else .missing
        | some (.link target) => follow (target.start location) (target.elements ++ rest)
        | some _ => walkWith entry create follow (location ++ [name]) rest
    | _ => .missing

def walk (entry : Location → Option Entry) (create : Bool) : Nat → Location → List Name → Status
  | 0 => walkWith entry create fun _ _ => .loop
  | links + 1 => walkWith entry create (walk entry create links)

def linkLimit : Nat := 40

/-- A file tree: everything stands in directories under proper names, and no link dangles. -/
structure FileTree where
  entry : Location → Option Entry
  children : Location → List Name
  listed : ∀ location name, name ∈ children location ↔ entry (location ++ [name]) ≠ none
  root : entry [] = some .directory
  parent : ∀ location name, entry (location ++ [name]) ≠ none → entry location = some .directory
  proper : ∀ location name, entry (location ++ [name]) ≠ none → name.Proper
  resolves : ∀ location name target, entry (location ++ [name]) = some (.link target) →
    ∃ end', walk entry false linkLimit (target.start location) target.elements = .found end'

namespace FileTree

def status (tree : FileTree) (path : Path) : Status :=
  walk tree.entry false linkLimit [] path.elements

def opens (tree : FileTree) (path : Path) : Status :=
  walk tree.entry true linkLimit [] path.elements

/-- What is at an absolute path, if anything, behind the links. It has no value when the tree cannot
be read. -/
def lookup (tree : FileTree) (path : Path) : Option (Option Entry) :=
  match tree.status path with
  | .found location => some (tree.entry location)
  | .missing => some none
  | .loop => none

def leading (tree : FileTree) : List Name → List Name → Option (List Name × List Name)
  | seen, [] => some (seen, [])
  | seen, name :: rest =>
    match tree.status ⟨true, seen ++ [name]⟩ with
    | .found _ => leading tree (seen ++ [name]) rest
    | .missing => some (seen, name :: rest)
    | .loop => none

/-- `weakly_canonical` of an absolute path: the canonical form of the leading names that exist and
then the other names, in normal form. It has no value when the tree cannot be read. -/
def weaklyCanonical (tree : FileTree) (path : Path) : Option Path :=
  match tree.status path with
  | .found location => some ⟨true, location⟩
  | .loop => none
  | .missing =>
    match tree.leading [] path.elements with
    | none => none
    | some (seen, rest) =>
      match tree.status ⟨true, seen⟩ with
      | .found location => some (Path.mk true (location ++ rest)).lexicallyNormal
      | _ => none

def relative (tree : FileTree) (path base : Path) : Option Path :=
  match tree.weaklyCanonical path, tree.weaklyCanonical base with
  | some path, some base => some (path.lexicallyRelative base)
  | _, _ => none

def Extends (later earlier : FileTree) : Prop :=
  ∀ location entry, earlier.entry location = some entry → later.entry location = some entry

end FileTree

/-! ### Trees from tables -/

def tableEntry (table : List (Location × Entry)) (location : Location) : Option Entry :=
  if location = [] then some .directory else table.lookup location

def Status.isFound : Status → Bool
  | .found _ => true
  | _ => false

def tableCheck (table : List (Location × Entry)) : Bool :=
  table.all fun (location, entry) =>
    (match location.getLast? with
      | some name => decide name.Proper
      | none => false)
    && decide (tableEntry table location.dropLast = some .directory)
    && match entry with
      | .link target =>
        (walk (tableEntry table) false linkLimit (target.start location.dropLast)
          target.elements).isFound
      | _ => true

theorem mem_of_tableEntry {table : List (Location × Entry)} {location : Location} {name : Name}
    {entry : Entry} (hentry : tableEntry table (location ++ [name]) = some entry) :
    (location ++ [name], entry) ∈ table := by
  simp only [tableEntry, List.append_eq_nil_iff, List.cons_ne_nil, and_false, if_false] at hentry
  obtain ⟨before, after, hsplit, -⟩ := List.lookup_eq_some_iff.mp hentry
  simp [hsplit]

theorem check_of_tableEntry {table : List (Location × Entry)} (hcheck : tableCheck table = true)
    {location : Location} {name : Name} {entry : Entry}
    (hentry : tableEntry table (location ++ [name]) = some entry) :
    name.Proper ∧ tableEntry table location = some .directory
      ∧ ∀ target, entry = .link target → (walk (tableEntry table) false linkLimit
        (target.start location) target.elements).isFound = true := by
  have hrow := List.all_eq_true.mp hcheck _ (mem_of_tableEntry hentry)
  simp only [List.getLast?_concat, List.dropLast_concat, Bool.and_eq_true, decide_eq_true_eq] at hrow
  refine ⟨hrow.1.1, hrow.1.2, ?_⟩
  rintro target rfl
  exact hrow.2

def FileTree.ofTable (table : List (Location × Entry)) (hcheck : tableCheck table = true) :
    FileTree where
  entry := tableEntry table
  children location := (table.filterMap fun (place, _) =>
    if place.dropLast = location then place.getLast? else none)
  listed := by
    intro location name
    rw [List.mem_filterMap]
    constructor
    · rintro ⟨⟨place, entry⟩, hmem, hplace⟩
      simp only [Option.ite_none_right_eq_some] at hplace
      have hsplit : location ++ [name] = place := by
        rw [← hplace.1]
        exact List.dropLast_append_getLast? name (by simp [hplace.2])
      have hne : place ≠ [] := by simp [← hsplit]
      intro hnone
      rw [hsplit, tableEntry, if_neg hne] at hnone
      simpa using List.lookup_eq_none_iff.mp hnone _ hmem
    · intro hsome
      obtain ⟨entry, hentry⟩ := Option.ne_none_iff_exists'.mp hsome
      exact ⟨_, mem_of_tableEntry hentry, by simp⟩
  root := rfl
  parent location name hsome := by
    obtain ⟨entry, hentry⟩ := Option.ne_none_iff_exists'.mp hsome
    exact (check_of_tableEntry hcheck hentry).2.1
  proper location name hsome := by
    obtain ⟨entry, hentry⟩ := Option.ne_none_iff_exists'.mp hsome
    exact (check_of_tableEntry hcheck hentry).1
  resolves location name target hlink := by
    have hfound := (check_of_tableEntry hcheck hlink).2.2 target rfl
    cases hwalk : walk (tableEntry table) false linkLimit (target.start location)
        target.elements with
    | found end' => exact ⟨end', rfl⟩
    | missing => rw [hwalk] at hfound; cases hfound
    | loop => rw [hwalk] at hfound; cases hfound

/-! ### Walks -/

section Walk

variable {entry : Location → Option Entry}

inductive Walks (entry : Location → Option Entry) (create : Bool) :
    Nat → Location → List Name → Status → Prop
  | nil {links location} : Walks entry create links location [] (.found location)
  | stay {links location name rest status} (hdirectory : entry location = some .directory)
      (hname : name = [] ∨ name = dot) (hwalk : Walks entry create links location rest status) :
      Walks entry create links location (name :: rest) status
  | up {links location rest status} (hdirectory : entry location = some .directory)
      (hwalk : Walks entry create links location.dropLast rest status) :
      Walks entry create links location (dotDot :: rest) status
  | absent {links location name rest} (hdirectory : entry location = some .directory)
      (hname : name.Proper) (hnone : entry (location ++ [name]) = none) :
      Walks entry create links location (name :: rest)
        (if create && rest.isEmpty then .found (location ++ [name]) else .missing)
  | spent {location name rest target} (hdirectory : entry location = some .directory)
      (hname : name.Proper) (hlink : entry (location ++ [name]) = some (.link target)) :
      Walks entry create 0 location (name :: rest) .loop
  | follow {links location name rest status target}
      (hdirectory : entry location = some .directory) (hname : name.Proper)
      (hlink : entry (location ++ [name]) = some (.link target))
      (hwalk : Walks entry create links (target.start location) (target.elements ++ rest) status) :
      Walks entry create (links + 1) location (name :: rest) status
  | down {links location name rest status} (hdirectory : entry location = some .directory)
      (hname : name.Proper) (hsome : entry (location ++ [name]) ≠ none)
      (hlink : ∀ target, entry (location ++ [name]) ≠ some (.link target))
      (hwalk : Walks entry create links (location ++ [name]) rest status) :
      Walks entry create links location (name :: rest) status
  | stuck {links location name rest} (hdirectory : entry location ≠ some .directory) :
      Walks entry create links location (name :: rest) .missing

variable {create : Bool} {links : Nat} {location : Location} {names : List Name} {status : Status}

theorem walks_walkWith {follow : Location → List Name → Status}
    (hspent : ∀ {location name rest target}, entry location = some .directory → name.Proper →
      entry (location ++ [name]) = some (.link target) →
      Walks entry create links location (name :: rest)
        (follow (target.start location) (target.elements ++ rest))) :
    Walks entry create links location names (walkWith entry create follow location names) := by
  induction names generalizing location with
  | nil => exact .nil
  | cons name rest ih =>
    rw [walkWith]
    split
    · rename_i hdirectory
      split
      · exact .stay hdirectory ‹_› ih
      · split
        · rename_i hname
          rw [hname]
          exact .up hdirectory ih
        · rename_i hplain hup
          rw [not_or] at hplain
          have hname : name.Proper := ⟨hplain.1, hplain.2, hup⟩
          split
          · exact .absent hdirectory hname ‹_›
          · exact hspent hdirectory hname ‹_›
          · rename_i other hnotlink hentry
            refine .down hdirectory hname (by simp [hentry]) (fun target hlink => ?_) ih
            exact hnotlink target (Option.some.inj (hentry.symm.trans hlink))
    · exact .stuck ‹_›

theorem walks_walk : Walks entry create links location names (walk entry create links location names) := by
  induction links generalizing location names with
  | zero => exact walks_walkWith .spent
  | succ links ih => exact walks_walkWith fun hdirectory hname hlink => .follow hdirectory hname hlink ih

theorem Walks.eq (hwalks : Walks entry create links location names status) :
    walk entry create links location names = status := by
  induction hwalks with
  | @nil links => cases links <;> rfl
  | @stay links _ _ _ _ hdirectory hname _ ih =>
    cases links <;> simpa [walk, walkWith, hdirectory, hname] using ih
  | @up links _ _ _ hdirectory _ ih =>
    rw [← ih]
    cases links <;> simp [walk, walkWith, hdirectory, dotDot, dot]
  | @absent links _ _ _ hdirectory hname hnone =>
    cases links <;> simp [walk, walkWith, hdirectory, hname.1, hname.2.1, hname.2.2, hnone]
  | spent hdirectory hname hlink =>
    simp [walk, walkWith, hdirectory, hname.1, hname.2.1, hname.2.2, hlink]
  | follow hdirectory hname hlink _ ih =>
    simpa [walk, walkWith, hdirectory, hname.1, hname.2.1, hname.2.2, hlink] using ih
  | @down links location name _ _ hdirectory hname hsome hlink _ ih =>
    rw [← ih]
    cases hentry : entry (location ++ [name]) with
    | none => exact absurd hentry hsome
    | some other =>
      cases other with
      | link target => exact absurd hentry (hlink target)
      | _ => cases links <;>
          simp [walk, walkWith, hdirectory, hname.1, hname.2.1, hname.2.2, hentry]
  | @stuck links _ _ _ hdirectory =>
    cases links <;> · rw [walk, walkWith]; split <;> simp_all

theorem walk_iff :
    walk entry create links location names = status ↔ Walks entry create links location names status :=
  ⟨fun hwalk => hwalk ▸ walks_walk, Walks.eq⟩

/-- **More links.** A walk that comes to an end comes to the same end when it may follow more
links. -/
theorem walk_of_le (hend : status ≠ .loop) {more : Nat} (hle : links ≤ more)
    (hwalk : walk entry create links location names = status) :
    walk entry create more location names = status := by
  rw [walk_iff] at hwalk ⊢
  induction hwalk generalizing more with
  | nil => exact .nil
  | stay hdirectory hname _ ih => exact .stay hdirectory hname (ih hend hle)
  | up hdirectory _ ih => exact .up hdirectory (ih hend hle)
  | absent hdirectory hname hnone => exact .absent hdirectory hname hnone
  | spent => exact absurd rfl hend
  | follow hdirectory hname hlink _ ih =>
    obtain ⟨more, rfl⟩ : ∃ fewer, more = fewer + 1 := ⟨more - 1, by omega⟩
    exact .follow hdirectory hname hlink (ih hend (by omega))
  | down hdirectory hname hsome hlink _ ih => exact .down hdirectory hname hsome hlink (ih hend hle)
  | stuck hdirectory => exact .stuck hdirectory

/-- **Composition.** A walk along two lists of names is one along the first and then, with the links
that are left, one along the second. -/
theorem walk_append {middle : Location} (after : List Name)
    (hwalk : walk entry false links location names = .found middle) :
    ∃ fewer, fewer ≤ links ∧ walk entry false links location (names ++ after)
      = walk entry false fewer middle after := by
  suffices hsuffices : ∃ fewer, fewer ≤ links ∧ ∀ status, Walks entry false fewer middle after status →
      Walks entry false links location (names ++ after) status by
    obtain ⟨fewer, hle, hafter⟩ := hsuffices
    exact ⟨fewer, hle, (hafter _ walks_walk).eq⟩
  rw [walk_iff] at hwalk
  generalize hstatus : Status.found middle = status at hwalk
  induction hwalk with
  | nil =>
    cases hstatus
    exact ⟨_, Nat.le_refl _, fun _ hafter => hafter⟩
  | stay hdirectory hname _ ih =>
    obtain ⟨fewer, hle, hafter⟩ := ih hstatus
    exact ⟨fewer, hle, fun status h => .stay hdirectory hname (hafter status h)⟩
  | up hdirectory _ ih =>
    obtain ⟨fewer, hle, hafter⟩ := ih hstatus
    exact ⟨fewer, hle, fun status h => .up hdirectory (hafter status h)⟩
  | absent => simp at hstatus
  | spent | stuck => cases hstatus
  | follow hdirectory hname hlink _ ih =>
    obtain ⟨fewer, hle, hafter⟩ := ih hstatus
    refine ⟨fewer, by omega, fun status h => ?_⟩
    have hrest := hafter status h
    rw [List.append_assoc] at hrest
    exact .follow hdirectory hname hlink hrest
  | down hdirectory hname hsome hlink _ ih =>
    obtain ⟨fewer, hle, hafter⟩ := ih hstatus
    exact ⟨fewer, hle, fun status h => .down hdirectory hname hsome hlink (hafter status h)⟩

theorem walk_failed (after : List Name) (hfails : ∀ end', status ≠ .found end')
    (hwalk : walk entry false links location names = status) :
    walk entry false links location (names ++ after) = status := by
  rw [walk_iff] at hwalk ⊢
  induction hwalk with
  | nil => exact absurd rfl (hfails _)
  | stay hdirectory hname _ ih => exact .stay hdirectory hname (ih hfails)
  | up hdirectory _ ih => exact .up hdirectory (ih hfails)
  | absent hdirectory hname hnone => exact .absent hdirectory hname hnone
  | spent hdirectory hname hlink => exact .spent hdirectory hname hlink
  | follow hdirectory hname hlink _ ih =>
    have hrest := ih hfails
    rw [List.append_assoc] at hrest
    exact .follow hdirectory hname hlink hrest
  | down hdirectory hname hsome hlink _ ih => exact .down hdirectory hname hsome hlink (ih hfails)
  | stuck hdirectory => exact .stuck hdirectory

theorem walk_of_append {after : List Name} {end' : Location}
    (hwalk : walk entry false links location (names ++ after) = .found end') :
    ∃ middle, walk entry false links location names = .found middle := by
  cases hnames : walk entry false links location names with
  | found middle => exact ⟨middle, rfl⟩
  | missing | loop => cases (walk_failed after (by simp) hnames).symm.trans hwalk

end Walk

namespace FileTree

variable {tree : FileTree}

def Real (tree : FileTree) (location : Location) : Prop :=
  tree.entry location ≠ none ∧ ∀ target, tree.entry location ≠ some (.link target)

theorem Real.of_directory {location : Location}
    (hdirectory : tree.entry location = some .directory) : tree.Real location :=
  ⟨by simp [hdirectory], by simp [hdirectory]⟩

theorem real_nil : tree.Real [] := .of_directory tree.root

theorem directory_dropLast {location : Location}
    (hdirectory : tree.entry location = some .directory) :
    tree.entry location.dropLast = some .directory := by
  rcases List.eq_nil_or_concat location with rfl | ⟨before, name, rfl⟩
  · exact hdirectory
  · rw [List.concat_eq_append, List.dropLast_concat]
    exact tree.parent before name (by simp [← List.concat_eq_append, hdirectory])

theorem directory_of_append {location names : List Name} (hnames : names ≠ [])
    (hsome : tree.entry (location ++ names) ≠ none) : tree.entry location = some .directory := by
  induction names using List.reverseRecOn with
  | nil => exact absurd rfl hnames
  | append_singleton names name ih =>
    rw [← List.append_assoc] at hsome
    have hparent := tree.parent _ _ hsome
    by_cases hnone : names = []
    · simpa [hnone] using hparent
    · exact ih hnone (by simp [hparent])

theorem proper_of_some {location : Location} (hsome : tree.entry location ≠ none) :
    ∀ name ∈ location, name.Proper := by
  induction location using List.reverseRecOn with
  | nil => simp
  | append_singleton location name ih =>
    have hparent := ih (by simp [tree.parent location name hsome])
    intro other hother
    rcases List.mem_append.mp hother with hother | hother
    · exact hparent other hother
    · rw [List.mem_singleton.mp hother]
      exact tree.proper location name hsome

/-- **Canonical paths.** The walk along the names of a location that is no link ends there. -/
theorem walk_real {create : Bool} {links : Nat} {base names : List Name}
    (hreal : tree.Real (base ++ names)) :
    walk tree.entry create links base names = .found (base ++ names) := by
  induction names generalizing base with
  | nil =>
    rw [List.append_nil]
    exact Walks.nil.eq
  | cons name rest ih =>
    have hbase := directory_of_append (by simp) hreal.1
    have hsplit : base ++ name :: rest = base ++ [name] ++ rest := by simp
    rw [hsplit] at hreal ⊢
    have hname : name.Proper := proper_of_some hreal.1 name (by simp)
    have hnext : tree.Real (base ++ [name]) := by
      by_cases hrest : rest = []
      · simpa [hrest] using hreal
      · exact .of_directory (directory_of_append hrest hreal.1)
    exact (Walks.down hbase hname hnext.1 hnext.2 (walk_iff.mp (ih hreal))).eq

variable {links : Nat} {location location' : Location} {names : List Name}

theorem real_of_walk (hreal : tree.Real location)
    (hwalk : walk tree.entry false links location names = .found location') :
    tree.Real location' := by
  rw [walk_iff] at hwalk
  generalize hstatus : Status.found location' = status at hwalk
  induction hwalk with
  | nil =>
    cases hstatus
    exact hreal
  | stay _ _ _ ih => exact ih hreal hstatus
  | up hdirectory _ ih => exact ih (.of_directory (directory_dropLast hdirectory)) hstatus
  | absent => simp at hstatus
  | spent | stuck => cases hstatus
  | follow _ _ _ _ ih =>
    refine ih ?_ hstatus
    unfold Path.start
    split
    · exact real_nil
    · exact hreal
  | down _ _ hsome hlink _ ih => exact ih ⟨hsome, hlink⟩ hstatus

def Creates (tree : FileTree) (location' : Location) (links : Nat) (location : Location)
    (names : List Name) : Prop :=
  Walks tree.entry false links location names (.found location') ∨
    ∃ before name directory, names = before ++ [name] ∧ name.Proper
      ∧ Walks tree.entry false links location before (.found directory)
      ∧ tree.entry directory = some .directory ∧ tree.entry (directory ++ [name]) = none
      ∧ location' = directory ++ [name]

theorem Creates.cons {middle : Location} {name : Name}
    (hcreates : tree.Creates location' links middle names)
    (hstep : ∀ {names status}, Walks tree.entry false links middle names status →
      Walks tree.entry false links location (name :: names) status) :
    tree.Creates location' links location (name :: names) := by
  refine hcreates.imp hstep ?_
  rintro ⟨before, last, directory, rfl, hlast, hbefore, hrest⟩
  exact ⟨name :: before, last, directory, rfl, hlast, hstep hbefore, hrest⟩

/-- **What an open creates.** A walk that creates ends at an entry of the tree, or adds the last name
of the path to the directory that the names before it lead to. It creates nothing behind a link,
since no link dangles. -/
theorem creates_of_walk (hlinks : links ≤ linkLimit)
    (hwalk : walk tree.entry true links location names = .found location') :
    tree.Creates location' links location names := by
  rw [walk_iff] at hwalk
  generalize hstatus : Status.found location' = status at hwalk
  induction hwalk with
  | nil =>
    cases hstatus
    exact .inl .nil
  | stay hdirectory hname _ ih => exact (ih hlinks hstatus).cons (.stay hdirectory hname)
  | up hdirectory _ ih => exact (ih hlinks hstatus).cons (.up hdirectory)
  | @absent _ location name rest hdirectory hname hnone =>
    cases rest with
    | nil => exact .inr ⟨[], name, location, rfl, hname, .nil, hdirectory, hnone, by simpa using hstatus⟩
    | cons next rest => simp at hstatus
  | spent | stuck => cases hstatus
  | @follow links location name rest _ target hdirectory hname hlink _ ih =>
    refine (ih (by omega) hstatus).imp (.follow hdirectory hname hlink) ?_
    rintro ⟨before, last, directory, hnames, hlast, hbefore, hdirectory', hnone, hend⟩
    rcases List.eq_nil_or_concat rest with rfl | ⟨middle, last', rfl⟩
    · -- The missing name would be the last one of the link's target.
      obtain ⟨end', hend'⟩ := tree.resolves location name target hlink
      rw [List.append_nil] at hnames
      rw [hnames] at hend'
      have hsame := walk_of_le (by simp) (show links ≤ linkLimit by omega) hbefore.eq
      obtain ⟨left, -, heq⟩ := walk_append [last] hsame
      rw [heq, (Walks.absent hdirectory' hlast hnone).eq] at hend'
      simp at hend'
    · rw [List.concat_eq_append, ← List.append_assoc] at hnames
      obtain ⟨hbefore', hlast'⟩ := List.append_inj' hnames rfl
      obtain rfl : last' = last := by simpa using hlast'
      refine ⟨name :: middle, last', directory, by simp, hlast, ?_, hdirectory', hnone, hend⟩
      exact .follow hdirectory hname hlink (hbefore' ▸ hbefore)
  | down hdirectory hname hsome hlink _ ih =>
    exact (ih hlinks hstatus).cons (.down hdirectory hname hsome hlink)

/-! ### Canonical forms -/

theorem status_real {location : Location} (hreal : tree.Real location) :
    tree.status ⟨true, location⟩ = .found location := by
  have hreal' : tree.Real ([] ++ location) := hreal
  exact walk_real hreal'

theorem real_of_status {path : Path} {location : Location}
    (hstatus : tree.status path = .found location) : tree.Real location :=
  real_of_walk real_nil hstatus

theorem weaklyCanonical_found {path : Path} {location : Location}
    (hstatus : tree.status path = .found location) :
    tree.weaklyCanonical path = some ⟨true, location⟩ := by
  simp [weaklyCanonical, hstatus]

theorem status_of_append {names after : List Name} {location : Location}
    (hstatus : tree.status ⟨true, names ++ after⟩ = .found location) :
    ∃ middle, tree.status ⟨true, names⟩ = .found middle :=
  walk_of_append hstatus

theorem leading_of_found {seen reached names : List Name} {location : Location}
    (hreached : tree.status ⟨true, seen ++ reached⟩ = .found location) :
    tree.leading seen (reached ++ names) = tree.leading (seen ++ reached) names := by
  induction reached generalizing seen with
  | nil => rw [List.nil_append, List.append_nil]
  | cons name reached ih =>
    have hsplit : seen ++ name :: reached = seen ++ [name] ++ reached := by simp
    rw [hsplit] at hreached ⊢
    obtain ⟨middle, hmiddle⟩ := status_of_append hreached
    rw [List.cons_append, leading, hmiddle]
    exact ih hreached

theorem append_of_leading {seen names before rest : List Name}
    (hleading : tree.leading seen names = some (before, rest)) :
    seen <+: before ∧ before ++ rest = seen ++ names := by
  induction names generalizing seen with
  | nil =>
    cases hleading
    exact ⟨List.prefix_refl _, rfl⟩
  | cons name names ih =>
    unfold leading at hleading
    split at hleading
    · obtain ⟨hseen, happend⟩ := ih hleading
      exact ⟨(List.prefix_append _ _).trans hseen, by simpa using happend⟩
    · cases hleading
      exact ⟨List.prefix_refl _, rfl⟩
    · cases hleading

/-- **What is opened.** A file that is opened, or created, under a path is at the location that the
canonical form of the path names. -/
theorem weaklyCanonical_of_opens {path : Path} {location : Location}
    (hopens : tree.opens path = .found location) :
    tree.weaklyCanonical path = some ⟨true, location⟩ := by
  rcases creates_of_walk (Nat.le_refl _) hopens with
    hfound | ⟨before, name, directory, hnames, hname, hbefore, hdirectory, hnone, hlocation⟩
  · exact weaklyCanonical_found hfound.eq
  · obtain ⟨left, -, heq⟩ := walk_append [name] hbefore.eq
    rw [(Walks.absent hdirectory hname hnone).eq] at heq
    have hmissing : tree.status ⟨true, before ++ [name]⟩ = .missing := heq
    have hpath : tree.status path = .missing := by rw [status, hnames]; exact hmissing
    have hstatus : tree.status ⟨true, [] ++ before⟩ = .found directory := hbefore.eq
    have hleading : tree.leading [] path.elements = some (before, [name]) := by
      rw [hnames, leading_of_found hstatus, List.nil_append]
      simp [leading, hmissing]
    rw [List.nil_append] at hstatus
    have hproper : ∀ other ∈ directory ++ [name], other.Proper := by
      intro other hother
      rcases List.mem_append.mp hother with hother | hother
      · exact proper_of_some (Real.of_directory hdirectory).1 other hother
      · rwa [List.mem_singleton.mp hother]
    simp only [weaklyCanonical, hpath, hleading, hstatus, lexicallyNormal_of_proper hproper,
      hlocation]

theorem absolute_of_weaklyCanonical {path canonical : Path}
    (hcanonical : tree.weaklyCanonical path = some canonical) : canonical.absolute = true := by
  unfold weaklyCanonical at hcanonical
  split at hcanonical
  · rw [← Option.some.inj hcanonical]
  · cases hcanonical
  · split at hcanonical
    · cases hcanonical
    · split at hcanonical
      · rw [← Option.some.inj hcanonical, absolute_lexicallyNormal]
      · cases hcanonical

theorem normal_of_weaklyCanonical {path canonical : Path}
    (hcanonical : tree.weaklyCanonical path = some canonical) :
    ∃ names tail, Normal canonical names tail := by
  unfold weaklyCanonical at hcanonical
  split at hcanonical
  · rename_i location hstatus
    rw [← Option.some.inj hcanonical]
    exact ⟨location, [], by rw [List.append_nil], proper_of_some (real_of_status hstatus).1,
      Or.inl rfl⟩
  · cases hcanonical
  · split at hcanonical
    · cases hcanonical
    · split at hcanonical
      · rw [← Option.some.inj hcanonical]
        exact normal_lexicallyNormal _
      · cases hcanonical

theorem relative_eq {path canonical : Path} {base : Location} (hbase : tree.Real base)
    (hcanonical : tree.weaklyCanonical path = some canonical) :
    tree.relative path ⟨true, base⟩ = some (canonical.lexicallyRelative ⟨true, base⟩) := by
  simp [relative, hcanonical, weaklyCanonical_found (status_real hbase)]

theorem weaklyCanonical_of_relative {path base relative : Path}
    (hrelative : tree.relative path base = some relative) :
    ∃ canonical, tree.weaklyCanonical path = some canonical := by
  unfold FileTree.relative at hrelative
  split at hrelative
  · exact ⟨_, ‹_›⟩
  · cases hrelative

theorem status_trailing {names : List Name} {location : Location}
    (hnames : tree.status ⟨true, names⟩ = .found location) :
    tree.status ⟨true, names ++ [[]]⟩ = .found location
      ∨ tree.status ⟨true, names ++ [[]]⟩ = .missing := by
  obtain ⟨left, -, heq⟩ := walk_append [[]] hnames
  by_cases hdirectory : tree.entry location = some .directory
  · exact .inl (heq.trans (Walks.stay hdirectory (.inl rfl) .nil).eq)
  · exact .inr (heq.trans (Walks.stuck hdirectory).eq)

theorem status_withoutTrailing {path : Path} {location : Location}
    (hstatus : tree.status path = .found location) :
    tree.status ⟨true, path.withoutTrailing⟩ = .found location := by
  unfold Path.withoutTrailing
  split
  · rename_i hlast
    have hsplit : path.elements.dropLast ++ [[]] = path.elements :=
      List.dropLast_append_getLast? [] (by simp [hlast])
    have hstatus' : tree.status ⟨true, path.elements.dropLast ++ [[]]⟩ = .found location := by
      rw [hsplit]
      exact hstatus
    obtain ⟨middle, hmiddle⟩ := status_of_append hstatus'
    rcases status_trailing hmiddle with hfound | hmissing
    · rw [hmiddle, ← hfound, hstatus']
    · rw [hmissing] at hstatus'
      cases hstatus'
  · exact hstatus

/-- **Entries of a directory.** The canonical form of an entry is its location, or where it leads to
if it is a link. -/
theorem weaklyCanonical_child {path canonical : Path} {directory : Location} {name : Name}
    (hstatus : tree.status path = .found directory)
    (hsome : tree.entry (directory ++ [name]) ≠ none)
    (hcanonical : tree.weaklyCanonical (path / (⟨false, [name]⟩ : Path)) = some canonical) :
    canonical = ⟨true, directory ++ [name]⟩ ∨
      ∃ target location, tree.entry (directory ++ [name]) = some (.link target)
        ∧ walk tree.entry false linkLimit (target.start directory) target.elements = .found location
        ∧ canonical = ⟨true, location⟩ := by
  have hdirectory := tree.parent _ _ hsome
  have hname := tree.proper _ _ hsome
  have hpath : tree.status (path / (⟨false, [name]⟩ : Path))
      = tree.status ⟨true, path.withoutTrailing ++ [name]⟩ := rfl
  obtain ⟨left, hleft, heq⟩ := walk_append [name] (status_withoutTrailing hstatus)
  have hstep : tree.status (path / (⟨false, [name]⟩ : Path))
      = walk tree.entry false left directory [name] := hpath.trans heq
  by_cases hlink : ∃ target, tree.entry (directory ++ [name]) = some (.link target)
  · obtain ⟨target, hlink⟩ := hlink
    obtain ⟨location, hlocation⟩ := tree.resolves _ _ _ hlink
    refine Or.inr ⟨target, location, hlink, hlocation, ?_⟩
    -- With the links that are left the walk reaches the same place, or gives up.
    have hfollow : walk tree.entry false (linkLimit + 1) directory [name] = .found location := by
      refine (Walks.follow hdirectory hname hlink ?_).eq
      rw [List.append_nil]
      exact walk_iff.mp hlocation
    have hmore : ∀ status, tree.status (path / (⟨false, [name]⟩ : Path)) = status →
        status ≠ .loop → .found location = status := fun status hcase hend =>
      hfollow.symm.trans (walk_of_le hend (by omega) (hstep.symm.trans hcase))
    cases hcase : tree.status (path / (⟨false, [name]⟩ : Path)) with
    | found location' =>
      rw [weaklyCanonical_found hcase] at hcanonical
      rw [← Option.some.inj hcanonical, Status.found.inj (hmore _ hcase (by simp))]
    | missing => cases hmore _ hcase (by simp)
    | loop =>
      unfold weaklyCanonical at hcanonical
      rw [hcase] at hcanonical
      cases hcanonical
  · rw [not_exists] at hlink
    have hdown := hstep.trans (Walks.down hdirectory hname hsome hlink .nil).eq
    rw [weaklyCanonical_found hdown] at hcanonical
    exact Or.inl (Option.some.inj hcanonical).symm

/-- Nothing on the way along the names, from the base on, leads out of the base. -/
def Stays (tree : FileTree) (base names : List Name) : Prop :=
  ∀ before location, base <+: before → before <+: names →
    tree.status ⟨true, before⟩ = .found location → base <+: location

/-- **Under the base.** The canonical form of a path under a directory is under it when no link on the
way leads out of it. -/
theorem weaklyCanonical_under {base names : List Name} {canonical : Path}
    (hnames : ∀ name ∈ names, name.Proper) (hreal : tree.Real base) (hbase : base <+: names)
    (hstays : tree.Stays base names)
    (hcanonical : tree.weaklyCanonical ⟨true, names⟩ = some canonical) :
    canonical.absolute = true ∧ base <+: canonical.elements := by
  unfold weaklyCanonical at hcanonical
  split at hcanonical
  · rename_i location hstatus
    rw [← Option.some.inj hcanonical]
    exact ⟨rfl, hstays names location hbase (List.prefix_refl _) hstatus⟩
  · cases hcanonical
  · split at hcanonical
    · cases hcanonical
    · rename_i seen rest hleading
      split at hcanonical
      · rename_i location hstatus
        have happend : seen ++ rest = names := (append_of_leading hleading).2
        -- The base exists, so that the leading names go at least as far.
        have hseen : base <+: seen := by
          obtain ⟨after, rfl⟩ := hbase
          have hreached : tree.status ⟨true, [] ++ base⟩ = .found base := status_real hreal
          rw [leading_of_found hreached] at hleading
          exact (append_of_leading hleading).1
        have hproper : ∀ name ∈ location ++ rest, name.Proper := by
          intro name hname
          rcases List.mem_append.mp hname with hname | hname
          · exact proper_of_some (real_of_status hstatus).1 name hname
          · exact hnames name (happend ▸ List.mem_append_right _ hname)
        rw [lexicallyNormal_of_proper hproper] at hcanonical
        rw [← Option.some.inj hcanonical]
        have hlocation := hstays seen location hseen (happend ▸ List.prefix_append _ _) hstatus
        exact ⟨rfl, hlocation.trans (List.prefix_append _ _)⟩
      · cases hcanonical

end FileTree

end Filesystem
