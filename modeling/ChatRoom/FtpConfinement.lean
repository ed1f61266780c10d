import Mathlib.Data.List.Infix
import ChatRoom.Ftp.Commands
import ChatRoom.Lib.Runs

/-!
# The root of the FTP server

Every argument of a command goes through `resolvePath`, which compares canonical forms, so that no
`..`, absolute path or link leads `CWD`, `RETR` and `LIST` of a file out of the root.
-/

namespace ChatRoom.Ftp

open Filesystem Transition

def Inside (root : Location) (path : Path) : Prop := path.absolute = true ∧ root <+: path.elements

/-- A path never leads out of the root: neither its canonical form does, nor what is opened or
created under it. A path that the system cannot walk has no canonical form. -/
structure Confined (root : Location) (tree : FileTree) (path : Path) : Prop where
  canonical : ∀ canonical, tree.weaklyCanonical path = some canonical → Inside root canonical
  opened : ∀ location, tree.opens path = .found location → root <+: location

def Denotes (root : Location) (tree : FileTree) (cwdRel : Path) : Prop :=
  ∃ location, tree.status (rootPath root / cwdRel) = .found location
    ∧ tree.entry location = some .directory ∧ root <+: location

def LinksStay (root : Location) (tree : FileTree) (directory : Location) : Prop :=
  ∀ name target location, tree.entry (directory ++ [name]) = some (.link target) →
    walk tree.entry false linkLimit (target.start directory) target.elements = .found location →
    root <+: location

section Paths

variable {root : Location} {tree : FileTree} {world : World root} {session : Session}

theorem Confined.of_canonical {path : Path}
    (hcanonical : ∀ canonical, tree.weaklyCanonical path = some canonical → Inside root canonical) :
    Confined root tree path :=
  ⟨hcanonical, fun _ hopens => (hcanonical _ (FileTree.weaklyCanonical_of_opens hopens)).2⟩

theorem Confined.of_eq {path : Path} {names : List Name}
    (hcanonical : tree.weaklyCanonical path = some ⟨true, names⟩) (hnames : root <+: names) :
    Confined root tree path := by
  apply Confined.of_canonical
  intro canonical hcanonical'
  obtain rfl : ⟨true, names⟩ = canonical := Option.some.inj (hcanonical.symm.trans hcanonical')
  exact ⟨rfl, hnames⟩

theorem World.real (world : World root) : world.tree.Real root := .of_directory world.rooted

theorem World.proper (world : World root) : ∀ name ∈ root, name.Proper :=
  FileTree.proper_of_some world.real.1

theorem canonical_of_pathInsideRoot {path : Path}
    (hinside : pathInsideRoot world.tree (rootPath root) path = true) :
    ∃ rest, world.tree.weaklyCanonical path = some ⟨true, root ++ rest⟩ := by
  unfold pathInsideRoot at hinside
  split at hinside
  · cases hinside
  · rename_i rel hrel
    obtain ⟨⟨absolute, names⟩, hcanonical⟩ := FileTree.weaklyCanonical_of_relative hrel
    obtain rfl : absolute = true := FileTree.absolute_of_weaklyCanonical hcanonical
    rw [rootPath, FileTree.relative_eq world.real hcanonical] at hrel
    have hdots : dotDot ∉ rel.elements := by
      intro hmem
      simp [hmem] at hinside
    rw [← Option.some.inj hrel] at hdots
    obtain ⟨rest, rfl⟩ := append_of_lexicallyRelative world.proper hdots
    exact ⟨rest, hcanonical⟩

theorem canonical_of_resolvePath {arg : Bytes} {path : Path}
    (hpath : resolvePath world session arg = some path) :
    ∃ rest, world.tree.weaklyCanonical path = some ⟨true, root ++ rest⟩ := by
  simp only [resolvePath, Option.ite_none_right_eq_some, Option.some.injEq] at hpath
  obtain ⟨hinside, rfl⟩ := hpath
  exact canonical_of_pathInsideRoot hinside

theorem confined_of_resolvePath {arg : Bytes} {path : Path}
    (hpath : resolvePath world session arg = some path) : Confined root world.tree path := by
  obtain ⟨rest, hcanonical⟩ := canonical_of_resolvePath hpath
  exact .of_eq hcanonical (List.prefix_append _ _)

theorem absolute_combined (arg : Bytes) : (combined root session arg).absolute = true := by
  unfold combined
  dsimp only
  split_ifs
  · exact absolute_append rfl
  · exact absolute_append rfl
  · exact absolute_append (absolute_append rfl)

theorem normal_of_resolvePath {arg : Bytes} {path : Path}
    (hpath : resolvePath world session arg = some path) : ∃ names tail, Normal path names tail := by
  simp only [resolvePath, Option.ite_none_right_eq_some, Option.some.injEq] at hpath
  obtain ⟨-, rfl⟩ := hpath
  split
  · exact FileTree.normal_of_weaklyCanonical ‹_›
  · have habsolute : (combined root session arg).absolute = true := absolute_combined arg
    rcases hcombined : combined root session arg with ⟨absolute, elements⟩
    obtain rfl : absolute = true := by rw [hcombined] at habsolute; exact habsolute
    exact normal_lexicallyNormal elements

theorem confined_of_directoryEntries {path entry : Path}
    (hpath : ∃ rest, tree.weaklyCanonical path = some ⟨true, root ++ rest⟩)
    (hlinks : ∀ directory, tree.status path = .found directory → LinksStay root tree directory)
    (hentry : entry ∈ directoryEntries tree path) : Confined root tree entry := by
  obtain ⟨rest, hcanonical⟩ := hpath
  unfold directoryEntries at hentry
  split at hentry
  · rename_i directory hstatus
    rw [FileTree.weaklyCanonical_found hstatus, Option.some.injEq, Filesystem.Path.mk.injEq]
      at hcanonical
    obtain ⟨name, hname, rfl⟩ := List.mem_map.mp hentry
    have hsome := (tree.listed directory name).mp hname
    apply Confined.of_canonical
    intro canonical hchild
    rcases FileTree.weaklyCanonical_child hstatus hsome hchild with
      rfl | ⟨target, location, hlink, hwalk, rfl⟩
    · rw [hcanonical.2, List.append_assoc]
      exact ⟨rfl, List.prefix_append _ _⟩
    · exact ⟨rfl, hlinks directory hstatus name target location hlink hwalk⟩
  · cases hentry

theorem confined_parentPath {path : Path} {names tail : List Name} (hreal : tree.Real root)
    (hnormal : Normal path names tail) (hbelow : root <+: path.parentPath.elements)
    (hstays : tree.Stays root path.parentPath.elements) : Confined root tree path.parentPath := by
  obtain ⟨rfl, hnames, htail⟩ := hnormal
  have hproper : ∀ name ∈ (names ++ tail).dropLast, name.Proper := by
    rcases htail with rfl | rfl
    · rw [List.append_nil]
      exact fun name hname => hnames name (List.dropLast_subset _ hname)
    · rwa [List.dropLast_concat]
  exact .of_canonical fun _ => FileTree.weaklyCanonical_under hproper hreal hbelow hstays

def Remembered (root : Location) (tree : FileTree) (cwdRel : Path) : Prop :=
  ∃ rest, cwdRel = ⟨false, if rest = [] then [dot] else rest⟩
    ∧ tree.entry (root ++ rest) = some .directory

theorem Remembered.start (hroot : tree.entry root = some .directory) :
    Remembered root tree Session.start.cwdRel :=
  ⟨[], rfl, by rwa [List.append_nil]⟩

theorem Remembered.extends {later : FileTree} {cwdRel : Path}
    (hremembered : Remembered root tree cwdRel) (hextends : later.Extends tree) :
    Remembered root later cwdRel := by
  obtain ⟨rest, hcwd, hentry⟩ := hremembered
  exact ⟨rest, hcwd, hextends _ _ hentry⟩

theorem Remembered.denotes {cwdRel : Path} (hremembered : Remembered root tree cwdRel) :
    Denotes root tree cwdRel := by
  obtain ⟨rest, rfl, hentry⟩ := hremembered
  have hreal : tree.Real (root ++ rest) := .of_directory hentry
  have hproper : ∀ name ∈ root ++ rest, name.Proper := FileTree.proper_of_some hreal.1
  have hlast : root.getLast? ≠ some [] :=
    fun hlast => (hproper [] (List.mem_append_left _ (List.mem_of_getLast? hlast))).1 rfl
  have hpath : tree.status (rootPath root / (⟨false, if rest = [] then [dot] else rest⟩ : Path))
      = tree.status ⟨true, root ++ if rest = [] then [dot] else rest⟩ := by
    have hne : (if rest = [] then [dot] else rest) ≠ [] := by split_ifs <;> simp_all
    change tree.status (Path.append _ _) = _
    simp only [Path.append, Bool.false_eq_true, hne, if_false, Path.withoutTrailing, rootPath, hlast]
  refine ⟨root ++ rest, ?_, hentry, List.prefix_append _ _⟩
  rw [hpath]
  by_cases hrest : rest = []
  · subst hrest
    rw [List.append_nil] at hentry hreal ⊢
    obtain ⟨left, -, heq⟩ := walk_append [dot] (FileTree.status_real hreal)
    exact heq.trans (Walks.stay hentry (.inr rfl) .nil).eq
  · rw [if_neg hrest]
    exact FileTree.status_real hreal

end Paths

/-! ### Commands -/

section Commands

variable {root : Location} {world : World root} {session : Session} {arg : Bytes}

theorem path_of_formatListLine {tree : FileTree} {path : Path} {operation : Operation}
    (hmem : operation ∈ (formatListLine tree path).1) : operation.path = path := by
  unfold formatListLine at hmem
  dsimp only at hmem
  split at hmem <;> simp only [List.mem_cons, List.not_mem_nil, or_false] at hmem
  · rcases hmem with rfl | rfl <;> rfl
  · rcases hmem with rfl | rfl | rfl <;> rfl
  · rcases hmem with rfl | rfl | rfl <;> rfl

theorem touches_CWD :
    Touches world session arg .cwd (handleCWD world session arg).operations := by
  unfold handleCWD
  split
  · rename_i hlogin
    cases hpath : resolvePath world session arg with
    | none => exact touches_nil
    | some target =>
      dsimp only
      split <;> exact touches_of_path hlogin hpath (by simp [Handed, throws, respond])
  · exact touches_nil

theorem touches_LIST :
    Touches world session arg .list (handleLIST world session arg).operations := by
  obtain ⟨what, haccept, hconnects⟩ := acceptDataConnection_cases world session
  unfold handleLIST
  split
  · rename_i hlogin
    cases hpath : resolvePath world session arg with
    | none => exact touches_nil
    | some target =>
      dsimp only
      split
      · exact touches_of_path hlogin hpath (by simp [Handed, throws])
      · exact touches_of_path hlogin hpath (by simp [Handed, respond])
      · split
        · exact touches_of_path hlogin hpath (by simp [Handed, throws])
        · rename_i haccepted
          obtain rfl : what = none := (Prod.mk.inj (haccept.symm.trans haccepted)).2
          have hlooked : ∀ operation ∈ ([⟨.exists, target⟩, ⟨.isDirectory, target⟩] : List Operation)
              ++ [⟨.iterate, target⟩], Handed world session arg .list target operation.path := by
            simp [Handed]
          have hentry : ∀ entry ∈ directoryEntries world.tree target,
              ∀ operation ∈ (formatListLine world.tree entry).1,
                Handed world session arg .list target operation.path :=
            fun entry hentry operation hoperation =>
              .inr (.inl ⟨rfl, hconnects, by rwa [path_of_formatListLine hoperation]⟩)
          refine touches_of_path hlogin hpath fun operation hmem => ?_
          split_ifs at hmem
          · split at hmem
            · rcases List.mem_append.mp hmem with hmem | hmem
              · exact hlooked operation hmem
              · obtain ⟨entry, hlisted, hoperation⟩ := List.mem_flatMap.mp hmem
                exact hentry entry (List.mem_of_mem_take hlisted) operation hoperation
            · rcases List.mem_append.mp hmem with hmem | hmem
              · exact hlooked operation hmem
              · obtain ⟨line, hline, hoperation⟩ := List.mem_flatMap.mp hmem
                obtain ⟨entry, hlisted, rfl⟩ := List.mem_map.mp hline
                exact hentry entry hlisted operation hoperation
          · rcases List.mem_append.mp hmem with hmem | hmem
            · exact hlooked operation (List.mem_append_left _ hmem)
            · obtain ⟨line, hline, hoperation⟩ := List.mem_flatMap.mp hmem
              obtain rfl := List.mem_singleton.mp hline
              exact .inl (path_of_formatListLine hoperation)
  · exact touches_nil

theorem touches_handle {verb : Verb} :
    Touches world session arg verb (handle world session verb arg).operations := by
  cases hquiet : verb.quiet with
  | true =>
    rw [(handle_quiet hquiet).1]
    exact touches_nil
  | false =>
    cases verb with
    | cwd => exact touches_CWD
    | list => exact touches_LIST
    | retr => exact ends_handleRETR.touches
    | stor => exact ends_handleSTOR.touches
    | _ => cases hquiet

theorem cwdRel_CWD :
    (handleCWD world session arg).session.cwdRel = session.cwdRel
      ∨ Remembered root world.tree (handleCWD world session arg).session.cwdRel := by
  unfold handleCWD
  split
  · cases hpath : resolvePath world session arg with
    | none => exact Or.inl rfl
    | some target =>
      dsimp only
      split
      · exact Or.inl rfl
      · exact Or.inl rfl
      · rename_i hlookup
        right
        obtain ⟨rest, hcanonical⟩ := canonical_of_resolvePath hpath
        unfold FileTree.lookup at hlookup
        split at hlookup
        · rename_i location hstatus
          have hlocation := hcanonical
          rw [FileTree.weaklyCanonical_found hstatus, Option.some.injEq, Filesystem.Path.mk.injEq]
            at hlocation
          obtain ⟨-, rfl⟩ := hlocation
          have hentry : world.tree.entry (root ++ rest) = some .directory :=
            Option.some.inj hlookup
          have hproper : ∀ name ∈ rest, name.Proper := fun name hname =>
            FileTree.proper_of_some (FileTree.Real.of_directory hentry).1 name
              (List.mem_append_right _ hname)
          have hrel := FileTree.relative_eq world.real hcanonical
          rw [lexicallyRelative_append root rest hproper] at hrel
          have hne : (if rest = [] then [dot] else rest) ≠ [] := by split_ifs <;> simp_all
          refine ⟨rest, ?_, hentry⟩
          simp only [respond, rootPath, hrel, hne, if_false]
        · cases hlookup
        · cases hlookup
      · exact Or.inl rfl
  · exact Or.inl rfl

/-- **What a session remembers.** Only `CWD` changes the remembered directory. -/
theorem cwdRel_handle (world : World root) (session : Session) (verb : Verb) (arg : Bytes) :
    (handle world session verb arg).session.cwdRel = session.cwdRel
      ∨ Remembered root world.tree (handle world session verb arg).session.cwdRel := by
  cases hquiet : verb.quiet with
  | true => exact .inl (handle_quiet hquiet).2.1
  | false =>
    cases verb with
    | cwd => exact cwdRel_CWD
    | list =>
      rcases session_handleLIST with hsession | hsession <;> exact .inl (by rw [handle, hsession])
    | retr => exact .inl ends_handleRETR.kept.1
    | stor => exact .inl ends_handleSTOR.kept.1
    | _ => cases hquiet

end Commands

/-! ### Runs -/

section Runs

variable {root : Location}

/-- A command that neither lists a directory with a link out of the root nor stores under a directory
that is not under the root or that a link out of the root leads to. -/
def Harmless (state : State) (event : Event root) : Prop :=
  let command := parseCommand (trim event.line)
  let tree := event.world.tree
  state.session.loggedIn = true →
    ∀ path, resolvePath event.world state.session command.rawArguments = some path →
      (verb command.name = .list → connects event.world state.session = true →
        ∀ directory, tree.status path = .found directory → LinksStay root tree directory) ∧
      (verb command.name = .stor → command.rawArguments.isEmpty = false →
        root <+: path.parentPath.elements ∧ tree.Stays root path.parentPath.elements)

/-- A command that finds everything that the command before it has found. -/
def Grows (state : State) (event : Event root) : Prop := event.world.tree.Extends state.tree

def response (state : State) (event : Event root) : Response :=
  handle event.world state.session (verb (parseCommand (trim event.line)).name)
    (parseCommand (trim event.line)).rawArguments

theorem next_cases {state state' : State} {event : Event root}
    (hnext : next state event = some state') :
    state' = { state with tree := event.world.tree } ∨
      ∃ closed, state' = ⟨(response state event).session, closed, event.world.tree,
        state.passed ++ (response state event).operations.map
          fun operation => (event.world.tree, operation.path)⟩ := by
  unfold next at hnext
  dsimp only at hnext
  split_ifs at hnext
  · exact Or.inl (Option.some.inj hnext).symm
  · exact Or.inr ⟨_, (Option.some.inj hnext).symm⟩

theorem confined_of_handed {state : State} {event : Event root} (hharmless : Harmless state event)
    {operation : Operation} (hmem : operation ∈ (response state event).operations) :
    Confined root event.world.tree operation.path := by
  obtain ⟨hlogin, path, hpath, hhanded⟩ := touches_handle operation hmem
  obtain ⟨hlist, hstor⟩ := hharmless hlogin path hpath
  rcases hhanded with hsame | ⟨hverb, hconnects, hentry⟩ | ⟨hverb, hargument, hparent⟩
  · rw [hsame]
    exact confined_of_resolvePath hpath
  · exact confined_of_directoryEntries (canonical_of_resolvePath hpath) (hlist hverb hconnects) hentry
  · obtain ⟨names, tail, hnormal⟩ := normal_of_resolvePath hpath
    obtain ⟨hbelow, hstays⟩ := hstor hverb hargument
    rw [hparent]
    exact confined_parentPath event.world.real hnormal hbelow hstays

theorem confined_next {state state' : State} {event : Event root}
    (hconfined : ∀ passed ∈ state.passed, Confined root passed.1 passed.2)
    (hharmless : Harmless state event) (hnext : next state event = some state') :
    ∀ passed ∈ state'.passed, Confined root passed.1 passed.2 := by
  rcases next_cases hnext with rfl | ⟨closed, rfl⟩
  · exact hconfined
  · intro passed hpassed
    rcases List.mem_append.mp hpassed with hearlier | hnew
    · exact hconfined passed hearlier
    · obtain ⟨operation, hoperation, rfl⟩ := List.mem_map.mp hnew
      exact confined_of_handed hharmless hoperation

theorem remembered_next {state state' : State} {event : Event root}
    (hremembered : Remembered root state.tree state.session.cwdRel) (hgrows : Grows state event)
    (hnext : next state event = some state') :
    Remembered root state'.tree state'.session.cwdRel := by
  have hkept := hremembered.extends hgrows
  rcases next_cases hnext with rfl | ⟨closed, rfl⟩
  · exact hkept
  · rcases cwdRel_handle event.world state.session _ _ with hsame | hnew
    · dsimp only [response]
      rw [hsame]
      exact hkept
    · exact hnew

theorem grows_of_fixed {tree : FileTree} {events : List (Event root)} {state : State}
    (hrun : Run next anyStep (State.start tree) events state)
    (hfixed : ∀ event ∈ events, event.world.tree = tree) :
    Run next Grows (State.start tree) events state ∧ state.tree = tree := by
  induction hrun with
  | nil => exact ⟨.nil, rfl⟩
  | @snoc events state state' event _ _ hnext ih =>
    obtain ⟨hearlier, htree⟩ := ih fun event hevent => hfixed event (List.mem_append_left _ hevent)
    have hevent : event.world.tree = tree := hfixed event (by simp)
    have hgrows : Grows state event := by
      unfold Grows
      rw [htree, hevent]
      exact fun _ _ hentry => hentry
    refine ⟨.snoc hearlier hgrows hnext, ?_⟩
    rcases next_cases hnext with rfl | ⟨closed, rfl⟩ <;> exact hevent

/-- **The root confines.** In every run whose `LIST` and `STOR` commands meet the condition, whatever
the trees between commands are, every path that was handed to a file operation stays under the root;
and in every run in which nothing that a command has found is gone or changed later, the remembered
directory is a directory under the root. -/
theorem paths_under_root (tree : FileTree) (hroot : tree.entry root = some .directory) :
    (∀ (events : List (Event root)) state, Run next Harmless (State.start tree) events state →
      ∀ passed ∈ state.passed, Confined root passed.1 passed.2) ∧
    (∀ (events : List (Event root)) state, Run next Grows (State.start tree) events state →
      Denotes root state.tree state.session.cwdRel) := by
  constructor
  · intro events state hrun
    exact hrun.invariant (fun state => ∀ passed ∈ state.passed, Confined root passed.1 passed.2)
      (fun _ _ _ hconfined hharmless hnext => confined_next hconfined hharmless hnext)
      (by simp [State.start])
  · intro events state hrun
    have hremembered := hrun.invariant
      (fun state => Remembered root state.tree state.session.cwdRel)
      (fun _ _ _ hremembered hgrows hnext => remembered_next hremembered hgrows hnext)
      (Remembered.start hroot)
    exact hremembered.denotes

end Runs

/-! ### The root left -/

def exampleTree : FileTree :=
  .ofTable [([[114]], .directory), ([[114], [100]], .directory), ([[115]], .file 7),
    ([[114], [120]], .link ⟨true, [[115]]⟩)] (by decide +kernel)

def laterTree : FileTree :=
  .ofTable [([[114]], .directory), ([[115]], .file 7), ([[114], [120]], .link ⟨true, [[115]]⟩)]
    (by decide +kernel)

def exampleWorld (tree : FileTree) (hroot : tree.entry [[114]] = some .directory) :
    World [[114]] :=
  { tree, rooted := hroot, dataConnection := .accepted, passivePort := some 50000,
    localIp := utf8 "127.0.0.1", iterationFails := none, opened := true, seeked := true,
    transferred := true, systemError := [] }

def exampleEvent (line : String) : Event [[114]] :=
  ⟨utf8 line, exampleWorld exampleTree (by decide +kernel)⟩

def laterEvent (line : String) : Event [[114]] :=
  ⟨utf8 line, exampleWorld laterTree (by decide +kernel)⟩

theorem not_confined {root : Location} {tree : FileTree} {path canonical : Path}
    (hcanonical : tree.weaklyCanonical path = some canonical)
    (houtside : ¬root <+: canonical.elements) : ¬Confined root tree path :=
  fun hconfined => houtside (hconfined.canonical canonical hcanonical).2

def harmlessCheck {root : Location} (state : State) (event : Event root) : Bool :=
  let command := parseCommand (trim event.line)
  match resolvePath event.world state.session command.rawArguments with
  | none => true
  | some path =>
    (verb command.name != .list || (directoryEntries event.world.tree path).isEmpty) &&
    (verb command.name != .stor || (root.isPrefixOf path.parentPath.elements &&
      path.parentPath.elements.inits.all fun before =>
        match event.world.tree.status ⟨true, before⟩ with
        | .found location => !root.isPrefixOf before || root.isPrefixOf location
        | _ => true))

theorem harmless_of_check {root : Location} (state : State) (event : Event root)
    (hcheck : harmlessCheck state event = true) : Harmless state event := by
  intro _ path hpath
  simp only [harmlessCheck, hpath, Bool.and_eq_true, Bool.or_eq_true, bne_iff_ne,
    List.isPrefixOf_iff_prefix, List.all_eq_true, List.mem_inits] at hcheck
  obtain ⟨hlist, hstor⟩ := hcheck
  constructor
  · intro hverb _ directory hstatus name target location hlink
    have hnone := hlist.resolve_left (not_not_intro hverb)
    simp only [directoryEntries, hstatus, List.isEmpty_map, List.isEmpty_iff] at hnone
    have hname := (event.world.tree.listed directory name).mpr (by simp [hlink])
    rw [hnone] at hname
    cases hname
  · intro hverb _
    obtain ⟨hbelow, hall⟩ := hstor.resolve_left (not_not_intro hverb)
    refine ⟨hbelow, fun before location hroot hbefore hstatus => ?_⟩
    have htest := hall before hbefore
    rw [hstatus] at htest
    simpa [List.isPrefixOf_iff_prefix.mpr hroot] using htest

theorem paths_under_root_store :
    ∃ state : State, (∃ passed ∈ state.passed, passed.2 = ⟨true, [[114], [100], [102]]⟩
        ∧ Confined [[114]] passed.1 passed.2)
      ∧ Denotes [[114]] state.tree state.session.cwdRel
      ∧ state.session.cwdRel = ⟨false, [[100]]⟩ := by
  have htest : (replay next harmlessCheck (State.start exampleTree)
      [exampleEvent "PASS x", exampleEvent "CWD d", exampleEvent "PASV", exampleEvent "LIST",
        exampleEvent "STOR f"]).any
      (fun state => (state.passed.any fun passed => passed.2 = ⟨true, [[114], [100], [102]]⟩)
        && state.session.cwdRel = ⟨false, [[100]]⟩) = true := by decide +kernel
  obtain ⟨state, hrun, hstate⟩ := replay_reaches harmless_of_check htest
  rw [Bool.and_eq_true, decide_eq_true_eq] at hstate
  obtain ⟨passed, hpassed, hpath⟩ := List.any_eq_true.mp hstate.1
  have hroot : exampleTree.entry [[114]] = some .directory := by decide +kernel
  have hfixed := grows_of_fixed (hrun.mono fun _ _ _ => trivial) (by simp [exampleEvent, exampleWorld])
  exact ⟨state,
    ⟨passed, hpassed, of_decide_eq_true hpath,
      (paths_under_root exampleTree hroot).1 _ state hrun passed hpassed⟩,
    (paths_under_root exampleTree hroot).2 _ state hfixed.1, hstate.2⟩

/-- A listing of the root tells the size of the file outside that `x` leads to; storing under the
root itself looks at the directory above it; and the remembered directory may be gone when the next
command comes. -/
theorem root_left :
    (∃ (events : List (Event [[114]])) (state : State),
      Run next anyStep (State.start exampleTree) events state ∧
      (∃ passed ∈ state.passed, ¬Confined [[114]] passed.1 passed.2) ∧
      ⟨false, 7, [120]⟩ ∈ (handleLIST (exampleEvent "LIST").world
        { Session.start with loggedIn := true, passive := true } []).listing) ∧
    (∃ (events : List (Event [[114]])) (state : State),
      Run next anyStep (State.start laterTree) events state ∧
      ∃ passed ∈ state.passed, passed.2 = ⟨true, []⟩ ∧ ¬Confined [[114]] passed.1 passed.2) ∧
    (∃ (events : List (Event [[114]])) (state : State),
      Run next anyStep (State.start exampleTree) events state ∧
      ¬Denotes [[114]] state.tree state.session.cwdRel) := by
  have hcheck : ∀ (state : State) (event : Event [[114]]), true = true → anyStep state event :=
    fun _ _ _ => trivial
  refine ⟨?_, ?_, ?_⟩
  · have htest : (replay next (fun _ _ => true) (State.start exampleTree)
        [exampleEvent "PASS x", exampleEvent "PASV", exampleEvent "LIST"]).any
        (fun state => state.passed.any fun passed =>
          passed.1.weaklyCanonical passed.2 = some ⟨true, [[115]]⟩) = true := by decide +kernel
    obtain ⟨state, hrun, hstate⟩ := replay_reaches hcheck htest
    obtain ⟨passed, hpassed, hcanonical⟩ := List.any_eq_true.mp hstate
    refine ⟨_, state, hrun, ⟨passed, hpassed, ?_⟩, by decide +kernel⟩
    exact not_confined (of_decide_eq_true hcanonical) (by decide)
  · have htest : (replay next (fun _ _ => true) (State.start laterTree)
        [laterEvent "PASS x", laterEvent "STOR ."]).any
        (fun state => state.passed.any fun passed => passed.2 = ⟨true, []⟩
          && passed.1.weaklyCanonical passed.2 = some ⟨true, []⟩) = true := by decide +kernel
    obtain ⟨state, hrun, hstate⟩ := replay_reaches hcheck htest
    obtain ⟨passed, hpassed, hboth⟩ := List.any_eq_true.mp hstate
    rw [Bool.and_eq_true, decide_eq_true_eq, decide_eq_true_eq] at hboth
    exact ⟨_, state, hrun, passed, hpassed, hboth.1, not_confined hboth.2 (by decide)⟩
  · have htest : (replay next (fun _ _ => true) (State.start exampleTree)
        [exampleEvent "PASS x", exampleEvent "CWD d", laterEvent "PWD"]).any
        (fun state => state.tree.status (rootPath [[114]] / state.session.cwdRel) = .missing)
          = true := by decide +kernel
    obtain ⟨state, hrun, hstate⟩ := replay_reaches hcheck htest
    refine ⟨_, state, hrun, ?_⟩
    rintro ⟨location, hlocation, -⟩
    rw [of_decide_eq_true hstate] at hlocation
    cases hlocation

end ChatRoom.Ftp
