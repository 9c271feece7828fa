import Honeypot.Proofs.Process.Footing
import Honeypot.Proofs.Store.Listing
import Honeypot.Proofs.Userland.Concatenation

/-!
# Operands listed one after the other

`ls` lists its operands in order: a file by the name that was typed, a directory by the visible
names in it. An operand that names nothing is complained of, and has no part in what becomes of the
others.

* `Userland.IsVisible`, `Userland.Lists`: the lines that an operand should come to.
* `Userland.listing`, `Userland.lists_iff`: the lines that it comes to are these, and no others are.
* `Userland.exists_run_listAll`: what operands come to, by induction on them.
* `Userland.joinLines_eq_join`: lines that end one by one, unless there is only an empty one.
* `Userland.Lists.empty_not_mem`: no line is empty, so a single empty one does not come up.
* `Userland.ls_lists`: what `ls` comes to on streams that lose nothing.

## References

- [SPEC] `SPEC_FULL.md`: §10, Supplementary Features
-/

namespace Honeypot

namespace Userland

open Program

/-! ## One operand -/

/-- Whether names are those of a directory that are not hidden, each once and in the order of their
bytes. -/
structure IsVisible (store : Store) (directory : Location) (names : List String) : Prop where
  ascending : names.Pairwise Text.Precedes
  mem_iff : ∀ name, name ∈ names ↔
    (store.find? (name :: directory)).isSome = true ∧ name.toList.head? ≠ some '.'

/-- The lines for the names in a directory: all on one line, after an announcement if there is to be
one. -/
def directoryLines (announce : Bool) (target : String) (names : List String) : List String :=
  (if announce then [target ++ ":"] else []) ++
    if names = [] then [] else [String.intercalate "  " names]

/-- Whether lines are what should be listed for an operand. -/
inductive Lists (process : Process) (announce : Bool) (target : String) : List String → Prop where
  | file {content : Bytes} (h : process.nodeAt? target = some (.file content)) :
    Lists process announce target [target]
  | directory {names : List String} (h : process.nodeAt? target = some .directory)
    (hnames : IsVisible process.volume.store
      (Location.ofText (Location.resolve process.directory target)) names) :
    Lists process announce target (directoryLines announce target names)
  | missing (h : process.nodeAt? target = none) : Lists process announce target []

/-- The lines that are listed for an operand. -/
def listing (process : Process) (announce : Bool) (target : String) : List String :=
  match process.nodeAt? target,
    process.volume.store.readdir (Location.resolve process.directory target) with
  | some (.file _), _ => [target]
  | some .directory, .ok entries => directoryLines announce target (visibleNames entries)
  | _, _ => []

/-- The texts of a complaint about an operand. -/
def lsTexts (target : String) : List String :=
  ["ls: cannot access \x27", target, "\x27: No such file or directory\n"]

/-- What `ls` complains of about an operand, if it names nothing. -/
def lsComplaint? (process : Process) (target : String) : Option String :=
  match process.nodeAt? target with
  | some _ => none
  | none => some (String.join (lsTexts target))

/-- The names of a listing that are not hidden. -/
theorem isVisible_visibleNames {store : Store} {directory : Location} {entries : List Entry}
    (h : store.IsListing directory entries) :
    IsVisible store directory (visibleNames entries) where
  ascending := (List.pairwise_map.2 h.ascending).filter _
  mem_iff name := by
    -- A line for a name is a location in the directory.
    have hmem : name ∈ entries.map Entry.name ↔
        (store.find? (name :: directory)).isSome = true := by
      have hkeys := h.perm.mem_iff (a := name :: directory)
      rw [Store.cons_mem_childKeys_iff] at hkeys
      simpa using hkeys
    rw [visibleNames, List.mem_filter, hmem]
    simp

variable {store : Store} {process : Process} {announce : Bool} {target : String}
  {lines : List String}

/-- There is only one list of the visible names of a directory. -/
theorem IsVisible.unique {directory : Location} {names others : List String}
    (h : IsVisible store directory names) (h' : IsVisible store directory others) :
    names = others :=
  Text.eq_of_pairwise_precedes h.ascending h'.ascending fun name => by
    rw [h.mem_iff, h'.mem_iff]

/-- The visible names of a directory can be found among the finitely many locations in it. -/
theorem isVisible_of_childKeys {directory : Location} {names : List String}
    (hascending : names.Pairwise Text.Precedes)
    (hfound : ∀ name ∈ names,
      name :: directory ∈ store.childKeys directory ∧ name.toList.head? ≠ some '.')
    (hrest : ∀ key ∈ store.childKeys directory, ∀ name ∈ key.head?,
      name.toList.head? ≠ some '.' → name ∈ names) :
    IsVisible store directory names where
  ascending := hascending
  mem_iff name := by
    have hchild : name :: directory ∈ store.childKeys directory ↔
        (store.find? (name :: directory)).isSome = true := by
      rw [Store.cons_mem_childKeys_iff, and_iff_right rfl]
    rw [← hchild]
    exact ⟨hfound name, fun ⟨hkey, hvisible⟩ => hrest _ hkey name rfl hvisible⟩

/-- The lines for a directory are those for its visible names. -/
theorem listing_of_directory (h : process.volume.store.IsRooted)
    (hnode : process.nodeAt? target = some .directory) (announce : Bool) :
    ∃ names, IsVisible process.volume.store
        (Location.ofText (Location.resolve process.directory target)) names ∧
      listing process announce target = directoryLines announce target names := by
  refine ⟨_, isVisible_visibleNames (h.isListing (Location.isNamed_ofText _)), ?_⟩
  rw [listing, hnode, h.isRanged.readdir_eq (Location.resolve process.directory target) hnode]

/-- What is listed for an operand is what should be, and nothing else should. -/
theorem lists_iff (h : process.volume.store.IsRooted) :
    Lists process announce target lines ↔ lines = listing process announce target := by
  constructor
  -- The relation leaves the names open, so that they are unique is what this direction needs.
  · intro hlines
    cases hlines with
    | file hnode => rw [listing, hnode]
    | directory hnode hnames =>
      obtain ⟨others, hothers, hlisting⟩ := listing_of_directory h hnode announce
      rw [hlisting, hnames.unique hothers]
    | missing hnode => rw [listing, hnode]
  · rintro rfl
    cases hnode : process.nodeAt? target with
    | none =>
      rw [listing, hnode]
      exact .missing hnode
    | some node =>
      cases node with
      | file content =>
        rw [listing, hnode]
        exact .file hnode
      | directory =>
        obtain ⟨names, hnames, hlisting⟩ := listing_of_directory h hnode announce
        rw [hlisting]
        exact .directory hnode hnames

/-- What should be listed for operands is one thing only. -/
theorem rightUnique_forall₂_lists (h : process.volume.store.IsRooted) :
    Relator.RightUnique (List.Forall₂ (Lists process announce)) :=
  Relator.RightUnique.forall₂ fun _ _ _ hlines hothers =>
    ((lists_iff h).1 hlines).trans ((lists_iff h).1 hothers).symm

/-! ## One operand after the other -/

variable {σ : Type} [Supply σ] {streams : Streams σ} {screen errors : Destination σ}
  {machine : Machine σ} {printed complained : Bytes} {targets : List String}

/-- The first operand is looked up, and then listed or complained of. -/
theorem run_listAll_cons (hdenials : machine.process.volume.denials = []) (announce : Bool)
    (target : String) (targets lines : List String) (code : Status) :
    (listAll announce (target :: targets) lines code).run streams machine =
      match machine.process.nodeAt? target with
      | none => Program.run streams (do
          let _ ← printErrorTexts (lsTexts target)
          listAll announce targets lines 2) machine
      | some _ =>
        (listAll announce targets (lines ++ listing machine.process announce target) code).run
          streams machine := by
  rw [listAll, run_bind, run_directory]
  dsimp only
  rw [run_bind, run_stat streams hdenials]
  dsimp only
  -- The same look-up decides what is told of the operand and what is listed for it.
  rw [Store.stat]
  unfold listing Process.nodeAt?
  cases hnode : machine.process.volume.store.find?
      (Location.ofText (Location.resolve machine.process.directory target)) with
  | none => rfl
  | some node =>
    cases node with
    | file content => rfl
    | directory =>
      -- A directory has a listing, so the branch for one that has none is not taken.
      obtain ⟨entries, hread⟩ : ∃ entries, machine.process.volume.store.readdir
          (Location.resolve machine.process.directory target) = .ok entries := by
        rw [Store.readdir]
        simp only [hnode]
        exact ⟨_, rfl⟩
      dsimp only [Node.metadata]
      rw [run_bind, run_readdir streams hdenials, hread]
      simp only [directoryLines, List.isEmpty_iff, List.append_assoc]

/-- The first operand adds its lines, or a complaint to the errors, and `ls` goes on with the
others. Only a complaint changes its status. -/
theorem exists_run_listAll_cons (h : streams.Delivers screen errors)
    (harrived : Arrived screen errors printed complained machine.plumbing)
    (hdenials : machine.process.volume.denials = []) (announce : Bool) (target : String)
    (targets lines : List String) (code : Status) :
    ∃ later, (listAll announce (target :: targets) lines code).run streams machine =
        (listAll announce targets (lines ++ listing machine.process announce target)
          (if (lsComplaint? machine.process target).isSome then 2 else code)).run streams
            { machine with plumbing := later } ∧
      Arrived screen errors printed
        (complained ++ Text.encode ((lsComplaint? machine.process target).getD "")) later := by
  rw [run_listAll_cons hdenials, listing, lsComplaint?]
  cases machine.process.nodeAt? target with
  | none =>
    obtain ⟨later, hrun, hlater⟩ := h.run_printErrorTexts harrived (lsTexts target)
    refine ⟨later, ?_, hlater⟩
    dsimp only
    rw [run_bind, hrun, List.append_nil]
    rfl
  | some node => exact ⟨machine.plumbing, rfl, by simpa using harrived⟩

/-- Operands add their lines and their complaints, in order. -/
theorem exists_run_listAll (h : streams.Delivers screen errors)
    (harrived : Arrived screen errors printed complained machine.plumbing)
    (hdenials : machine.process.volume.denials = []) (announce : Bool)
    (targets lines : List String) (code : Status) :
    ∃ later, (listAll announce targets lines code).run streams machine =
        (.ok (lines ++ targets.flatMap (listing machine.process announce),
          if targets.filterMap (lsComplaint? machine.process) = [] then code else 2),
          { machine with plumbing := later }) ∧
      Arrived screen errors printed
        (complained ++
          Text.encode (String.join (targets.filterMap (lsComplaint? machine.process)))) later := by
  induction targets generalizing machine complained lines code with
  | nil =>
    refine ⟨machine.plumbing, ?_, by simpa using harrived⟩
    rw [List.flatMap_nil, List.append_nil]
    rfl
  | cons target targets ih =>
    obtain ⟨first, hrun, hfirst⟩ :=
      exists_run_listAll_cons h harrived hdenials announce target targets lines code
    obtain ⟨later, hrest, hlater⟩ := @ih { machine with plumbing := first } _ hfirst hdenials
      (lines ++ listing machine.process announce target)
      (if (lsComplaint? machine.process target).isSome then 2 else code)
    -- The plumbing alone has changed, so the others are looked up as they were at first.
    dsimp only at hrest hlater
    refine ⟨later, ?_, ?_⟩
    · rw [hrun, hrest, List.flatMap_cons, List.append_assoc]
      cases hcomplaint : lsComplaint? machine.process target <;> simp [hcomplaint]
    · cases hcomplaint : lsComplaint? machine.process target <;> simpa [hcomplaint] using hlater

/-! ## All lines -/

/-- Lines with line feeds between them and one at the end are lines that each end with one. -/
theorem intercalate_append_lineFeed (line : String) (lines : List String) :
    String.intercalate "\n" (line :: lines) ++ "\n" =
      String.join ((line :: lines).map (· ++ "\n")) := by
  induction lines generalizing line with
  | nil => simp
  | cons next lines ih =>
    rw [String.intercalate_cons_cons, String.append_assoc, ih, List.map_cons, List.map_cons,
      List.map_cons, String.join_cons, String.join_cons, String.join_cons]

/-- Lines are joined by ending each of them, unless there is only an empty one. -/
theorem joinLines_eq_join (h : lines ≠ [""]) :
    joinLines lines = String.join (lines.map (· ++ "\n")) := by
  unfold joinLines
  cases lines with
  | nil => rfl
  | cons line lines =>
    -- Two lines have a line feed between them, whether they are empty or not.
    have hne : String.intercalate "\n" (line :: lines) ≠ "" := by
      cases lines with
      | nil => simpa using h
      | cons next lines => simp [String.intercalate_cons_cons]
    rw [if_neg hne, intercalate_append_lineFeed]

/-- Read from a directory, the empty path is that directory. -/
theorem nodeAt?_empty (h : process.Stands) : process.nodeAt? "" = some .directory := by
  have hempty : Location.ofText (Location.resolve process.directory "") =
      Location.ofText process.directory := by
    rw [Location.resolve, Location.ofText_normalize]
    exact Location.ofText_append_slash process.directory ""
  rw [Process.nodeAt?, hempty, h]

/-- No name is empty. -/
theorem IsVisible.empty_not_mem {directory : Location} {names : List String}
    (h : IsVisible store directory names) (hstore : store.IsRooted) : "" ∉ names := by
  intro hempty
  have hnamed := hstore.isNamed _ ((h.mem_iff "").1 hempty).1
  exact (Location.isNamed_cons.1 hnamed).1.1 rfl

/-- Names that are not empty make lines that are not empty. -/
theorem empty_not_mem_directoryLines {names : List String} (h : "" ∉ names) (announce : Bool)
    (target : String) : "" ∉ directoryLines announce target names := by
  have hheader : "" ∉ (if announce then [target ++ ":"] else []) := by
    have hne : target ++ ":" ≠ "" := by simp
    split_ifs
    · exact fun hmem => hne (List.mem_singleton.1 hmem).symm
    · exact List.not_mem_nil
  have hjoined : "" ∉ (if names = [] then [] else [String.intercalate "  " names]) := by
    cases names with
    | nil => exact List.not_mem_nil
    | cons name names =>
      -- The line begins with the first name.
      have hname : name ≠ "" := fun heq => h (heq ▸ List.mem_cons_self)
      have hne : String.intercalate "  " (name :: names) ≠ "" := by
        cases names <;> simp [String.intercalate_cons_cons, hname]
      exact fun hmem => hne (List.mem_singleton.1 hmem).symm
  rw [directoryLines, List.mem_append, not_or]
  exact ⟨hheader, hjoined⟩

/-- No line is empty where names are not, and the empty operand is a directory. -/
theorem Lists.empty_not_mem (h : Lists process announce target lines)
    (hstore : process.volume.store.IsRooted) (hstands : process.Stands) : "" ∉ lines := by
  cases h with
  | file hnode =>
    have hne : "" ≠ target := by
      rintro rfl
      simp [nodeAt?_empty hstands] at hnode
    simpa using hne
  | directory hnode hnames =>
    exact empty_not_mem_directoryLines (hnames.empty_not_mem hstore) announce target
  | missing hnode => exact List.not_mem_nil

/-- The lines for operands are joined by ending each of them. -/
theorem joinLines_flatMap_listing (hstore : process.volume.store.IsRooted)
    (hstands : process.Stands) (announce : Bool) (targets : List String) :
    joinLines (targets.flatMap (listing process announce)) =
      String.join ((targets.flatMap (listing process announce)).map (· ++ "\n")) := by
  have hnone : "" ∉ targets.flatMap (listing process announce) := by
    rw [List.mem_flatMap]
    rintro ⟨target, -, hempty⟩
    exact ((lists_iff hstore).2 rfl).empty_not_mem hstore hstands hempty
  exact joinLines_eq_join fun heq => hnone (by simp [heq])

/-- There is nothing to complain of exactly if no operand names nothing. -/
theorem filterMap_lsComplaint?_eq_nil_iff :
    targets.filterMap (lsComplaint? process) = [] ↔
      ¬ ∃ target ∈ targets, process.nodeAt? target = none := by
  rw [List.filterMap_eq_nil_iff, not_exists]
  refine forall_congr' fun target => ?_
  unfold lsComplaint?
  cases process.nodeAt? target <;> simp

/-! ## The program -/

/-- The operands of `ls` are the arguments that do not begin with a dash, or a dot. -/
theorem listTargets_eq (args : List String) :
    listTargets args =
      let named := args.filter fun arg => arg.toList.head? ≠ some '-'
      if named = [] then ["."] else named := by
  have hdash : (fun arg : String => arg.toList.head? != some '-') =
      fun arg => decide (arg.toList.head? ≠ some '-') := by
    funext arg
    by_cases h : arg.toList.head? = some '-' <;> simp [h]
  simp only [listTargets, hdash, List.isEmpty_iff]

/-- On streams that lose nothing, with nothing denied, in a store that requests led to and in a
working directory that is there, `ls` prints for one operand after the other what should be listed
for it: for a file the operand as it was typed, for a directory its visible names, announced if
there are several operands, and for anything else no line but a complaint, in the same order. The
operands are the arguments that do not begin with a dash, or a dot if there are none. The status
tells whether there was a complaint. Of the session, nothing but the plumbing is changed. -/
theorem ls_lists (h : streams.Delivers screen errors)
    (harrived : Arrived screen errors printed complained machine.plumbing)
    (hdenials : machine.process.volume.denials = []) {requests : List Request}
    (hstore : machine.process.volume.store = Store.empty.after requests)
    (hstands : machine.process.Stands) (args : List String) :
    let named := args.filter fun arg => arg.toList.head? ≠ some '-'
    let operands := if named = [] then ["."] else named
    ∃ blocks code later, (ls.program args).run streams machine =
        (.ok code, { machine with plumbing := later }) ∧
      List.Forall₂ (Lists machine.process (1 < operands.length)) operands blocks ∧
      Arrived screen errors
        (printed ++
          Sink.translated (Text.encode (String.join (blocks.flatten.map (· ++ "\n")))))
        (complained ++
          Text.encode (String.join (operands.filterMap (lsComplaint? machine.process)))) later ∧
      code = if ∃ operand ∈ operands, machine.process.nodeAt? operand = none then 2 else 0 := by
  intro named operands
  have htargets : listTargets args = operands := listTargets_eq args
  have hrooted : machine.process.volume.store.IsRooted := hstore ▸ Store.isRooted_after requests
  let announce : Bool := 1 < operands.length
  have hblocks : List.Forall₂ (Lists machine.process announce) operands
      (operands.map (listing machine.process announce)) := by
    rw [List.forall₂_map_right_iff, List.forall₂_same]
    exact fun operand _ => (lists_iff hrooted).2 rfl
  obtain ⟨first, hlist, hfirst⟩ := exists_run_listAll h harrived hdenials announce operands [] 0
  obtain ⟨later, hprint, hlater⟩ := @Streams.Delivers.run_print _ _ _ _ _
    { machine with plumbing := first } _ _ h hfirst
    (Text.encode (joinLines (operands.flatMap (listing machine.process announce))))
  rw [joinLines_flatMap_listing hrooted hstands, List.flatMap_def] at hlater
  -- The complaints came first, and the lines are printed at once.
  refine ⟨_, if operands.filterMap (lsComplaint? machine.process) = [] then 0 else 2, later, ?_,
    hblocks, hlater, ?_⟩
  · unfold ls
    dsimp only
    rw [htargets, run_bind, hlist]
    dsimp only
    rw [List.nil_append, run_bind, hprint]
    rfl
  · rw [ite_cond_congr (propext filterMap_lsComplaint?_eq_nil_iff), ite_not]

/-- Requests that lead to a directory with files, directories and hidden names, out of order. -/
def furnishing : List Request :=
  [.mkdir "/srv/bare", .write "/srv/bare/.keep" [], .write "/srv/b" (Text.encode "1"),
    .mkdir "/srv/a/.git", .write "/srv/a-" [], .write "/srv/.profile" []]

/-- A session in that directory. -/
def furnished : Process where
  session := "console"
  directory := "/srv"
  environment := ∅
  volume := .ofStore (Store.empty.after furnishing)
  geometry := ⟨80, 24⟩
  arrangement := .insertion

/-- Options, and operands that name two files, two directories, and twice nothing. -/
def typed : List String := ["-l", "none", "b", ".", "-a", "bare", "/srv//a-", "b/x"]

theorem ls_lists_portioned :
    ∃ later, (ls.program typed).run Wiring.streams ⟨furnished, portioned, []⟩ =
        (.ok 2, ⟨furnished, later, []⟩) ∧
      later.written .output =
        Text.encode "b\r\n.:\r\na  a-  b  bare\r\nbare:\r\n/srv//a-\r\n" ∧
      later.written .error =
        Text.encode ("ls: cannot access \x27none\x27: No such file or directory\n" ++
          "ls: cannot access \x27b/x\x27: No such file or directory\n") := by
  let machine : Machine Wiring := ⟨furnished, portioned, []⟩
  have houtput : (portioned.outlet .output).NeverFails :=
    ⟨⟨by simp [Wiring.outlet, portioned, Reaction.IsPatient], rfl, rfl⟩, rfl⟩
  have herror : (portioned.outlet .error).NeverFails :=
    ⟨⟨by simp [Wiring.outlet, portioned, Reaction.IsPatient], rfl, rfl⟩, rfl⟩
  have harrived : Arrived (Wiring.destination .output) (Wiring.destination .error) [] []
      machine.plumbing := ⟨⟨houtput, rfl⟩, herror, rfl⟩
  have hdenials : machine.process.volume.denials = [] := rfl
  have hstore : machine.process.volume.store = Store.empty.after furnishing := rfl
  have hstands : machine.process.Stands := by decide +kernel
  obtain ⟨blocks, code, later, hrun, hblocks, ⟨⟨-, hprinted⟩, -, hcomplained⟩, hcode⟩ :=
    ls_lists Wiring.delivers harrived hdenials hstore hstands typed
  -- The kernel makes the store, and the lines that should be listed are determined by it.
  have hsrv : IsVisible furnished.volume.store ["srv"] ["a", "a-", "b", "bare"] :=
    isVisible_of_childKeys (by decide) (by decide +kernel) (by decide +kernel)
  have hbare : IsVisible furnished.volume.store ["bare", "srv"] [] :=
    isVisible_of_childKeys .nil (by decide) (by decide +kernel)
  have hfile : furnished.nodeAt? "b" = some (.file (Text.encode "1")) ∧
      furnished.nodeAt? "/srv//a-" = some (.file []) := by decide +kernel
  have hdirectory : furnished.nodeAt? "." = some .directory ∧
      furnished.nodeAt? "bare" = some .directory := by decide +kernel
  have hmissing : furnished.nodeAt? "none" = none ∧ furnished.nodeAt? "b/x" = none := by
    decide +kernel
  let operands : List String := ["none", "b", ".", "bare", "/srv//a-", "b/x"]
  have hexpected : List.Forall₂ (Lists furnished true) operands
      [[], ["b"], [".:", "a  a-  b  bare"], ["bare:"], ["/srv//a-"], []] :=
    .cons (.missing hmissing.1) <| .cons (.file hfile.1) <| .cons (.directory hdirectory.1 hsrv) <|
      .cons (.directory hdirectory.2 hbare) <| .cons (.file hfile.2) <|
      .cons (.missing hmissing.2) .nil
  obtain rfl := rightUnique_forall₂_lists (Store.isRooted_after furnishing) hblocks hexpected
  obtain rfl : code = 2 := hcode.trans (if_pos ⟨"none", by decide, hmissing.1⟩)
  refine ⟨later, hrun, hprinted.trans ?_, hcomplained.trans ?_⟩
  · decide +kernel
  · decide +kernel

end Userland

end Honeypot
