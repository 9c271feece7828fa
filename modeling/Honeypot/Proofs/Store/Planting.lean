import Honeypot.RootTree
import Honeypot.Proofs.Store.Basic

/-!
# Directories and files put into a store

What is put into a store one after the other, up to the first that fails. A directory fails only
where a file is, a file only where a directory is or none is above it. So directories among
themselves do not get in each other's way, nor do files.

* `Store.mkdir_eq_ok_iff`, `Store.write_eq_ok_iff`: when one change succeeds, and what it makes.
* `Planting.fileLocation?`, `Planting.Touches`, `Planting.StandsIn`: where a planting puts a file,
  where it may put anything, and whether it is in a store already.
* `Store.find?_plantAll_cases`: every node of the store comes from before or from one of the
  plantings.
* `Store.standsIn_plantAll`, `Store.plantAll_of_standsIn`: what was put in successfully is there,
  and to put it in again changes nothing.
* `Store.Undisturbed.plantAll_eq_ok_iff`: when plantings that are independent of each other can be
  put in one after the other.
* `Store.plantAll_directories_eq_ok_iff`, `Store.plantAll_files_eq_ok_iff`: when directories, or
  files, can be put in one after the other.
-/

namespace Honeypot

/-! ## One change -/

namespace Store

variable {store later : Store} {path : String} {content : Bytes}

/-- A directory can be made where no file is. -/
theorem mkdir_eq_ok_iff : store.mkdir path = .ok later ↔
    (store.find? (Location.ofText path) = some .directory ∧ later = store) ∨
      (store.find? (Location.ofText path) = none ∧
        later = makeDirectories (Location.ofText path) store) := by
  rw [mkdir]
  cases hnode : store.find? (Location.ofText path) with
  | none => simp [eq_comm]
  | some node => cases node <;> simp [eq_comm]

/-- A file can be put into a directory where no directory is. -/
theorem write_eq_ok_iff : store.write path content = .ok later ↔
    store.find? (Location.ofText path).parent = some .directory ∧
      store.find? (Location.ofText path) ≠ some .directory ∧
        later = store.insert (Location.ofText path) (.file content) := by
  rw [write]
  cases hparent : store.find? (Location.ofText path).parent with
  | none => simp
  | some node =>
    cases node with
    | file content => simp
    | directory =>
      by_cases hnode : store.find? (Location.ofText path) = some .directory <;>
        simp [hnode, eq_comm]

end Store

/-! ## One planting -/

namespace Planting

/-- The location that a planting is for. -/
def location : Planting → Location
  | .directory path => Location.ofText path
  | .file path _ => Location.ofText path

/-- What a planting puts there. -/
def node : Planting → Node
  | .directory _ => .directory
  | .file _ content => .file content

/-- The location at which a planting puts a file, if it does. -/
def fileLocation? : Planting → Option Location
  | .directory _ => none
  | .file path _ => some (Location.ofText path)

/-- The planting of a file, given by its path and its content. -/
def ofFile (file : String × Bytes) : Planting := .file file.1 file.2

/-- Directories put no file anywhere. -/
theorem filterMap_fileLocation?_directories (paths : List String) :
    (paths.map directory).filterMap fileLocation? = [] := by
  simp [fileLocation?]

/-- Files are put where their paths lead. -/
theorem filterMap_fileLocation?_files (files : List (String × Bytes)) :
    (files.map ofFile).filterMap fileLocation? =
      (files.map Prod.fst).map Location.ofText := by
  have hfile : fileLocation? ∘ ofFile = some ∘ (Location.ofText ∘ Prod.fst) := rfl
  rw [List.filterMap_map, hfile, List.filterMap_eq_map, List.map_map]

/-- Whether a planting may put something at a location: a file there, or a directory there or
further down. -/
def Touches (planting : Planting) (location : Location) : Prop :=
  match planting with
  | .directory path => location <:+ Location.ofText path
  | .file path _ => location = Location.ofText path

/-- Whether a store has what a planting puts there. A file also needs a directory to stand in. -/
structure StandsIn (planting : Planting) (store : Store) : Prop where
  find?_location : store.find? planting.location = some planting.node
  find?_parent : planting.fileLocation?.isSome = true →
    store.find? planting.location.parent = some .directory

end Planting

namespace Store

variable {store later : Store} {planting planted : Planting} {location : Location}
  {path : String} {content : Bytes}

/-- What is there already can be put in, and nothing changes. -/
theorem plant_of_standsIn (h : planting.StandsIn store) : store.plant planting = .ok store := by
  cases planting with
  | directory path => exact mkdir_eq_ok_iff.2 (.inl ⟨h.find?_location, rfl⟩)
  | file path content =>
    have hnode : store.find? (Location.ofText path) = some (.file content) := h.find?_location
    refine write_eq_ok_iff.2 ⟨h.find?_parent rfl, by rw [hnode]; simp, ?_⟩
    -- The file is replaced by itself.
    rw [insert, Dictionary.insert_of_find?_eq_some hnode]

/-- A node after a planting was there before, or was put in. -/
theorem find?_plant_cases (h : store.plant planting = .ok later) (location : Location) :
    later.find? location = store.find? location ∨
      (planting.Touches location ∧ later.find? location = some planting.node) := by
  cases planting with
  | directory path =>
    obtain ⟨-, rfl⟩ | ⟨-, rfl⟩ := mkdir_eq_ok_iff.1 h
    · exact .inl rfl
    · by_cases hmade : store.IsMade (Location.ofText path) location
      · refine .inr ⟨?_, (find?_makeDirectories _ _ store).1 hmade⟩
        rcases hmade with rfl | ⟨hsuffix, -⟩
        · exact List.suffix_refl _
        · exact hsuffix
      · exact .inl ((find?_makeDirectories _ _ store).2 hmade)
  | file path content =>
    obtain ⟨-, -, rfl⟩ := write_eq_ok_iff.1 h
    rw [find?_insert]
    split_ifs with heq
    · exact .inr ⟨heq.symm, rfl⟩
    · exact .inl rfl

/-- What is there stays, unless a file is put in its place. -/
theorem find?_plant_of_isSome (h : store.plant planting = .ok later)
    (hlocation : (store.find? location).isSome = true)
    (hfile : planting.fileLocation? ≠ some location) :
    later.find? location = store.find? location := by
  cases planting with
  | directory path =>
    obtain ⟨-, rfl⟩ | ⟨hnone, rfl⟩ := mkdir_eq_ok_iff.1 h
    · rfl
    · refine find?_makeDirectories_of_isSome hlocation ?_
      rintro rfl
      simp [hnone] at hlocation
  | file path content =>
    obtain ⟨-, -, rfl⟩ := write_eq_ok_iff.1 h
    rw [find?_insert, if_neg fun heq => hfile (congrArg some heq)]

/-- A directory stays whatever is put in. -/
theorem find?_plant_of_directory (h : store.plant planting = .ok later)
    (hlocation : store.find? location = some .directory) :
    later.find? location = some .directory := by
  by_cases hfile : planting.fileLocation? = some location
  · -- No file is put where a directory is.
    cases planting with
    | directory path => simp [Planting.fileLocation?] at hfile
    | file path content =>
      obtain ⟨-, hfree, -⟩ := write_eq_ok_iff.1 h
      exact absurd (Option.some.inj hfile ▸ hlocation) hfree
  · rw [find?_plant_of_isSome h (by rw [hlocation]; rfl) hfile, hlocation]

/-- What was put in is there. -/
theorem standsIn_of_plant (h : store.plant planting = .ok later) : planting.StandsIn later := by
  cases planting with
  | directory path =>
    refine ⟨?_, by simp [Planting.fileLocation?]⟩
    obtain ⟨hnode, rfl⟩ | ⟨-, rfl⟩ := mkdir_eq_ok_iff.1 h
    · exact hnode
    · exact (find?_makeDirectories _ _ store).1 (.inl rfl)
  | file path content =>
    obtain ⟨hparent, -, rfl⟩ := write_eq_ok_iff.1 h
    exact ⟨by simp [Planting.location, Planting.node],
      fun _ => find?_plant_of_directory h hparent⟩

/-- What was put in before stays, unless another file is put in its place. -/
theorem standsIn_of_plant_of_standsIn (hplanted : planted.StandsIn store)
    (h : store.plant planting = .ok later)
    (hfile : ∀ location, planted.fileLocation? = some location →
      planting.fileLocation? ≠ some location) : planted.StandsIn later := by
  refine ⟨?_, fun hsome => find?_plant_of_directory h (hplanted.find?_parent hsome)⟩
  cases planted with
  | directory path => exact find?_plant_of_directory h hplanted.find?_location
  | file path content =>
    have hnode : store.find? (Location.ofText path) = some (.file content) :=
      hplanted.find?_location
    exact (find?_plant_of_isSome h (by rw [hnode]; rfl) (hfile _ rfl)).trans hnode

/-! ## One planting after the other -/

variable {plantings : List Planting}

theorem plantAll_cons_of_ok (h : store.plant planting = .ok later) (plantings : List Planting) :
    store.plantAll (planting :: plantings) = later.plantAll plantings := by
  rw [plantAll, h]

theorem plantAll_cons_eq_ok_iff :
    (store.plantAll (planting :: plantings)).1 = .ok () ↔
      ∃ later, store.plant planting = .ok later ∧ (later.plantAll plantings).1 = .ok () := by
  cases hplant : store.plant planting with
  | error failure => simp [plantAll, hplant]
  | ok later => simp [plantAll_cons_of_ok hplant]

/-- What holds of a store and is kept by every planting holds at the end, whether or not one of them
failed. -/
theorem plantAll_induction {motive : Store → Prop} (h : motive store)
    (step : ∀ planting ∈ plantings, ∀ store later : Store, motive store →
      store.plant planting = .ok later → motive later) :
    motive (store.plantAll plantings).2 := by
  induction plantings generalizing store with
  | nil => exact h
  | cons planting plantings ih =>
    rw [List.forall_mem_cons] at step
    rw [plantAll]
    split
    · next later hplant => exact ih (step.1 store later h hplant) step.2
    · exact h

/-- A node at the end was there before, or one of the plantings put it in. -/
theorem find?_plantAll_cases (store : Store) (plantings : List Planting) (location : Location) :
    (store.plantAll plantings).2.find? location = store.find? location ∨
      ∃ planting ∈ plantings, planting.Touches location ∧
        (store.plantAll plantings).2.find? location = some planting.node := by
  refine plantAll_induction (motive := fun later => later.find? location = store.find? location ∨
    ∃ planting ∈ plantings, planting.Touches location ∧
      later.find? location = some planting.node) (.inl rfl) ?_
  intro planting hmem middle later hmiddle hplant
  rcases find?_plant_cases hplant location with hsame | ⟨htouches, hnode⟩
  · rwa [hsame]
  · exact .inr ⟨planting, hmem, htouches, hnode⟩

/-- If no two files are put in one place, everything that was put in is there at the end. -/
theorem standsIn_plantAll (hfiles : (plantings.filterMap Planting.fileLocation?).Nodup)
    (h : (store.plantAll plantings).1 = .ok ()) :
    ∀ planting ∈ plantings, planting.StandsIn (store.plantAll plantings).2 := by
  rw [List.Nodup, List.pairwise_filterMap] at hfiles
  induction plantings generalizing store with
  | nil => exact fun _ hmem => absurd hmem List.not_mem_nil
  | cons planting plantings ih =>
    rw [List.pairwise_cons] at hfiles
    obtain ⟨later, hplant, hrest⟩ := plantAll_cons_eq_ok_iff.1 h
    rw [plantAll_cons_of_ok hplant]
    refine List.forall_mem_cons.2 ⟨?_, ih hfiles.2 hrest⟩
    -- No later file takes the place of this one.
    refine plantAll_induction (standsIn_of_plant hplant) ?_
    intro other hmem middle after hstands hother
    refine standsIn_of_plant_of_standsIn hstands hother fun location hlocation hsame => ?_
    exact hfiles.1 other hmem location hlocation location hsame rfl

/-- What is there already can be put in, one after the other, and nothing changes. -/
theorem plantAll_of_standsIn (h : ∀ planting ∈ plantings, planting.StandsIn store) :
    store.plantAll plantings = (.ok (), store) := by
  induction plantings with
  | nil => rfl
  | cons planting plantings ih =>
    rw [List.forall_mem_cons] at h
    rw [plantAll_cons_of_ok (plant_of_standsIn h.1), ih h.2]

/-- Plantings one after the other succeed if the first ones do and the others do after them. -/
theorem plantAll_append_eq_ok_iff {more : List Planting} :
    (store.plantAll (plantings ++ more)).1 = .ok () ↔
      (store.plantAll plantings).1 = .ok () ∧
        ((store.plantAll plantings).2.plantAll more).1 = .ok () := by
  induction plantings generalizing store with
  | nil => simp [plantAll]
  | cons planting plantings ih =>
    rw [List.cons_append, plantAll_cons_eq_ok_iff, plantAll_cons_eq_ok_iff]
    constructor
    · rintro ⟨later, hplant, hrest⟩
      rw [plantAll_cons_of_ok hplant]
      exact ⟨⟨later, hplant, (ih.1 hrest).1⟩, (ih.1 hrest).2⟩
    · rintro ⟨⟨later, hplant, hrest⟩, hmore⟩
      rw [plantAll_cons_of_ok hplant] at hmore
      exact ⟨later, hplant, ih.2 ⟨hrest, hmore⟩⟩

/-- Whether no planting in a list gets in the way of another one, or out of it. -/
def Undisturbed (plantings : List Planting) : Prop :=
  ∀ one ∈ plantings, ∀ other ∈ plantings, ∀ store later : Store, store.plant one = .ok later →
    ((∃ after, later.plant other = .ok after) ↔ ∃ after, store.plant other = .ok after)

/-- Such plantings can be put in one after the other if each of them can be at first. -/
theorem Undisturbed.plantAll_eq_ok_iff (hundisturbed : Undisturbed plantings) :
    (store.plantAll plantings).1 = .ok () ↔
      ∀ planting ∈ plantings, ∃ later, store.plant planting = .ok later := by
  induction plantings generalizing store with
  | nil => simp [plantAll]
  | cons planting plantings ih =>
    -- What can be planted afterwards is what could be planted before, one planting at a time.
    have hrest : ∀ later, store.plant planting = .ok later →
        ((later.plantAll plantings).1 = .ok () ↔
          ∀ other ∈ plantings, ∃ after, store.plant other = .ok after) := by
      intro later hplant
      rw [ih fun one hone other hother => hundisturbed one (List.mem_cons_of_mem _ hone) other
        (List.mem_cons_of_mem _ hother)]
      exact forall₂_congr fun other hother => hundisturbed planting List.mem_cons_self other
        (List.mem_cons_of_mem _ hother) store later hplant
    rw [plantAll_cons_eq_ok_iff, List.forall_mem_cons]
    constructor
    · rintro ⟨later, hplant, hok⟩
      exact ⟨⟨later, hplant⟩, (hrest later hplant).1 hok⟩
    · rintro ⟨⟨later, hplant⟩, hall⟩
      exact ⟨later, hplant, (hrest later hplant).2 hall⟩

/-! ## Directories alone, and files alone -/

/-- A directory can be put in exactly where no file is. -/
theorem exists_plant_directory_iff :
    (∃ later, store.plant (.directory path) = .ok later) ↔
      ∀ content, store.find? (Location.ofText path) ≠ some (.file content) := by
  constructor
  · rintro ⟨later, h⟩ content
    obtain ⟨hnode, -⟩ | ⟨hnode, -⟩ := mkdir_eq_ok_iff.1 h <;> simp [hnode]
  · intro hfree
    cases hnode : store.find? (Location.ofText path) with
    | none => exact ⟨_, mkdir_eq_ok_iff.2 (.inr ⟨hnode, rfl⟩)⟩
    | some node =>
      cases node with
      | file content => exact absurd hnode (hfree content)
      | directory => exact ⟨_, mkdir_eq_ok_iff.2 (.inl ⟨hnode, rfl⟩)⟩

/-- Directories that are put in neither make nor replace files. -/
theorem find?_plant_directory_eq_file_iff (h : store.plant (.directory path) = .ok later) :
    later.find? location = some (.file content) ↔ store.find? location = some (.file content) := by
  constructor
  · intro hfile
    obtain hsame | ⟨-, hdirectory⟩ := find?_plant_cases h location
    · rwa [hsame] at hfile
    · simp [hdirectory, Planting.node] at hfile
  · intro hfile
    rw [find?_plant_of_isSome h (by rw [hfile]; rfl) (by simp [Planting.fileLocation?]), hfile]

theorem undisturbed_directories (paths : List String) :
    Undisturbed (paths.map .directory) := by
  simp only [Undisturbed, List.forall_mem_map]
  intro one _ other _ store later hplant
  simp only [exists_plant_directory_iff, ne_eq, find?_plant_directory_eq_file_iff hplant]

/-- Directories can be put in one after the other if no files are there at first. -/
theorem plantAll_directories_eq_ok_iff {paths : List String} :
    (store.plantAll (paths.map .directory)).1 = .ok () ↔
      ∀ path ∈ paths, ∀ content, store.find? (Location.ofText path) ≠ some (.file content) := by
  rw [(undisturbed_directories paths).plantAll_eq_ok_iff]
  simp only [List.forall_mem_map, exists_plant_directory_iff]

/-- A file can be put in exactly where no directory is, but one is above. -/
theorem exists_plant_file_iff (content : Bytes) :
    (∃ later, store.plant (.file path content) = .ok later) ↔
      store.find? (Location.ofText path).parent = some .directory ∧
        store.find? (Location.ofText path) ≠ some .directory := by
  constructor
  · rintro ⟨later, h⟩
    exact (write_eq_ok_iff.1 h).imp_right And.left
  · rintro ⟨hparent, hfree⟩
    exact ⟨_, write_eq_ok_iff.2 ⟨hparent, hfree, rfl⟩⟩

/-- Files that are put in neither make nor replace directories. -/
theorem find?_plant_file_eq_directory_iff (h : store.plant (.file path content) = .ok later) :
    later.find? location = some .directory ↔ store.find? location = some .directory := by
  refine ⟨fun hdirectory => ?_, find?_plant_of_directory h⟩
  obtain hsame | ⟨-, hfile⟩ := find?_plant_cases h location
  · rwa [hsame] at hdirectory
  · simp [hfile, Planting.node] at hdirectory

theorem undisturbed_files (files : List (String × Bytes)) : Undisturbed (files.map .ofFile) := by
  simp only [Undisturbed, List.forall_mem_map]
  intro one _ other _ store later hplant
  simp only [Planting.ofFile, exists_plant_file_iff, ne_eq,
    find?_plant_file_eq_directory_iff hplant]

/-- Files can be put in one after the other if each of them can be at first. -/
theorem plantAll_files_eq_ok_iff {files : List (String × Bytes)} :
    (store.plantAll (files.map Planting.ofFile)).1 = .ok () ↔
      ∀ file ∈ files, store.find? (Location.ofText file.1).parent = some .directory ∧
        store.find? (Location.ofText file.1) ≠ some .directory := by
  rw [(undisturbed_files files).plantAll_eq_ok_iff]
  simp only [List.forall_mem_map, Planting.ofFile, exists_plant_file_iff]

end Store

end Honeypot
