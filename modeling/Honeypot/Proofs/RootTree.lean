import Honeypot.Proofs.Path.Normal
import Honeypot.Proofs.Process.Footing
import Honeypot.Proofs.Store.Planting

/-!
# The root filesystem of a session

The directories and files that a session finds at its start are put in one after the other: those
that every system has, and those of the user. Where the user's home directory is, the settings say,
so that it may be in the way: where a file of the system is already, or where the log is still to
come.

* `RootTree.plantings_eq`: what is put in for the system, and what for the user.
* `RootTree.nodup_fileLocations`: no two files are put in one place.
* `RootTree.populate_empty_eq_ok_iff`: which home directories are not in the way.
* `RootTree.populate_of_check`: when usable settings give a filesystem, what it holds, and that a
  session can start there.
* `RootTree.populate_idempotent`: that putting everything in again changes nothing, and what is left
  alone even if something fails.

## References

- [SPEC] `SPEC_FULL.md`: §10, Supplementary Features
-/

namespace Honeypot

namespace Settings

/-- Usable settings name absolute home directories only. -/
theorem isAbsolute_home {settings : Settings} (h : settings.check = .ok settings) :
    Location.isAbsolute settings.home = true := by
  have hproblem : settings.problem? = none := by
    unfold check at h
    split at h
    · assumption
    · simp at h
  rw [home, homeOf]
  cases hfind : settings.homes.find? settings.user with
  | none =>
    -- All other users live where it is usual, whatever their names.
    dsimp only
    split_ifs
    · rfl
    · simp [Location.isAbsolute]
  | some home =>
    -- A home directory that was chosen is one of those that were checked.
    have hmem := (Entries.mem_iff settings.homes.nodup_keys).2 hfind
    unfold problem? at hproblem
    split_ifs at hproblem
    rw [Option.map_eq_none_iff, List.find?_eq_none] at hproblem
    simpa using hproblem _ hmem

end Settings

namespace RootTree

open Location (ofText)

/-! ## What is put in -/

/-- The files that every system has, with what the settings say about it. -/
def systemFiles (settings : Settings) : List (String × Bytes) :=
  [("/etc/hostname", Text.encode (hostnameText settings.hostname)),
    ("/etc/hosts", Text.encode (hostsText settings.hostname)),
    ("/etc/issue", Text.encode issueText),
    ("/etc/os-release", Text.encode releaseText),
    ("/etc/passwd", Text.encode (accountsText settings))]

/-- The files that come after the home directory of the user. -/
def laterFiles (settings : Settings) : List (String × Bytes) :=
  [(settings.home ++ "/.bashrc", Text.encode startupText), (settings.home ++ "/.bash_history", []),
    ("/var/log/auth.log", [])]

/-- What is put in before the home directory. -/
def systemPlantings (settings : Settings) : List Planting :=
  directories.map .directory ++ (systemFiles settings).map .ofFile

/-- The directories and files of the system, the home directory, and the files after it. -/
theorem plantings_eq (settings : Settings) :
    plantings settings = systemPlantings settings ++
      ([settings.home].map .directory ++ (laterFiles settings).map .ofFile) := by
  simp only [plantings, systemPlantings, systemFiles, laterFiles, Planting.ofFile, List.map_cons,
    List.map_nil, List.append_assoc, List.cons_append, List.nil_append]

/-! ## Where it is put -/

/-- The locations of the directories that every system has. -/
def directoryLocations : List Location :=
  [["bin"], ["boot"], ["dev"], ["etc"], ["home"], ["lib"], ["opt"], ["proc"], ["root"], ["sbin"],
    ["tmp"], ["bin", "usr"], ["bin", "local", "usr"], ["sbin", "usr"], ["log", "var"],
    ["tmp", "var"]]

/-- The locations of the files that every system has. -/
def systemLocations : List Location :=
  [["hostname", "etc"], ["hosts", "etc"], ["issue", "etc"], ["os-release", "etc"],
    ["passwd", "etc"]]

/-- The location of the log. -/
def logLocation : Location := ["auth.log", "log", "var"]

/-- The paths of the files that every system has. -/
def systemPaths : List String :=
  ["/etc/hostname", "/etc/hosts", "/etc/issue", "/etc/os-release", "/etc/passwd"]

/-- The paths of all files. -/
def filePaths (settings : Settings) : List String :=
  systemPaths ++ [settings.home ++ "/.bashrc", settings.home ++ "/.bash_history",
    "/var/log/auth.log"]

theorem map_fst_systemFiles (settings : Settings) :
    (systemFiles settings).map Prod.fst = systemPaths := rfl

theorem map_fst_laterFiles (settings : Settings) : (laterFiles settings).map Prod.fst =
    [settings.home ++ "/.bashrc", settings.home ++ "/.bash_history", "/var/log/auth.log"] := rfl

theorem map_text_systemLocations : systemLocations.map Location.text = systemPaths := by
  decide

theorem isNamed_of_mem_systemLocations {location : Location} (h : location ∈ systemLocations) :
    location.IsNamed := by
  have hnamed : ∀ location ∈ systemLocations, location.IsNamed := by decide
  exact hnamed location h

/-- All listed paths are in normal form, so that they are the texts of their locations. -/
theorem map_ofText_systemPaths : systemPaths.map ofText = systemLocations := by
  rw [← map_text_systemLocations]
  exact Location.map_ofText_map_text fun location => isNamed_of_mem_systemLocations

theorem map_ofText_directories : directories.map ofText = directoryLocations := by
  have htext : directoryLocations.map Location.text = directories := by decide
  have hnamed : ∀ location ∈ directoryLocations, location.IsNamed := by decide
  rw [← htext]
  exact Location.map_ofText_map_text hnamed

theorem text_logLocation : logLocation.text = "/var/log/auth.log" := by
  decide

theorem isNamed_logLocation : logLocation.IsNamed := by
  decide

theorem ofText_log : ofText "/var/log/auth.log" = logLocation := by
  rw [← text_logLocation, Location.ofText_text isNamed_logLocation]

/-- What has a plain name in the home directory. -/
theorem ofText_startup (settings : Settings) :
    ofText (settings.home ++ "/.bashrc") = ".bashrc" :: ofText settings.home := by
  have hname : Location.IsName ".bashrc" := by decide
  rw [← Location.ofText_append_name hname, String.append_assoc]
  exact congrArg (fun rest => ofText (settings.home ++ rest)) (by decide)

theorem ofText_history (settings : Settings) :
    ofText (settings.home ++ "/.bash_history") = ".bash_history" :: ofText settings.home := by
  have hname : Location.IsName ".bash_history" := by decide
  rw [← Location.ofText_append_name hname, String.append_assoc]
  exact congrArg (fun rest => ofText (settings.home ++ rest)) (by decide)

/-- Files are put where their paths lead. -/
theorem fileLocations_eq (settings : Settings) :
    (plantings settings).filterMap Planting.fileLocation? = (filePaths settings).map ofText := by
  rw [plantings_eq, systemPlantings, List.filterMap_append, List.filterMap_append,
    List.filterMap_append]
  simp only [Planting.filterMap_fileLocation?_directories, Planting.filterMap_fileLocation?_files,
    map_fst_systemFiles, map_fst_laterFiles, List.nil_append, filePaths, List.map_append]

/-- Every file has a place of its own. -/
theorem nodup_fileLocations (settings : Settings) :
    ((plantings settings).filterMap Planting.fileLocation?).Nodup := by
  rw [fileLocations_eq, filePaths, List.map_append, map_ofText_systemPaths, List.map_cons,
    List.map_cons, List.map_cons, ofText_startup, ofText_history, ofText_log, List.map_nil]
  simp [systemLocations, logLocation]

/-! ## The system on its own -/

/-- The store with the directories that every system has. -/
def directoryStore : Store := (Store.empty.plantAll (directories.map .directory)).2

/-- The store with the directories and files that every system has. -/
def systemStore (settings : Settings) : Store :=
  (Store.empty.plantAll (systemPlantings settings)).2

variable {settings : Settings} {location : Location}

theorem ofText_mem_systemLocations {file : String × Bytes} (h : file ∈ systemFiles settings) :
    ofText file.1 ∈ systemLocations := by
  rw [← map_ofText_systemPaths, ← map_fst_systemFiles settings, List.map_map]
  exact List.mem_map_of_mem h

/-- No directory is in the way of another one. -/
theorem fst_plantAll_directories :
    (Store.empty.plantAll (directories.map .directory)).1 = .ok () := by
  rw [Store.plantAll_directories_eq_ok_iff]
  intro path _ content
  rw [Store.find?_empty]
  split_ifs <;> simp

/-- A directory that was put in is listed or above one that is. -/
theorem exists_suffix_of_touches {planting : Planting} (h : planting ∈ directories.map .directory)
    (htouches : planting.Touches location) : ∃ above ∈ directoryLocations, location <:+ above := by
  obtain ⟨path, hpath, rfl⟩ := List.mem_map.1 h
  exact ⟨ofText path, map_ofText_directories ▸ List.mem_map_of_mem hpath, htouches⟩

/-- All files of the system go into one directory, where no other directory is. -/
theorem find?_directoryStore_of_mem (h : location ∈ systemLocations) :
    directoryStore.find? location.parent = some .directory ∧
      directoryStore.find? location ≠ some .directory := by
  constructor
  · have hparent : ∀ location ∈ systemLocations, location.parent ∈ directoryLocations := by
      decide
    obtain ⟨path, hpath, heq⟩ := List.mem_map.1 (map_ofText_directories ▸ hparent location h)
    rw [← heq, directoryStore]
    refine (Store.standsIn_plantAll ?_ fst_plantAll_directories _
      (List.mem_map_of_mem hpath)).find?_location
    rw [Planting.filterMap_fileLocation?_directories]
    exact List.nodup_nil
  · have habove : ∀ location ∈ systemLocations, ∀ above ∈ [] :: directoryLocations,
        ¬ location <:+ above := by decide
    intro hdirectory
    -- It would be the root, which was there before, or on the way to a listed directory.
    obtain hsame | ⟨planting, hmem, htouches, -⟩ :=
      Store.find?_plantAll_cases Store.empty (directories.map .directory) location
    · rw [directoryStore, hsame, Store.find?_empty] at hdirectory
      split_ifs at hdirectory with hroot
      exact habove location h [] List.mem_cons_self (hroot ▸ List.suffix_refl _)
    · obtain ⟨above, habovemem, hsuffix⟩ := exists_suffix_of_touches hmem htouches
      exact habove location h above (List.mem_cons_of_mem _ habovemem) hsuffix

/-- Nothing of the system is in the way of the rest of it. -/
theorem fst_plantAll_systemPlantings (settings : Settings) :
    (Store.empty.plantAll (systemPlantings settings)).1 = .ok () := by
  rw [systemPlantings, Store.plantAll_append_eq_ok_iff, Store.plantAll_files_eq_ok_iff]
  refine ⟨fst_plantAll_directories, fun file hfile => ?_⟩
  rw [← directoryStore]
  exact find?_directoryStore_of_mem (ofText_mem_systemLocations hfile)

theorem standsIn_systemStore :
    ∀ planting ∈ systemPlantings settings, planting.StandsIn (systemStore settings) := by
  rw [systemStore]
  refine Store.standsIn_plantAll ?_ (fst_plantAll_systemPlantings settings)
  have h := nodup_fileLocations settings
  rw [plantings_eq, List.filterMap_append] at h
  exact h.of_append_left

/-- Every node of the system is the root, a directory on the way to a listed one, or a file. -/
theorem find?_systemStore_cases (settings : Settings) (location : Location) :
    (systemStore settings).find? location = none ∨
      ((systemStore settings).find? location = some .directory ∧
        ∃ above ∈ directoryLocations, location <:+ above) ∨
      location ∈ systemLocations ∧
        ∃ content, (systemStore settings).find? location = some (.file content) := by
  obtain hsame | ⟨planting, hmem, htouches, hnode⟩ :=
    Store.find?_plantAll_cases Store.empty (systemPlantings settings) location
  · -- Only the root was there before, and it is above everything.
    rw [← systemStore, Store.find?_empty] at hsame
    split_ifs at hsame with hroot
    · exact .inr (.inl ⟨hsame, ["bin"], List.mem_cons_self, hroot ▸ List.nil_suffix⟩)
    · exact .inl hsame
  · rw [← systemStore] at hnode
    refine .inr ?_
    rcases List.mem_append.1 hmem with hdirectory | hfile
    · have hplanted : planting.node = .directory := by
        obtain ⟨path, -, rfl⟩ := List.mem_map.1 hdirectory
        rfl
      exact .inl ⟨hplanted ▸ hnode, exists_suffix_of_touches hdirectory htouches⟩
    · obtain ⟨file, hsystem, rfl⟩ := List.mem_map.1 hfile
      obtain rfl : location = ofText file.1 := htouches
      exact .inr ⟨ofText_mem_systemLocations hsystem, _, hnode⟩

/-- The files of the system are those that are listed. -/
theorem exists_find?_systemStore_eq_file_iff :
    (∃ content, (systemStore settings).find? location = some (.file content)) ↔
      location ∈ systemLocations := by
  constructor
  · rintro ⟨content, hnode⟩
    obtain hnone | ⟨hdirectory, -⟩ | ⟨hmem, -⟩ := find?_systemStore_cases settings location
    · simp [hnone] at hnode
    · simp [hdirectory] at hnode
    · exact hmem
  · intro hmem
    rw [← map_ofText_systemPaths, ← map_fst_systemFiles settings, List.map_map] at hmem
    obtain ⟨file, hfile, rfl⟩ := List.mem_map.1 hmem
    have hplanting : .ofFile file ∈ systemPlantings settings :=
      List.mem_append_right _ (List.mem_map_of_mem hfile)
    exact ⟨file.2, (standsIn_systemStore _ hplanting).find?_location⟩

/-- Nothing of the system is at the log or below it. -/
theorem find?_systemStore_of_log_suffix (h : logLocation <:+ location) :
    (systemStore settings).find? location = none := by
  have hdirectories : ∀ above ∈ directoryLocations, ¬ logLocation <:+ above := by decide
  have hsystem : ∀ location ∈ systemLocations, ¬ logLocation <:+ location := by decide
  obtain hnone | ⟨-, above, habove, hsuffix⟩ | ⟨hmem, -⟩ :=
    find?_systemStore_cases settings location
  · exact hnone
  · exact absurd (h.trans hsuffix) (hdirectories above habove)
  · exact absurd h (hsystem location hmem)

/-- The system has a directory for the log. -/
theorem find?_systemStore_log_parent :
    (systemStore settings).find? logLocation.parent = some .directory := by
  have hmem : logLocation.parent ∈ directories.map ofText := by
    rw [map_ofText_directories]
    decide
  obtain ⟨path, hpath, heq⟩ := List.mem_map.1 hmem
  have hplanting : .directory path ∈ systemPlantings settings :=
    List.mem_append_left _ (List.mem_map_of_mem hpath)
  rw [← heq]
  exact (standsIn_systemStore _ hplanting).find?_location

/-! ## The home directory and what comes after it -/

/-- Nothing in the home directory is a directory, unless its name is that of a listed one. -/
theorem find?_in_home_ne_directory {store : Store} {name : String}
    (h : (systemStore settings).plant (.directory settings.home) = .ok store)
    (hname : ∀ location ∈ directoryLocations, name ∉ location) :
    store.find? (name :: ofText settings.home) ≠ some .directory := by
  intro hdirectory
  obtain hsame | ⟨htouches, -⟩ := Store.find?_plant_cases h (name :: ofText settings.home)
  · rw [hsame] at hdirectory
    obtain hnone | ⟨-, above, habove, hsuffix⟩ | ⟨-, content, hfile⟩ :=
      find?_systemStore_cases settings (name :: ofText settings.home)
    · simp [hnone] at hdirectory
    · exact hname above habove (hsuffix.subset List.mem_cons_self)
    · simp [hfile] at hdirectory
  · -- The way to the home directory ends there.
    exact absurd htouches.length_le (by simp)

/-- There is a directory in the place of the log exactly if the home directory is there or below. -/
theorem find?_log_eq_directory_iff {store : Store}
    (h : (systemStore settings).plant (.directory settings.home) = .ok store) :
    store.find? logLocation = some .directory ↔ logLocation <:+ ofText settings.home := by
  have hfree : (systemStore settings).find? logLocation = none :=
    find?_systemStore_of_log_suffix (List.suffix_refl _)
  constructor
  · intro hdirectory
    obtain hsame | ⟨htouches, -⟩ := Store.find?_plant_cases h logLocation
    · simp [hsame, hfree] at hdirectory
    · exact htouches
  · intro hsuffix
    have hmkdir : (systemStore settings).mkdir settings.home = .ok store := h
    obtain ⟨hnode, -⟩ | ⟨-, hmade⟩ := Store.mkdir_eq_ok_iff.1 hmkdir
    · rw [find?_systemStore_of_log_suffix hsuffix] at hnode
      simp at hnode
    · -- The way from the log to the home directory is free, so all of it is made.
      rw [hmade]
      refine (Store.find?_makeDirectories _ _ _).1 (.inr ⟨hsuffix, fun between hbetween _ _ => ?_⟩)
      exact find?_systemStore_of_log_suffix hbetween

/-- The files after the home directory can be put in unless it is where the log should be. -/
theorem plantAll_laterFiles_eq_ok_iff {store : Store}
    (h : (systemStore settings).plant (.directory settings.home) = .ok store) :
    (store.plantAll ((laterFiles settings).map .ofFile)).1 = .ok () ↔
      ¬ logLocation <:+ ofText settings.home := by
  have hhome : store.find? (ofText settings.home) = some .directory :=
    (Store.standsIn_of_plant h).find?_location
  have hlog := Store.find?_plant_of_directory h find?_systemStore_log_parent
  have hstartup : ∀ location ∈ directoryLocations, ".bashrc" ∉ location := by decide
  have hhistory : ∀ location ∈ directoryLocations, ".bash_history" ∉ location := by decide
  rw [Store.plantAll_files_eq_ok_iff, ← find?_log_eq_directory_iff h, laterFiles,
    List.forall_mem_cons, List.forall_mem_cons, List.forall_mem_singleton]
  simp only [ofText_startup, ofText_history, ofText_log, Location.parent, List.tail_cons]
  -- The two files in the home directory are in nobody's way, so the log decides.
  constructor
  · rintro ⟨-, -, -, hfree⟩
    exact hfree
  · exact fun hfree => ⟨⟨hhome, find?_in_home_ne_directory h hstartup⟩,
      ⟨hhome, find?_in_home_ne_directory h hhistory⟩, hlog, hfree⟩

/-- After the system come the home directory and what is in it, and the log. -/
theorem fst_populate_empty_eq_ok_iff (settings : Settings) :
    (populate settings .empty).1 = .ok () ↔
      ((systemStore settings).plantAll
        (.directory settings.home :: (laterFiles settings).map .ofFile)).1 = .ok () := by
  rw [populate, plantings_eq, Store.plantAll_append_eq_ok_iff, ← systemStore, List.map_singleton,
    List.singleton_append, and_iff_right (fst_plantAll_systemPlantings settings)]

/-- The filesystem can be built unless the home directory is a file of the system, or is where the
log should be. -/
theorem populate_empty_eq_ok_iff (settings : Settings) :
    (populate settings .empty).1 = .ok () ↔
      ofText settings.home ∉ systemLocations ∧ ¬ logLocation <:+ ofText settings.home := by
  -- The home directory itself fails only at a file. Once it is there, the log alone can fail.
  rw [fst_populate_empty_eq_ok_iff, Store.plantAll_cons_eq_ok_iff,
    ← exists_find?_systemStore_eq_file_iff, not_exists, ← Store.exists_plant_directory_iff]
  constructor
  · rintro ⟨store, hplant, hrest⟩
    exact ⟨⟨store, hplant⟩, (plantAll_laterFiles_eq_ok_iff hplant).1 hrest⟩
  · rintro ⟨⟨store, hplant⟩, hlog⟩
    exact ⟨store, hplant, (plantAll_laterFiles_eq_ok_iff hplant).2 hlog⟩

/-! ## The home directory by its name -/

/-- The home directory is a file of the system exactly if its normal form is the path of one. -/
theorem ofText_mem_systemLocations_iff {path : String} :
    ofText path ∈ systemLocations ↔ Location.normalize path ∈ systemPaths := by
  rw [← map_text_systemLocations]
  constructor
  · exact List.mem_map_of_mem
  · intro h
    obtain ⟨location, hmem, htext⟩ := List.mem_map.1 h
    have hsame : location = ofText path := Location.text_injective
      (isNamed_of_mem_systemLocations hmem) (Location.isNamed_ofText path) htext
    exact hsame ▸ hmem

/-- The home directory is at the log or below it exactly if its normal form is the path of the log
or goes on after that and a slash. -/
theorem log_suffix_iff {path : String} : logLocation <:+ ofText path ↔
    Location.normalize path = "/var/log/auth.log" ∨
      "/var/log/auth.log/".toList <+: (Location.normalize path).toList := by
  have hlog : Location.normalize "/var/log/auth.log" = "/var/log/auth.log" := by
    rw [Location.normalize, ofText_log, text_logLocation]
  have heq : Location.normalize path = "/var/log/auth.log" ↔ ofText path = logLocation := by
    rw [← ofText_log, ← Location.normalize_eq_iff, hlog]
  -- Normal texts are compared by a prefix that ends in a slash, locations by a suffix of names.
  have hprefix : (∃ rest, Location.normalize path = "/var/log/auth.log" ++ "/" ++ rest) ↔
      "/var/log/auth.log/".toList <+: (Location.normalize path).toList := by
    constructor
    · rintro ⟨rest, h⟩
      exact ⟨rest.toList, by rw [h, String.toList_append]; rfl⟩
    · rintro ⟨rest, h⟩
      exact ⟨String.ofList rest, String.toList_inj.1 (by rw [← h]; simp)⟩
  rw [← hprefix,
    Location.exists_eq_append_slash_iff (by decide) (Location.normalize_normalize path), hlog,
    Location.ofText_normalize, ofText_log, Location.isBelow_iff, heq]
  constructor
  · intro h
    exact or_iff_not_imp_left.2 fun hne => ⟨rfl, by decide, h, hne⟩
  · rintro (h | ⟨-, -, h, -⟩)
    · exact h ▸ List.suffix_refl _
    · exact h

/-! ## The start of a session -/

/-- The files that a session should find, each with its text. -/
def expectedTexts (settings : Settings) : List (String × String) :=
  [("/etc/hostname", settings.hostname ++ "\n"),
    ("/etc/hosts", "127.0.0.1\tlocalhost\n127.0.1.1\t" ++ settings.hostname ++
      "\n\n::1\t\tlocalhost ip6-localhost ip6-loopback\n"),
    ("/etc/issue", "Debian GNU/Linux 10 \\n \\l\n\n"),
    ("/etc/os-release", "PRETTY_NAME=\x22Debian GNU/Linux 10 (buster)\x22\n" ++
      "NAME=\x22Debian GNU/Linux\x22\nVERSION_ID=\x2210\x22\n" ++
      "VERSION=\x2210 (buster)\x22\nID=debian\n"),
    ("/etc/passwd", "root:x:0:0:root:/root:/bin/bash\n" ++
      "daemon:x:1:1:daemon:/usr/sbin:/usr/sbin/nologin\n" ++
      "www-data:x:33:33:www-data:/var/www:/usr/sbin/nologin\n" ++
      if settings.user = "root" then ""
      else settings.user ++ ":x:1000:1000:" ++ settings.user ++ ":" ++ settings.home ++
        ":/bin/bash\n"),
    (settings.home ++ "/.bashrc", "# ~/.bashrc: executed by bash(1) for non-login shells.\n" ++
      "export LS_OPTIONS=\x27--color=auto\x27\n"),
    (settings.home ++ "/.bash_history", ""),
    ("/var/log/auth.log", "")]

/-- The files that are put in hold the texts that a session should find. -/
theorem file_mem_plantings_of_mem_expectedTexts {path text : String}
    (h : (path, text) ∈ expectedTexts settings) :
    .file path (Text.encode text) ∈ plantings settings := by
  have hrelease : releaseText = "PRETTY_NAME=\x22Debian GNU/Linux 10 (buster)\x22\n" ++
      "NAME=\x22Debian GNU/Linux\x22\nVERSION_ID=\x2210\x22\n" ++
      "VERSION=\x2210 (buster)\x22\nID=debian\n" := by decide
  have haccounts : accountsText settings = "root:x:0:0:root:/root:/bin/bash\n" ++
      "daemon:x:1:1:daemon:/usr/sbin:/usr/sbin/nologin\n" ++
      "www-data:x:33:33:www-data:/var/www:/usr/sbin/nologin\n" ++
      if settings.user = "root" then ""
      else settings.user ++ ":x:1000:1000:" ++ settings.user ++ ":" ++ settings.home ++
        ":/bin/bash\n" := by
    unfold accountsText
    split_ifs
    · exact String.append_empty.symm
    · rfl
  let file (entry : String × String) : Planting := .file entry.1 (Text.encode entry.2)
  -- Five files are put in before the home directory, and the others after it.
  have hplantings : plantings settings = directories.map .directory ++
      (((expectedTexts settings).take 5).map file ++
        .directory settings.home :: ((expectedTexts settings).drop 5).map file) := by
    rw [expectedTexts, ← hrelease, ← haccounts]
    rfl
  rw [← List.take_append_drop 5 (expectedTexts settings)] at h
  rw [hplantings]
  refine List.mem_append_right _ ?_
  rcases List.mem_append.1 h with hearly | hlate
  · exact List.mem_append_left _ (List.mem_map_of_mem hearly)
  · exact List.mem_append_right _ (List.mem_cons_of_mem _ (List.mem_map_of_mem hlate))

/-- Whether a store is as a session should find it. -/
structure IsReady (settings : Settings) (store : Store) : Prop where
  /-- The eight files hold their texts. -/
  read_eq : ∀ path text, (path, text) ∈ expectedTexts settings →
    store.read path = .ok (Text.encode text)
  /-- All listed directories exist, and so does the home directory. -/
  isDirectory_eq : ∀ path ∈ directories ++ [settings.home],
    (Volume.ofStore store).isDirectory path = .ok true
  /-- A process can start in the home directory, and makes nothing for it. -/
  start_eq : ∀ session geometry order,
    Process.start session settings.home (.ofStore store) geometry order =
      .ok ⟨session, settings.home, ∅, .ofStore store, geometry, order⟩

/-- A file that was put in can be read. -/
theorem read_populate {store : Store} (h : (populate settings store).1 = .ok ()) {path : String}
    {content : Bytes} (hplanting : .file path content ∈ plantings settings) :
    (populate settings store).2.read path = .ok content := by
  have hstands := Store.standsIn_plantAll (nodup_fileLocations settings) h
  have hnode : (populate settings store).2.find? (ofText path) = some (.file content) :=
    (hstands _ hplanting).find?_location
  rw [Store.read]
  simp only [hnode]

/-- A filesystem that was built is as a session should find it. -/
theorem isReady_populate (hcheck : settings.check = .ok settings) {store : Store}
    (h : (populate settings store).1 = .ok ()) : IsReady settings (populate settings store).2 := by
  have hstands := Store.standsIn_plantAll (nodup_fileLocations settings) h
  have hdirectory : ∀ path ∈ directories ++ [settings.home],
      (Volume.ofStore (populate settings store).2).isDirectory path = .ok true := by
    intro path hpath
    have hplanting : .directory path ∈ plantings settings := by
      rw [plantings_eq, systemPlantings]
      rcases List.mem_append.1 hpath with hpath | hpath
      · exact List.mem_append_left _ (List.mem_append_left _ (List.mem_map_of_mem hpath))
      · exact List.mem_append_right _ (List.mem_append_left _ (List.mem_map_of_mem hpath))
    refine Volume.isDirectory_eq_ok_true_iff.2 ⟨?_, (hstands _ hplanting).find?_location⟩
    simp [Volume.denies, Volume.ofStore]
  refine ⟨fun path text htext => ?_, hdirectory, fun session geometry order => ?_⟩
  · exact read_populate h (file_mem_plantings_of_mem_expectedTexts htext)
  · have hhome := hdirectory settings.home (List.mem_append_right _ List.mem_cons_self)
    exact Process.start_eq_ok_iff.2
      ⟨Settings.isAbsolute_home hcheck, _, .inl ⟨hhome, rfl⟩, rfl⟩

/-- Usable settings give a filesystem unless they put the home directory where a file of the system
is, or where the log should be. A session can start on it as it is. -/
theorem populate_of_check (h : settings.check = .ok settings) :
    (Location.isAbsolute settings.home = true ∧
      Location.isAbsolute (Location.normalize settings.home) = true) ∧
    ((populate settings .empty).1 = .ok () ↔
      Location.normalize settings.home ∉ systemPaths ∧
        Location.normalize settings.home ≠ "/var/log/auth.log" ∧
          ¬ "/var/log/auth.log/".toList <+: (Location.normalize settings.home).toList) ∧
    ((populate settings .empty).1 = .ok () → IsReady settings (populate settings .empty).2) := by
  refine ⟨⟨Settings.isAbsolute_home h, Location.isAbsolute_normalize _⟩, ?_, isReady_populate h⟩
  rw [populate_empty_eq_ok_iff, ofText_mem_systemLocations_iff, log_suffix_iff, not_or]

/-- Settings whose user has no home directory of the usual kind. It is below the account file. -/
def climbingUser : Settings :=
  { Settings.default with user := "../etc/passwd/x" }

/-- Settings that put the home directory below the log. -/
def loggedHome : Settings :=
  { Settings.default with homes := .ofList [("root", "/var//log/./auth.log/d/")] }

/-- A home directory below a file of the system is not in the way, one below the log is. -/
theorem populate_of_check_below_files :
    (climbingUser.check = .ok climbingUser ∧
      Location.normalize climbingUser.home = "/etc/passwd/x" ∧
      (populate climbingUser .empty).1 = .ok () ∧
      IsReady climbingUser (populate climbingUser .empty).2) ∧
    loggedHome.check = .ok loggedHome ∧
      Location.normalize loggedHome.home = "/var/log/auth.log/d" ∧
      (populate loggedHome .empty).1 ≠ .ok () := by
  have hclimbing : climbingUser.check = .ok climbingUser := rfl
  have hlogged : loggedHome.check = .ok loggedHome := rfl
  have hbelow : Location.normalize climbingUser.home = "/etc/passwd/x" := by decide
  have hlog : Location.normalize loggedHome.home = "/var/log/auth.log/d" := by decide
  obtain ⟨-, hiff, hready⟩ := populate_of_check hclimbing
  have hbuilt : (populate climbingUser .empty).1 = .ok () := by
    refine hiff.2 ?_
    rw [hbelow]
    decide
  refine ⟨⟨hclimbing, hbelow, hbuilt, hready hbuilt⟩, hlogged, hlog, fun hfailed => ?_⟩
  have hfree := ((populate_of_check hlogged).2.1.1 hfailed).2.2
  rw [hlog] at hfree
  exact hfree (by decide)

/-! ## What was there before, and putting everything in again -/

/-- To put everything in again changes nothing. Whether or not something fails, only the listed
directories, the home directory, what is above them and the files are touched. -/
theorem populate_idempotent (settings : Settings) (store : Store) :
    ((populate settings store).1 = .ok () →
      populate settings (populate settings store).2 = (.ok (), (populate settings store).2)) ∧
    ∀ location, (∀ path ∈ directories ++ [settings.home], ¬ location <:+ ofText path) →
      (∀ path ∈ filePaths settings, location ≠ ofText path) →
        (populate settings store).2.find? location = store.find? location := by
  refine ⟨fun h => ?_, fun location hdirectories hfiles => ?_⟩
  · exact Store.plantAll_of_standsIn (Store.standsIn_plantAll (nodup_fileLocations settings) h)
  · obtain hsame | ⟨planting, hmem, htouches, -⟩ :=
      Store.find?_plantAll_cases store (plantings settings) location
    · exact hsame
    -- A node that changed was touched by a planting, at or above one of the paths excluded.
    · exfalso
      cases planting with
      | directory path =>
        refine hdirectories path ?_ htouches
        simpa [plantings] using hmem
      | file path content =>
        have hlocation : ofText path ∈ (plantings settings).filterMap Planting.fileLocation? :=
          List.mem_filterMap.2 ⟨_, hmem, rfl⟩
        rw [fileLocations_eq] at hlocation
        obtain ⟨other, hother, heq⟩ := List.mem_map.1 hlocation
        exact hfiles other hother (htouches.trans heq.symm)

/-- A store with files of its own, one of them where a file of the system will be. -/
def lived : Store :=
  Store.empty.after [.mkdir "/srv", .write "/srv/data" [1, 2], .mkdir "/etc",
    .write "/etc/hostname" [3]]

/-- Settings that take a file of the system for the home directory. -/
def fileHome : Settings :=
  { Settings.default with homes := .ofList [("root", "/etc/../etc//hostname")] }

/-- The name of the host is replaced once. The file elsewhere stays, also if the home directory is
in the way of everything after it. -/
theorem populate_idempotent_lived :
    (populate climbingUser lived).2.find? ["hostname", "etc"] =
      some (.file (Text.encode "svr04\n")) ∧
    populate climbingUser (populate climbingUser lived).2 =
      (.ok (), (populate climbingUser lived).2) ∧
    (populate fileHome lived).1 = .error (.filesystem (.fileExists "/etc/hostname")) ∧
    (populate fileHome lived).2.find? ["data", "srv"] = some (.file [1, 2]) := by
  have hbuilt : (populate climbingUser lived).1 = .ok () ∧
      (populate climbingUser lived).2.find? ["hostname", "etc"] =
        some (.file (Text.encode "svr04\n")) := by decide +kernel
  have hdata : lived.find? ["data", "srv"] = some (.file [1, 2]) := by decide
  refine ⟨hbuilt.2, (populate_idempotent climbingUser lived).1 hbuilt.1, by decide +kernel, ?_⟩
  rw [← hdata]
  exact (populate_idempotent fileHome lived).2 _ (by decide) (by decide)

end RootTree

end Honeypot
