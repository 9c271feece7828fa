import Honeypot.Proofs.Userland.Effects

/-!
# Going from directory to directory

`cd` reads where it is told to go from the working directory, folds it, and moves the process there
if it can see a directory. Then everything that says where the process is changes together, and
otherwise nothing changes and there is one complaint. A process itself can be told to move as well,
and takes the path as it is. The name of its working directory grows then, but the directory stays
the one that `cd` would be in.

* `Userland.cd_all_or_nothing`: what `cd` does to the process, the variables and the streams.
* `Process.InStep`: processes in one directory under names that may differ.
* `Userland.cd_keeps_in_step`: a process that is moved beside one in which `cd` is run.

## References

- [SPEC] `SPEC_FULL.md`: §4.2, Virtual Process Context; §7, Error Handling;
  §10, Supplementary Features
-/

namespace Honeypot

variable {σ : Type} [Supply σ]

/-! ## One change of directory -/

namespace Userland

open Program

/-- `cd` changes everything or nothing, on the session's own streams or through an observer. If it
can see the directory that it is told to go to, the process is there under the normal form of the
path, `PWD` is that path and `OLDPWD` the one before, and all else is as it was. If not, all that
happens is one attempt to complain on standard error. -/
theorem cd_all_or_nothing (streams : Streams σ) (observer : Option (Duplex σ))
    (args : List String) (machine : Machine σ) :
    let process := machine.process
    let target := process.cdTarget args
    let path := Location.resolve process.directory target
    let view := streams.boundTo observer
    let outcome := (cd.program args).run view machine
    (process.volume.Shows path →
      outcome.1 = .ok 0 ∧ Location.isAbsolute path = true ∧ Location.normalize path = path ∧
      ∃ environment : Environment,
        outcome.2 = { machine with process := { process with directory := path, environment } } ∧
        environment.find? "PWD" = some path ∧
        environment.find? "OLDPWD" = some process.directory ∧
        ∀ name, name ≠ "PWD" → name ≠ "OLDPWD" →
          environment.find? name = process.environment.find? name) ∧
    (¬ process.volume.Shows path →
      outcome.1 = .ok 1 ∧
      outcome.2 = { machine with
        plumbing := (view.error.sink.writeParts (cdComplaint target) machine.plumbing).2 }) := by
  intro process target path view outcome
  constructor
  · intro hshows
    have houtcome : outcome = _ := run_cd_of_shows view args machine hshows
    refine ⟨congrArg Prod.fst houtcome, Location.isAbsolute_resolve _ _,
      Location.normalize_resolve _ _,
      (process.environment.insert "OLDPWD" process.directory).insert "PWD" path, ?_, ?_, ?_, ?_⟩
    · rw [houtcome]
      show { machine with process := process.moved path } = _
      rw [Process.moved_of_shows hshows]
      rfl
    -- `PWD` is set last, and hides nothing but itself.
    · rw [Dictionary.find?_insert, if_pos rfl]
    · rw [Dictionary.find?_insert, if_neg (by decide), Dictionary.find?_insert, if_pos rfl]
    · intro name hpwd holdpwd
      rw [Dictionary.find?_insert, if_neg hpwd.symm, Dictionary.find?_insert, if_neg holdpwd.symm]
  · intro hshows
    have houtcome : outcome = _ := run_cd_of_not_shows view args machine hshows
    exact ⟨congrArg Prod.fst houtcome, congrArg Prod.snd houtcome⟩

/-- From a home that a variable names, up to the root; and nowhere if that may not be inspected,
with an error channel that takes half of the complaint. -/
theorem cd_all_or_nothing_at_root :
    let process : Process :=
      ⟨"console", "/", .ofList [("HOME", "srv/..//")], .ofStore .empty, ⟨80, 24⟩, .insertion⟩
    let denied : Process := { process with volume := ⟨.empty, [(.stat, "/")]⟩ }
    let wiring : Wiring := { error := { room := some 12 } }
    let outcome := (cd.program []).run (Wiring.streams.boundTo none) ⟨process, wiring, []⟩
    let failed := (cd.program []).run (Wiring.streams.boundTo none) ⟨denied, wiring, []⟩
    process.volume.Shows "/" ∧ ¬ denied.volume.Shows "/" ∧
      outcome.1 = .ok 0 ∧ outcome.2.process.valueOf? "OLDPWD" = some "/" ∧
      failed.1 = .ok 1 ∧ failed.2.process.environment = denied.environment := by
  intro process denied wiring outcome failed
  have hpath : Location.resolve "/" (process.cdTarget []) = "/" := by decide +kernel
  have hshows : process.volume.Shows "/" := by decide +kernel
  have hdenied : ¬ denied.volume.Shows "/" := by decide +kernel
  obtain ⟨hanswer, -, -, environment, hlater, -, hold, -⟩ :=
    (cd_all_or_nothing Wiring.streams none [] ⟨process, wiring, []⟩).1 (hpath.symm ▸ hshows)
  obtain ⟨hfailed, hsame⟩ :=
    (cd_all_or_nothing Wiring.streams none [] ⟨denied, wiring, []⟩).2 (hpath.symm ▸ hdenied)
  refine ⟨hshows, hdenied, hanswer, ?_, hfailed, ?_⟩
  · show outcome.2.process.environment.find? "OLDPWD" = _
    rw [show outcome.2 = _ from hlater]
    exact hold
  · rw [show failed.2 = _ from hsame]

end Userland

/-! ## One change of directory after the other -/

namespace Location

variable {one other : String}

/-- A path is read alike from one directory under two names. -/
theorem ofText_join_congr (h : ofText one = ofText other) (path : String) :
    ofText (join one path) = ofText (join other path) := by
  unfold join
  split
  · rfl
  · rw [ofText_append_slash, ofText_append_slash, h]

/-- Folding a path leads to the same place as reading it as it is. -/
theorem ofText_resolve (directory path : String) :
    ofText (resolve directory path) = ofText (join directory path) :=
  ofText_normalize _

end Location

namespace Process

/-- Whether two processes are in one existing directory of one filesystem where nothing is denied,
maybe under names that differ. -/
structure InStep (one other : Process) : Prop where
  volume : other.volume = one.volume
  denials : one.volume.denials = []
  location : Location.ofText one.directory = Location.ofText other.directory
  stands : one.Stands

/-- A process that is told to go to one path after the other: what each of them gives, and where the
process is then. -/
def walk : Process → List String → List (Except Failure Unit × Process)
  | _, [] => []
  | process, path :: paths =>
    let step := process.changeDirectory path
    step :: step.2.walk paths

namespace InStep

variable {one other : Process} (h : one.InStep other)

include h

theorem other_stands : other.Stands := by
  unfold Stands
  rw [h.volume, ← h.location]
  exact h.stands

/-- One of them can see a directory at a path as it is exactly if the other one can see it at the
folded path. -/
theorem shows_iff (path : String) :
    one.volume.Shows (Location.join one.directory path) ↔
      other.volume.Shows (Location.resolve other.directory path) := by
  simp only [Volume.Shows, Volume.denies, h.volume, h.denials, List.any_nil,
    Location.ofText_resolve, Location.ofText_join_congr h.location]

end InStep

/-- Processes that start in one home on one volume get the same volume, with what was denied on
it. -/
theorem exists_volume_of_start (home : String) (volume : Volume) :
    ∃ later : Volume, later.denials = volume.denials ∧
      ∀ session geometry order process, start session home volume geometry order = .ok process →
        process.volume = later := by
  have hdenials : (volume.mkdir home).2.denials = volume.denials := by
    unfold Volume.mkdir Volume.changed
    split <;> rfl
  by_cases hdirectory : volume.isDirectory home = .ok true
  · refine ⟨volume, rfl, fun session geometry order process h => ?_⟩
    obtain ⟨-, later, ⟨-, rfl⟩ | ⟨hmissing, -⟩, rfl⟩ := start_eq_ok_iff.1 h
    · rfl
    · simp [hmissing] at hdirectory
  · -- If a process starts at all then its home is made, and making it denies nothing.
    refine ⟨(volume.mkdir home).2, hdenials, fun session geometry order process h => ?_⟩
    obtain ⟨-, later, ⟨hthere, -⟩ | ⟨-, hmkdir⟩, rfl⟩ := start_eq_ok_iff.1 h
    · exact absurd hthere hdirectory
    · rw [hmkdir]

/-- Processes that start in one home on one filesystem are in step, whatever variables they get. -/
theorem inStep_of_start {session session' home : String} {store : Store}
    {geometry geometry' : Geometry} {order order' : Arrangement} {one other : Process}
    (hone : start session home (.ofStore store) geometry order = .ok one)
    (hother : start session' home (.ofStore store) geometry' order' = .ok other)
    (bindings bindings' : List (String × String)) :
    (one.withEnvironment bindings).InStep (other.withEnvironment bindings') := by
  obtain ⟨later, hdenials, hvolume⟩ := exists_volume_of_start home (.ofStore store)
  have honeVolume := hvolume _ _ _ _ hone
  have hstands : one.Stands := stands_of_start hone
  refine ⟨(hvolume _ _ _ _ hother).trans honeVolume.symm, ?_, ?_, hstands⟩
  · show one.volume.denials = []
    rw [honeVolume, hdenials]
    rfl
  · show Location.ofText one.directory = Location.ofText other.directory
    rw [directory_of_start hone, directory_of_start hother]

end Process

namespace Userland

/-- A machine on which `cd` is run with one path after the other: what each run gives, and the
machine after it. -/
def cdAll (streams : Streams σ) : Machine σ → List String → List (Except Crash Status × Machine σ)
  | _, [] => []
  | machine, path :: paths =>
    let step := (cd.program [path]).run streams machine
    step :: cdAll streams step.2 paths

/-- What there is to say of a move beside a `cd` to the same path: both succeed or both fail, and
the processes are in step after it. -/
structure SameMove (move : Except Failure Unit × Process) (run : Except Crash Status × Machine σ) :
    Prop where
  succeeds : move.1 = .ok () ↔ run.1 = .ok 0
  fails : move.1 ≠ .ok () ↔ run.1 = .ok 1
  inStep : move.2.InStep run.2.process

/-- A process that is moved to a path stays in step with one in which `cd` goes there. -/
theorem sameMove (streams : Streams σ) (path : String) {process : Process} {machine : Machine σ}
    (h : process.InStep machine.process) :
    SameMove (process.changeDirectory path) ((cd.program [path]).run streams machine) := by
  -- They read the path from one directory, so that both see where it leads or neither does.
  by_cases hshows : process.volume.Shows (Location.join process.directory path)
  · have hcd : machine.process.volume.Shows (cdPath machine.process [path]) :=
      (h.shows_iff path).1 hshows
    rw [Process.changeDirectory_of_shows hshows, run_cd_of_shows streams [path] machine hcd,
      Process.moved_of_shows hcd]
    refine ⟨by simp, by simp, h.volume, h.denials, ?_, hshows.2⟩
    show _ = Location.ofText (Location.resolve _ path)
    rw [Location.ofText_resolve]
    exact Location.ofText_join_congr h.location path
  · have hcd : ¬ machine.process.volume.Shows (cdPath machine.process [path]) :=
      fun hcd => hshows ((h.shows_iff path).2 hcd)
    obtain ⟨failure, hmove⟩ := Process.changeDirectory_of_not_shows hshows
    rw [hmove, run_cd_of_not_shows streams [path] machine hcd]
    exact ⟨by simp, by simp, h⟩

/-- Moves stay in step with runs of `cd` along any list of paths. -/
theorem forall₂_sameMove (streams : Streams σ) (paths : List String) {process : Process}
    {machine : Machine σ} (h : process.InStep machine.process) :
    List.Forall₂ SameMove (process.walk paths) (cdAll streams machine paths) := by
  induction paths generalizing process machine with
  | nil => exact .nil
  | cons path paths ih =>
    have hstep := sameMove streams path h
    -- The invariant of the run is that the processes are in step, not that they are equal.
    exact .cons hstep (ih hstep.inStep)

/-- Two processes start in one home on equal filesystems. One of them is moved from path to path,
and takes every path as it is; in the other `cd` is run with the same paths, on any streams. Then
each move succeeds exactly if its `cd` returns 0, and after it the two working directories have the
same normal form and name an existing directory of the filesystem that both still share. -/
theorem cd_keeps_in_step {session session' home : String} {store : Store}
    {geometry geometry' : Geometry} {order order' : Arrangement} {one other : Process}
    (hone : Process.start session home (.ofStore store) geometry order = .ok one)
    (hother : Process.start session' home (.ofStore store) geometry' order' = .ok other)
    (bindings bindings' : List (String × String)) (streams : Streams σ) (plumbing : σ)
    (paths : List String) :
    List.Forall₂
      (fun (move : Except Failure Unit × Process) (run : Except Crash Status × Machine σ) =>
        (move.1 = .ok () ↔ run.1 = .ok 0) ∧ (move.1 ≠ .ok () ↔ run.1 = .ok 1) ∧
        Location.normalize move.2.directory = Location.normalize run.2.process.directory ∧
        run.2.process.volume = move.2.volume ∧ move.2.Stands ∧ run.2.process.Stands)
      ((one.withEnvironment bindings).walk paths)
      (cdAll streams ⟨other.withEnvironment bindings', plumbing, []⟩ paths) := by
  apply (forall₂_sameMove streams paths
    (Process.inStep_of_start hone hother bindings bindings')).imp
  intro move run h
  refine ⟨h.succeeds, h.fails, ?_, h.inStep.volume, h.inStep.stands, h.inStep.other_stands⟩
  rw [Location.normalize, Location.normalize, h.inStep.location]

/-- Up to the root and beyond, down again, nowhere, and nowhere else. -/
theorem cd_keeps_in_step_around_root :
    let paths := ["..", "../root/.", "nope", "", "/root//../"]
    ∃ process, Process.start "console" "/root" (.ofStore .empty) ⟨80, 24⟩ .insertion =
        .ok process ∧
      (process.walk paths).map (fun move => move.2.directory) =
        ["/root/..", "/root/../../root/.", "/root/../../root/.", "/root/../../root/./",
          "/root//../"] ∧
      (cdAll Wiring.streams ⟨process, {}, []⟩ paths).map (fun run => run.2.process.directory) =
        ["/", "/root", "/root", "/root", "/"] ∧
      List.Forall₂
        (fun (move : Except Failure Unit × Process) (run : Except Crash Status × Machine Wiring) =>
          Location.normalize move.2.directory = Location.normalize run.2.process.directory)
        (process.walk paths) (cdAll Wiring.streams ⟨process, {}, []⟩ paths) := by
  have hstart : Process.start "console" "/root" (.ofStore .empty) ⟨80, 24⟩ .insertion = .ok _ :=
    rfl
  refine ⟨_, hstart, by decide +kernel, by decide +kernel, ?_⟩
  exact (cd_keeps_in_step hstart hstart [] [] Wiring.streams {} _).imp fun _ _ h => h.2.2.1

end Userland

end Honeypot
