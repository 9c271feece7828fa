import Honeypot.Console
import Honeypot.Proofs.Process.Lockstep
import Honeypot.Proofs.Store.Basic
import Mathlib.Data.List.Induction

/-!
# What a process stands on

A process starts in a directory that exists, and it moves only to a directory that exists. But a
program gets at the whole filesystem as well, and nothing there knows which directory a process is
in: an empty one can be taken away from under it. That is the only call that can do so.

* `Volume.Shows`: a directory that exists and that may be inspected.
* `Process.Stands`: the working directory exists.
* `Call.Uproots`: a call that takes the working directory away.
* `Machine.stands_answer_iff`: what one call does to the working directory.
* `Machine.through`: the machine after calls, each made directly or through an observer.
* `Process.stands_through_iff`: a process stands all the way exactly if no call uproots it, and
  only a change of directory that succeeds moves it.

## References

- [SPEC] `SPEC_FULL.md`: §3, Data Model; §4.2, Virtual Process Context
-/

namespace Honeypot

/-! ## Directories that stay -/

namespace Store

variable {store later : Store} {location : Location} {path : String}

/-- A file is not put where a directory is. -/
theorem find?_write {content : Bytes} (h : store.find? location = some .directory)
    (hwrite : store.write path content = .ok later) : later.find? location = some .directory := by
  unfold write at hwrite
  dsimp only at hwrite
  split at hwrite
  · simp at hwrite
  · simp at hwrite
  · split_ifs at hwrite with hfree
    obtain rfl := Except.ok.inj hwrite
    have hne : Location.ofText path ≠ location := by
      rintro rfl
      exact hfree h
    rw [find?_insert, if_neg hne, h]

/-- The directory that was asked for is there, and every other one stays. -/
theorem find?_mkdir (hmkdir : store.mkdir path = .ok later) :
    later.find? (Location.ofText path) = some .directory ∧
      ∀ location, store.find? location = some .directory →
        later.find? location = some .directory := by
  unfold mkdir at hmkdir
  dsimp only at hmkdir
  split at hmkdir
  · rename_i hdirectory
    obtain rfl := Except.ok.inj hmkdir
    exact ⟨hdirectory, fun _ => id⟩
  · simp at hmkdir
  · obtain rfl := Except.ok.inj hmkdir
    refine ⟨(find?_makeDirectories _ _ store).1 (.inl rfl), fun location h => ?_⟩
    by_cases hmade : store.IsMade (Location.ofText path) location
    · exact (find?_makeDirectories _ _ store).1 hmade
    · rw [(find?_makeDirectories _ _ store).2 hmade, h]

/-- What is removed is gone, and everything else stays. -/
theorem find?_remove (hremove : store.remove path = .ok later) :
    later.find? location =
      if Location.ofText path = location then none else store.find? location := by
  have herase : later = ⟨store.nodes.erase (Location.ofText path)⟩ := by
    unfold remove at hremove
    dsimp only at hremove
    split at hremove
    · simp at hremove
    · split at hremove
      · simp at hremove
      · exact (Except.ok.inj hremove).symm
      · split_ifs at hremove
        exact (Except.ok.inj hremove).symm
  rw [herase, find?_erase]

end Store

namespace Volume

variable {volume : Volume} {path : String}

/-- Whether a path leads to a directory, and it may be inspected. -/
def Shows (volume : Volume) (path : String) : Prop :=
  volume.denies .stat path = false ∧
    volume.store.find? (Location.ofText path) = some .directory

instance (volume : Volume) (path : String) : Decidable (volume.Shows path) :=
  inferInstanceAs (Decidable (_ ∧ _))

/-- A volume tells of the directories that it shows. -/
theorem isDirectory_eq_ok_true_iff : volume.isDirectory path = .ok true ↔ volume.Shows path := by
  constructor
  · intro h
    unfold isDirectory stat guarded at h
    split_ifs at h with hdenied
    · simp [Failure.isNotFound] at h
    · refine ⟨Bool.not_eq_true _ ▸ hdenied, ?_⟩
      unfold Store.stat at h
      dsimp only at h
      cases hnode : volume.store.find? (Location.ofText path) with
      | none => simp [hnode, Failure.isNotFound] at h
      | some node =>
        cases node with
        | file content => simp [hnode, Node.metadata] at h
        | directory => rfl
  · rintro ⟨hdenied, hnode⟩
    simp [isDirectory, stat, guarded, hdenied, Store.stat, hnode, Node.metadata]

/-- A volume tells of a directory only if there is one. -/
theorem find?_of_isDirectory (h : volume.isDirectory path = .ok true) :
    volume.store.find? (Location.ofText path) = some .directory :=
  (isDirectory_eq_ok_true_iff.1 h).2

/-- A change of a volume is a change of its store that succeeded and was not denied, or none. -/
theorem changed_cases (volume : Volume) (operation : Operation) (path : String)
    (outcome : Except Failure Store) :
    (volume.changed (volume.guarded operation path outcome)).2 = volume ∧
      (volume.changed (volume.guarded operation path outcome)).1 ≠ .ok () ∨
    ∃ later, outcome = .ok later ∧
      volume.changed (volume.guarded operation path outcome) =
        (.ok (), { volume with store := later }) := by
  unfold guarded
  split_ifs
  · exact .inl ⟨rfl, by simp [changed]⟩
  · cases outcome with
    | error failure => exact .inl ⟨rfl, by simp [changed]⟩
    | ok later => exact .inr ⟨later, rfl, rfl⟩

end Volume

/-! ## One call -/

namespace Process

/-- The working directory exists. -/
def Stands (process : Process) : Prop :=
  process.volume.store.find? (Location.ofText process.directory) = some .directory

instance (process : Process) : Decidable process.Stands :=
  inferInstanceAs (Decidable (_ = _))

variable {process : Process}

/-- A process starts in the directory that it is given, under that name, and without variables. The
name starts at the root. The directory is made if it is missing. -/
theorem start_eq_ok_iff {session home : String} {volume : Volume} {geometry : Geometry}
    {order : Arrangement} :
    Process.start session home volume geometry order = .ok process ↔
      Location.isAbsolute home = true ∧ ∃ later,
        (volume.isDirectory home = .ok true ∧ later = volume ∨
          volume.isDirectory home = .ok false ∧ volume.mkdir home = (.ok (), later)) ∧
        process = ⟨session, home, ∅, later, geometry, order⟩ := by
  rw [start]
  by_cases habsolute : Location.isAbsolute home = true
  · rw [if_pos habsolute, and_iff_right habsolute]
    cases hdirectory : volume.isDirectory home with
    | error failure => simp
    | ok isDirectory =>
      cases isDirectory with
      | true => simp [eq_comm]
      | false =>
        rcases volume.mkdir home with ⟨outcome, later⟩
        cases outcome <;> simp [eq_comm]
  · simp [habsolute]

theorem directory_of_start {session home : String} {volume : Volume} {geometry : Geometry}
    {order : Arrangement} (h : Process.start session home volume geometry order = .ok process) :
    process.directory = home := by
  obtain ⟨-, later, -, rfl⟩ := start_eq_ok_iff.1 h
  rfl

/-- A process starts on a directory. -/
theorem stands_of_start {session home : String} {volume : Volume} {geometry : Geometry}
    {order : Arrangement} (h : Process.start session home volume geometry order = .ok process) :
    process.Stands := by
  obtain ⟨-, later, ⟨hdirectory, rfl⟩ | ⟨-, hmkdir⟩, rfl⟩ := start_eq_ok_iff.1 h
  · exact Volume.find?_of_isDirectory hdirectory
  · obtain ⟨-, hfailed⟩ | ⟨store, hstore, hchanged⟩ :=
      volume.changed_cases .mkdir home (volume.store.mkdir home)
    · exact absurd (congrArg Prod.fst hmkdir) hfailed
    · obtain rfl : { volume with store } = later :=
        congrArg Prod.snd (hchanged.symm.trans hmkdir)
      exact (Store.find?_mkdir hstore).1

end Process

/-- A call that takes the working directory of a process away. -/
def Call.Uproots (process : Process) : Call → Prop
  | .files (.remove path) =>
    Location.ofText path = Location.ofText process.directory ∧
      (process.volume.remove path).1 = .ok ()
  | _ => False

namespace Volume

/-- A directory stays whatever is asked of a volume, unless it is removed itself. -/
theorem find?_perform {volume : Volume} {location : Location} (request : Request)
    (h : volume.store.find? location = some .directory) :
    (volume.perform request).2.store.find? location = some .directory ↔
      ∀ path, request = .remove path → Location.ofText path = location →
        (volume.remove path).1 ≠ .ok () := by
  cases request with
  | write path content =>
    -- A file never takes the place of a directory.
    obtain ⟨hsame, -⟩ | ⟨later, hlater, hchanged⟩ :=
      volume.changed_cases .write path (volume.store.write path content)
    · simpa [perform, write, hsame] using h
    · simpa [perform, write, hchanged] using Store.find?_write h hlater
  | mkdir path =>
    obtain ⟨hsame, -⟩ | ⟨later, hlater, hchanged⟩ :=
      volume.changed_cases .mkdir path (volume.store.mkdir path)
    · simpa [perform, mkdir, hsame] using h
    · simpa [perform, mkdir, hchanged] using (Store.find?_mkdir hlater).2 _ h
  | remove path =>
    obtain ⟨hsame, hfailed⟩ | ⟨later, hlater, hchanged⟩ :=
      volume.changed_cases .remove path (volume.store.remove path)
    · simp [perform, remove, hsame, hfailed, h]
    · simp [perform, remove, hchanged, Store.find?_remove hlater, h]
  | _ => simpa [perform] using h

end Volume

namespace Machine

variable {σ : Type} [Supply σ] (streams : Streams σ) (machine : Machine σ)

/-- Whatever a process that stands calls for, it stands afterwards unless the call uproots it. -/
theorem stands_answer_iff (request : Call) (h : machine.process.Stands) :
    (machine.answer streams request).2.process.Stands ↔ ¬ request.Uproots machine.process := by
  cases request with
  | changeDirectory path =>
    -- It moves only to a directory that it was told of.
    have hmoved : (machine.process.changeDirectory path).2.Stands := by
      unfold Process.changeDirectory
      dsimp only
      split
      · rename_i hdirectory
        exact Volume.find?_of_isDirectory hdirectory
      · exact h
      · exact h
    exact iff_of_true hmoved id
  | files request =>
    refine (Volume.find?_perform request h).trans ?_
    cases request with
    | remove path => simp [Call.Uproots]
    | _ => simp [Call.Uproots]
  | _ => exact iff_of_true h id

/-- Only a change of directory moves a process, only if it succeeds, and only to the directory
that it names. -/
theorem directory_answer (request : Call) :
    (machine.answer streams request).2.process.directory = machine.process.directory ∨
    ∃ path, request = .changeDirectory path ∧
      (machine.answer streams (.changeDirectory path)).1 = .ok () ∧
      (machine.answer streams request).2.process.directory =
        Location.join machine.process.directory path := by
  cases request with
  | changeDirectory path =>
    show (machine.process.changeDirectory path).2.directory = _ ∨ ∃ other, _ ∧
      (machine.process.changeDirectory other).1 = .ok () ∧
      (machine.process.changeDirectory path).2.directory = _
    unfold Process.changeDirectory
    dsimp only
    split
    · rename_i hdirectory
      exact .inr ⟨path, rfl, by rw [hdirectory], rfl⟩
    · exact .inl rfl
    · exact .inl rfl
  | _ => exact .inl rfl

/-! ## A run of calls -/

/-- The machine after calls, each made on the session's own streams or through an observer. -/
def through (steps : List (Option (Duplex σ) × Call)) : Machine σ :=
  steps.foldl (fun machine step => (machine.answer (streams.boundTo step.1) step.2).2) machine

theorem through_concat (steps : List (Option (Duplex σ) × Call)) (step : Option (Duplex σ) × Call) :
    machine.through streams (steps ++ [step]) =
      ((machine.through streams steps).answer (streams.boundTo step.1) step.2).2 := by
  simp [through, List.foldl_append]

/-- A process that stands at first stands all the way exactly if none of its calls uproots it. -/
theorem stands_through_iff (h : machine.process.Stands)
    (steps : List (Option (Duplex σ) × Call)) :
    (∀ done, done <+: steps → (machine.through streams done).process.Stands) ↔
      ∀ done step rest, steps = done ++ step :: rest →
        ¬ step.2.Uproots (machine.through streams done).process := by
  constructor
  · intro hstands done step rest hsteps
    -- The process stands before the call and after it, so the call did not uproot it.
    have hbefore := hstands done ⟨step :: rest, hsteps.symm⟩
    have hafter := hstands (done ++ [step]) ⟨rest, by rw [hsteps, List.append_assoc]; rfl⟩
    rw [through_concat] at hafter
    exact (stands_answer_iff _ _ step.2 hbefore).1 hafter
  · intro hrooted done
    -- The calls that are done grow at their end: all but the last one are the induction.
    induction done using List.reverseRecOn with
    | nil => exact fun _ => h
    | append_singleton done step ih =>
      rintro ⟨rest, rfl⟩
      rw [List.append_assoc] at hrooted
      have hbefore := ih ⟨[step] ++ rest, (List.append_assoc _ _ _).symm⟩
      rw [through_concat]
      exact (stands_answer_iff _ _ step.2 hbefore).2 (hrooted done step rest rfl)

/-- A process that was started stands on an existing directory after each of its calls, made
directly or through an observer, exactly if no call takes that directory away. Whatever is called,
the working directory changes only by a change of directory that succeeds. -/
theorem stands_all_along_iff {session home : String} {volume : Volume} {geometry : Geometry}
    {order : Arrangement} {plumbing : σ} {machine : Machine σ}
    (hstart : Machine.start session home volume geometry order plumbing = .ok machine)
    (streams : Streams σ) (steps : List (Option (Duplex σ) × Call)) :
    ((∀ done, done <+: steps → (machine.through streams done).process.Stands) ↔
      ∀ done step rest, steps = done ++ step :: rest →
        ¬ step.2.Uproots (machine.through streams done).process) ∧
    ∀ done step rest, steps = done ++ step :: rest →
      let before := machine.through streams done
      let after := machine.through streams (done ++ [step])
      after.process.directory = before.process.directory ∨
        ∃ path, step.2 = .changeDirectory path ∧
          (before.answer (streams.boundTo step.1) (.changeDirectory path)).1 = .ok () ∧
          after.process.directory = Location.join before.process.directory path := by
  have hstands : machine.process.Stands := by
    unfold start at hstart
    cases hprocess : Process.start session home volume geometry order with
    | error failure => simp [hprocess, Except.map] at hstart
    | ok process =>
      rw [hprocess] at hstart
      obtain rfl := Except.ok.inj hstart
      exact Process.stands_of_start hprocess
  refine ⟨machine.stands_through_iff streams hstands steps, ?_⟩
  intro done step rest _
  dsimp only
  rw [through_concat]
  exact directory_answer _ _ step.2

/-- A process that moves away first keeps its footing when its home is removed. -/
theorem stands_after_moving_away :
    ∃ machine, start "console" "/root" (.ofStore .empty) ⟨80, 24⟩ .insertion ({} : Wiring) =
        .ok machine ∧
      ∀ done, done <+: [(none, .files (.mkdir "/srv")),
          (some Wiring.terminal, .changeDirectory "/srv"), (none, .files (.remove "/root"))] →
        (machine.through Wiring.streams done).process.Stands := by
  have hstart : start "console" "/root" (.ofStore .empty) ⟨80, 24⟩ .insertion ({} : Wiring) =
    .ok _ := rfl
  refine ⟨_, hstart, (stands_all_along_iff hstart _ _).1.2 ?_⟩
  intro done step rest hsteps
  -- The step is one of the three calls.
  rcases done with _ | ⟨first, _ | ⟨second, _ | ⟨third, done⟩⟩⟩ <;>
    simp only [List.nil_append, List.cons_append, List.cons.injEq, List.nil_eq,
      List.append_eq_nil_iff, reduceCtorEq, and_false] at hsteps
  · obtain ⟨rfl, -⟩ := hsteps
    exact id
  · obtain ⟨rfl, rfl, -⟩ := hsteps
    exact id
  · obtain ⟨rfl, rfl, rfl, -⟩ := hsteps
    rintro ⟨hlocation, -⟩
    exact absurd hlocation (by decide +kernel)

/-- A process can remove the empty directory that it is in, and is still said to be there. -/
theorem not_stands_after_remove :
    (start "console" "/root" (.ofStore .empty) ⟨80, 24⟩ .insertion ({} : Wiring)).map
      (fun machine =>
        let later := machine.through Wiring.streams [(none, .files (.remove "/root"))]
        (later.process.directory, decide later.process.Stands)) = .ok ("/root", false) := by
  decide +kernel

end Machine

end Honeypot
