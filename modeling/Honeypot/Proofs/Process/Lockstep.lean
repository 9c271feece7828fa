import Honeypot.Process.Registry
import Honeypot.Proofs.Stream.Lockstep

/-!
# Programs on streams in lockstep

A program learns about its streams from their answers only. On streams in lockstep it makes the
same calls, gets the same answers and leaves the same session behind.

* `Machine.Related`: machines that differ in their plumbings only, which are related.
* `Machine.Apart`: machines whose plumbings are apart, after the one side broke off.
* `Streams.Lockstep`: streams of a program that are in lockstep, one by one.
* `Program.run_lockstep`, `Registry.execute_lockstep`: programs and commands go alike.
-/

namespace Honeypot

variable {σ ρ : Type}

/-- Machines that have everything in common but their plumbings, which are related. -/
structure Machine.Related (R : σ → ρ → Prop) (one : Machine σ) (other : Machine ρ) : Prop where
  process : one.process = other.process
  plumbing : R one.plumbing other.plumbing
  reports : one.reports = other.reports

/-- A machine is related to itself by what holds of its plumbing. -/
theorem Machine.Related.kept {kept : σ → Prop} {machine : Machine σ}
    (h : kept machine.plumbing) : Machine.Related (Kept kept) machine machine :=
  ⟨rfl, ⟨rfl, h⟩, rfl⟩

/-- Machines whose plumbings are apart. -/
def Machine.Apart (C : σ → ρ → Prop) (one : Machine σ) (other : Machine ρ) : Prop :=
  C one.plumbing other.plumbing

/-- Actions that go alike on plumbings until one breaks off do so on machines. -/
theorem Machine.stream_until {R C : σ → ρ → Prop} {α : Type} {broken : α → Prop} {one : σ → α × σ}
    {other : ρ → α × ρ} (h : AlikeUntil R C broken one other) :
    AlikeUntil (Related R) (Apart C) broken (fun machine => machine.stream one)
      (fun machine => machine.stream other) := by
  intro machine machine' hrelated
  rcases h _ _ hrelated.plumbing with ⟨hanswer, hplumbing⟩ | hapart
  · exact .inl ⟨hanswer, hrelated.process, hplumbing, hrelated.reports⟩
  · exact .inr hapart

/-- Actions that are alike on plumbings are alike on machines. -/
theorem Machine.stream_lockstep {R : σ → ρ → Prop} {α : Type} {one : σ → α × σ}
    {other : ρ → α × ρ} (h : Alike R one other) :
    Alike (Related R) (fun machine => machine.stream one) (fun machine => machine.stream other) :=
  (stream_until (h.until Never fun _ => True)).alike fun _ _ => id

variable [Supply σ] [Supply ρ] {R : σ → ρ → Prop}

/-- Streams of a program that are in lockstep, one by one. -/
structure Streams.Lockstep (R : σ → ρ → Prop) (one : Streams σ) (other : Streams ρ) : Prop where
  input : one.input.Lockstep R other.input
  output : one.output.Lockstep R other.output
  error : one.error.Lockstep R other.error

/-- Sources in lockstep give a part or everything alike. -/
theorem Source.Lockstep.readSome {one : Source σ} {other : Source ρ} (h : one.Lockstep R other)
    (most : Option Nat) : Alike R (one.readSome most) (other.readSome most) := by
  cases most with
  | none => exact h.readAll
  | some most => exact h.read most

/-- Whether a call reads nothing and writes nothing. -/
def Call.IsAside : Call → Prop
  | .read _ | .print _ | .offer _ | .flush => False
  | .printError _ | .offerError _ | .flushError | .readError _ => False
  | _ => True

/-- A call that neither reads nor writes does not look at the plumbing. -/
theorem Machine.answer_alike_of_isAside (R : σ → ρ → Prop) (one : Streams σ) (other : Streams ρ)
    {request : Call} (h : request.IsAside) :
    Alike (Related R) (fun machine => machine.answer one request)
      (fun machine => machine.answer other request) := by
  rintro ⟨process, plumbing, reports⟩ ⟨_, plumbing', _⟩ ⟨rfl, hplumbing, rfl⟩
  cases request with
  | read | print | offer | flush | printError | offerError | flushError | readError => exact h.elim
  | _ => exact ⟨rfl, rfl, hplumbing, rfl⟩

/-- Every call of a program gets the same answer. -/
theorem Machine.answer_lockstep {one : Streams σ} {other : Streams ρ} (h : one.Lockstep R other)
    (request : Call) :
    Alike (Related R) (fun machine => machine.answer one request)
      (fun machine => machine.answer other request) := by
  intro machine machine' hrelated
  cases request with
  | read most => exact stream_lockstep (h.input.readSome most) _ _ hrelated
  | print bytes => exact stream_lockstep (h.output.lineFeeds.writeAll bytes) _ _ hrelated
  | offer bytes => exact stream_lockstep (h.output.lineFeeds.write bytes) _ _ hrelated
  | flush => exact stream_lockstep h.output.lineFeeds.flush _ _ hrelated
  | printError bytes => exact stream_lockstep (h.error.sink.writeAll bytes) _ _ hrelated
  | offerError bytes => exact stream_lockstep (h.error.sink.write bytes) _ _ hrelated
  | flushError => exact stream_lockstep h.error.sink.flush _ _ hrelated
  | readError most => exact stream_lockstep (h.error.source.readSome most) _ _ hrelated
  | _ => exact answer_alike_of_isAside R one other (by trivial) _ _ hrelated

/-- A program has the same result on streams in lockstep. -/
theorem Program.run_lockstep {α : Type} {one : Streams σ} {other : Streams ρ}
    (h : one.Lockstep R other) (program : Program α) :
    Alike (Machine.Related R) (program.run one) (program.run other) := by
  induction program with
  | done result => exact fun _ _ hrelated => ⟨rfl, hrelated⟩
  | crashed crash => exact fun _ _ hrelated => ⟨rfl, hrelated⟩
  | call request next ih =>
    intro machine machine' hrelated
    obtain ⟨hanswer, hlater⟩ := Machine.answer_lockstep h request machine machine' hrelated
    dsimp only at hanswer hlater
    -- With the same answer, both go on with the same program.
    rw [run, run, ← hanswer]
    exact ih _ _ _ hlater

/-- A program keeps what its streams keep. -/
theorem Program.run_kept {α : Type} {kept : σ → Prop} {streams : Streams σ}
    (h : streams.Lockstep (Kept kept) streams) (program : Program α) {machine : Machine σ}
    (hkept : kept machine.plumbing) : kept (program.run streams machine).2.plumbing :=
  (run_lockstep h program machine machine (.kept hkept)).2.plumbing.2

/-- The streams that a command runs on: the observer's if there is one. -/
def Streams.boundTo (streams : Streams σ) (observer : Option (Duplex σ)) : Streams σ :=
  observer.elim streams Streams.observed

/-- Streams bound to observers in lockstep are in lockstep. -/
theorem Streams.Lockstep.boundTo {one : Streams σ} {other : Streams ρ} (h : one.Lockstep R other)
    {observer : Option (Duplex σ)} {observer' : Option (Duplex ρ)}
    (hobserver : Option.Rel (Duplex.Lockstep R) observer observer') :
    (one.boundTo observer).Lockstep R (other.boundTo observer') := by
  cases hobserver with
  | some hduplex => exact ⟨hduplex.source, hduplex.sink, hduplex⟩
  | none => exact h

/-- A path that selects no command gives a failure, and changes nothing. -/
theorem Registry.execute_of_find?_eq_none {registry : Registry} {path : String}
    (h : registry.find? (Path.baseName path) = none) (streams : Streams σ)
    (observer : Option (Duplex σ)) (args : List String) (machine : Machine σ) :
    registry.execute streams observer path args machine =
      (.error (.notFound Failure.execution path), machine) := by
  unfold execute
  rw [h]

/-- What a command comes to that a path selects. -/
theorem Registry.execute_of_find? {registry : Registry} {path : String} {command : Command}
    (h : registry.find? (Path.baseName path) = some command) (streams : Streams σ)
    (observer : Option (Duplex σ)) (args : List String) (machine : Machine σ) :
    registry.execute streams observer path args machine =
      match (command.program args).run (streams.boundTo observer) machine with
      | (.ok status, machine) => (.ok status, machine)
      | (.error crash, machine) =>
        (.ok .crashed, ((machine.reported (.crash machine.process.session path crash.text)).stream
          (streams.error.sink.writeAll crashLine)).2) := by
  unfold execute
  rw [h]
  cases observer <;> rfl

/-- A command that a path selects goes alike on streams and observers in lockstep. -/
theorem Registry.execute_lockstep (registry : Registry) {one : Streams σ} {other : Streams ρ}
    (h : one.Lockstep R other) {observer : Option (Duplex σ)} {observer' : Option (Duplex ρ)}
    (hobserver : Option.Rel (Duplex.Lockstep R) observer observer') (path : String)
    (args : List String) :
    Alike (Machine.Related R) (registry.execute one observer path args)
      (registry.execute other observer' path args) := by
  intro machine machine' hrelated
  cases hcommand : registry.find? (Path.baseName path) with
  | none =>
    rw [execute_of_find?_eq_none hcommand, execute_of_find?_eq_none hcommand]
    exact ⟨rfl, hrelated⟩
  | some command =>
    rw [execute_of_find? hcommand, execute_of_find? hcommand]
    cases hrun : (command.program args).run (one.boundTo observer) machine with
    | mk result later =>
      obtain ⟨later', hrun', hlater⟩ :=
        (Program.run_lockstep (h.boundTo hobserver) _).of_eq hrelated hrun
      rw [hrun']
      cases result with
      | ok status => exact ⟨rfl, hlater⟩
      | error crash =>
        -- The crash is reported in the same words, as the sessions have the same name.
        have hreported : Machine.Related R
            (later.reported (.crash later.process.session path crash.text))
            (later'.reported (.crash later'.process.session path crash.text)) := by
          refine ⟨hlater.process, hlater.plumbing, ?_⟩
          simp only [Machine.reported, hlater.process, hlater.reports]
        exact ⟨rfl, (Machine.stream_lockstep (h.error.sink.writeAll crashLine) _ _ hreported).2⟩

end Honeypot
