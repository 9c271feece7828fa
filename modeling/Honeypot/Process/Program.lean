import Honeypot.Process.Basic
import Honeypot.Stream.LineFeed

/-!
# Simulated programs

A simulated program is data: a tree of the calls it makes, each with what it does next for every
answer, ending in a result or a crash. It sees a session through its calls only.

* `Call`, `Call.Answer`: what a program may ask for, and what it gets.
* `Program`: the trees, with their monad.
* `Streams`: the three streams a program runs on; `Streams.observed` binds all to one observer.
* `Program.run`: a program acting on a session.

## References

- [SPEC] `SPEC_FULL.md`: §3, Data Model; §4.2, Virtual Process Context;
  §4.4, IO-Redirecting Decorator
-/

namespace Honeypot

/-- What a simulated program may ask of the session it runs in. -/
inductive Call where
  /-- The working directory. -/
  | directory
  | changeDirectory (path : String)
  /-- The environment as `KEY=VALUE` texts. -/
  | environ
  | assign (key value : String)
  /-- The size of the terminal. -/
  | geometry
  | files (request : Request)
  /-- One read of standard input, or all of it when no size is given. -/
  | read (most : Option Nat)
  /-- A whole buffer for standard output, line feeds translated. -/
  | print (bytes : Bytes)
  /-- One write to standard output, line feeds translated. -/
  | offer (bytes : Bytes)
  /-- A flush of standard output. -/
  | flush
  /-- A whole buffer for standard error. -/
  | printError (bytes : Bytes)
  /-- One write to standard error. -/
  | offerError (bytes : Bytes)
  /-- A flush of standard error. -/
  | flushError
  /-- One read of the error channel, or all of it when no size is given. -/
  | readError (most : Option Nat)
  /-- A note for the operator, which the session does not show. -/
  | note (text : String)

/-- What a call gives. -/
def Call.Answer : Call → Type
  | .directory => String
  | .changeDirectory _ => Except Failure Unit
  | .environ => List String
  | .assign _ _ => Unit
  | .geometry => Geometry
  | .files request => request.Answer
  | .read _ => Except Fault Bytes
  | .print _ => Except Fault Unit
  | .offer _ => Except Fault Nat
  | .flush => Except Fault Unit
  | .printError _ => Except Fault Unit
  | .offerError _ => Except Fault Nat
  | .flushError => Except Fault Unit
  | .readError _ => Except Fault Bytes
  | .note _ => Unit

/-- What a crashing program leaves to report. -/
inductive Crash where
  | message (text : String)
  /-- Something that is no text. -/
  | opaqueValue
deriving DecidableEq, Repr

/-- A crash in words. -/
def Crash.text : Crash → String
  | .message text => text
  | .opaqueValue => "non-string panic payload"

/-- A simulated program with results in `α`. -/
inductive Program (α : Type) where
  | done (result : α)
  | crashed (crash : Crash)
  | call (request : Call) (next : request.Answer → Program α)

namespace Program

variable {α β : Type}

/-- A program followed by another one that depends on its result. -/
def bind : Program α → (α → Program β) → Program β
  | .done result, next => next result
  | .crashed crash, _ => .crashed crash
  | .call request rest, next => .call request fun answer => (rest answer).bind next

instance : Monad Program where
  pure := .done
  bind := .bind

instance : LawfulMonad Program := LawfulMonad.mk' Program
  (fun program => by
    induction program with
    | done | crashed => rfl
    | call request next ih => exact congrArg (call request) (funext ih))
  (fun _ _ => rfl)
  (fun program first second => by
    induction program with
    | done | crashed => rfl
    | call request next ih => exact congrArg (call request) (funext ih))

/-- The program that makes one call. -/
def ask (request : Call) : Program request.Answer :=
  .call request .done

/-- Asks for the working directory. -/
def directory : Program String := ask .directory

/-- Changes the working directory. -/
def changeDirectory (path : String) : Program (Except Failure Unit) := ask (.changeDirectory path)

/-- Asks for the environment as `KEY=VALUE` texts. -/
def environ : Program (List String) := ask .environ

/-- Sets a variable. -/
def assign (key value : String) : Program Unit := ask (.assign key value)

/-- Asks for the direct children of a directory. -/
def readdir (path : String) : Program (Except Failure (List Entry)) := ask (.files (.readdir path))

/-- Asks for the content of a file. -/
def readFile (path : String) : Program (Except Failure Bytes) := ask (.files (.read path))

/-- Asks for the metadata of a path. -/
def stat (path : String) : Program (Except Failure Metadata) := ask (.files (.stat path))

/-- Reads standard input to its end. -/
def readAll : Program (Except Fault Bytes) := ask (.read none)

/-- Prints a buffer. -/
def print (bytes : Bytes) : Program (Except Fault Unit) := ask (.print bytes)

/-- Prints a buffer to standard error. -/
def printError (bytes : Bytes) : Program (Except Fault Unit) := ask (.printError bytes)

/-- Prints buffers one after the other, up to the first that fails. -/
def printParts : List Bytes → Program (Except Fault Unit)
  | [] => pure (.ok ())
  | part :: parts => do
    match ← print part with
    | .ok () => printParts parts
    | .error fault => pure (.error fault)

/-- Prints buffers to standard error one after the other, up to the first that fails. -/
def printErrorParts : List Bytes → Program (Except Fault Unit)
  | [] => pure (.ok ())
  | part :: parts => do
    match ← printError part with
    | .ok () => printErrorParts parts
    | .error fault => pure (.error fault)

/-- Prints texts one after the other, up to the first that fails. -/
def printTexts (texts : List String) : Program (Except Fault Unit) :=
  printParts (texts.map Text.encode)

/-- Prints texts to standard error one after the other, up to the first that fails. -/
def printErrorTexts (texts : List String) : Program (Except Fault Unit) :=
  printErrorParts (texts.map Text.encode)

end Program

/-- What is reported to the operator about a session. -/
inductive Report where
  /-- A note that a program made. -/
  | note (text : String)
  /-- A crash of the command at a path. -/
  | crash (session path detail : String)
deriving DecidableEq, Repr

variable {σ : Type} [Supply σ]

/-- The streams that a program runs on. -/
structure Streams (σ : Type) [Supply σ] where
  input : Source σ
  output : Sink σ
  error : Duplex σ

/-- The streams of a program whose traffic all goes to an observer. -/
def Streams.observed (observer : Duplex σ) : Streams σ :=
  ⟨observer.source, observer.sink, observer⟩

/-- A session with its plumbing and what was reported about it, the latest first. -/
structure Machine (σ : Type) where
  process : Process
  plumbing : σ
  reports : List Report := []

namespace Machine

open Supply (left)

/-- A machine for a new process, on some plumbing. -/
def start (session home : String) (volume : Volume) (geometry : Geometry) (order : Arrangement)
    (plumbing : σ) : Except Failure (Machine σ) :=
  (Process.start session home volume geometry order).map fun process => { process, plumbing }

/-- The machine with variables set, later ones winning. -/
def withEnvironment (machine : Machine σ) (bindings : List (String × String)) : Machine σ :=
  { machine with process := machine.process.withEnvironment bindings }

/-- The machine after an action of a stream. -/
def stream {α : Type} (machine : Machine σ) (action : σ → α × σ) : α × Machine σ :=
  let step := action machine.plumbing
  (step.1, { machine with plumbing := step.2 })

/-- The machine with a further report. -/
def reported (machine : Machine σ) (report : Report) : Machine σ :=
  { machine with reports := report :: machine.reports }

end Machine

/-- A read of so many bytes at most, or of everything when no size is given. -/
def Source.readSome (source : Source σ) (most : Option Nat) (s : σ) : Except Fault Bytes × σ :=
  match most with
  | some most => source.read most s
  | none => source.readAll s

/-- The answer to a call, and the machine after it. -/
def Machine.answer (machine : Machine σ) (streams : Streams σ) :
    (request : Call) → request.Answer × Machine σ
  | .directory => (machine.process.directory, machine)
  | .changeDirectory path =>
    let step := machine.process.changeDirectory path
    (step.1, { machine with process := step.2 })
  | .environ => (machine.process.environ, machine)
  | .assign key value => ((), { machine with process := machine.process.assign key value })
  | .geometry => (machine.process.geometry, machine)
  | .files request =>
    let step := machine.process.volume.perform request
    (step.1, { machine with process := { machine.process with volume := step.2 } })
  | .read most => machine.stream (streams.input.readSome most)
  | .print bytes => machine.stream (streams.output.lineFeeds.writeAll bytes)
  | .offer bytes => machine.stream (streams.output.lineFeeds.write bytes)
  | .flush => machine.stream streams.output.lineFeeds.flush
  | .printError bytes => machine.stream (streams.error.sink.writeAll bytes)
  | .offerError bytes => machine.stream (streams.error.sink.write bytes)
  | .flushError => machine.stream streams.error.sink.flush
  | .readError most => machine.stream (streams.error.source.readSome most)
  | .note text => ((), machine.reported (.note text))

/-- What a program does to a machine: its result or its crash, and the machine after it. -/
def Program.run {α : Type} (streams : Streams σ) :
    Program α → Machine σ → Except Crash α × Machine σ
  | .done result, machine => (.ok result, machine)
  | .crashed crash, machine => (.error crash, machine)
  | .call request next, machine =>
    let step := machine.answer streams request
    (next step.1).run streams step.2

open Supply (left)

theorem Source.left_readSome_le (source : Source σ) (most : Option Nat) (s : σ) :
    left (source.readSome most s).2 ≤ left s := by
  cases most with
  | none => exact source.left_readAll_le s
  | some most => exact source.left_read_le most s

theorem Machine.left_answer_le (machine : Machine σ) (streams : Streams σ) (request : Call) :
    left (machine.answer streams request).2.plumbing ≤ left machine.plumbing := by
  cases request with
  | read most => exact streams.input.left_readSome_le most _
  | print bytes => exact streams.output.lineFeeds.left_writeAll_le bytes _
  | offer bytes => exact streams.output.lineFeeds.left_write_le bytes _
  | flush => exact streams.output.lineFeeds.left_flush_le _
  | printError bytes => exact streams.error.sink.left_writeAll_le bytes _
  | offerError bytes => exact streams.error.sink.left_write_le bytes _
  | flushError => exact streams.error.sink.left_flush_le _
  | readError most => exact streams.error.source.left_readSome_le most _
  | _ => exact Nat.le_refl _

theorem Program.left_run_le {α : Type} (streams : Streams σ) (program : Program α)
    (machine : Machine σ) :
    left (program.run streams machine).2.plumbing ≤ left machine.plumbing := by
  induction program generalizing machine with
  | done | crashed => exact Nat.le_refl _
  | call request next ih =>
    exact Nat.le_trans (ih _ _) (machine.left_answer_le streams request)

end Honeypot
