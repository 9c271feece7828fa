import Honeypot.Recording
import Honeypot.RootTree
import Honeypot.Shell.Session
import Honeypot.Stream.Wiring
import Honeypot.Userland

/-!
# Console sessions

A session put together from settings: its commands, its filesystem, its process, its shell.

* `Console.process`: the process of the session's user.
* `Console.recorded`: a terminal recorded as the settings of the session describe it.
* `Console.session`: a whole session over given input; `Console.sessionOn` places its recording.

## References

- [SPEC] `SPEC_FULL.md`: §9.3, Configuration; §10, Supplementary Features
-/

namespace Honeypot

/-- The three streams of a wiring on which a session runs. -/
def Wiring.streams : Streams Wiring :=
  ⟨source .input, sink .output, ⟨source .error, sink .error⟩⟩

/-- The terminal of a wiring: what is typed, and what is shown. -/
def Wiring.terminal : Duplex Wiring := ⟨source .input, sink .output⟩

namespace Console

/-- The commands that a session offers. -/
def registry (settings : Settings) : Registry :=
  Registry.ofList (Userland.commands settings.hostname)

/-- The variables that a session starts with. -/
def bindings (settings : Settings) : List (String × String) :=
  settings.environment.entries ++
    [("HOME", settings.home), ("USER", settings.user), ("LOGNAME", settings.user),
      ("PWD", settings.home)]

/-- The process of the session's user, in the home directory. -/
def process (settings : Settings) (volume : Volume) (order : Arrangement) :
    Except Failure Process := do
  let process ← Process.start "console" settings.home volume settings.geometry order
  return process.withEnvironment (bindings settings)

/-- The shell of a session. -/
def shell {σ : Type} [Supply σ] (settings : Settings) (registry : Registry)
    (streams : Streams σ) (recorder : Option (Duplex σ)) (process : Process) : Shell σ :=
  Shell.ofProcess registry streams recorder settings.hostname settings.user process

/-- The header of a session's recording. -/
def recordingHeader (settings : Settings) (started : Nat) : Recording.Header where
  width := settings.geometry.width
  height := settings.geometry.height
  started := started
  term := (settings.environment.find? "TERM").getD "xterm"

/-- A terminal whose traffic is recorded under the session's header, if the header can be
written. -/
def recorded {σ : Type} [Supply σ] (settings : Settings) (started : Nat) (clock : σ → String)
    (terminal : Duplex σ) (cast : Sink σ) (plumbing : σ) : Except Fault (Duplex σ) × σ :=
  match Recording.start cast (recordingHeader settings started) plumbing with
  | (.ok (), plumbing) => (.ok (terminal.recorded clock cast), plumbing)
  | (.error fault, plumbing) => (.error fault, plumbing)

/-- How a session ended, and all that crossed its plumbing. -/
structure Outcome where
  result : Except Fault Status
  /-- What crossed, in order. -/
  crossings : List Crossing

/-- The bytes that crossed one end of the plumbing. -/
def Outcome.written (outcome : Outcome) (channel : Outgoing) : Bytes :=
  outcome.crossings.flatMap fun
    | .wrote place bytes => if place = channel then bytes else []
    | .read _ _ => []

/-- What a session finds that neither its settings nor its input decide. -/
structure Circumstances where
  /-- When it is started, in seconds. -/
  started : Nat
  /-- The seconds that have passed since then, as the text of a number. -/
  clock : Wiring → String
  /-- The order in which its environment is listed. -/
  order : Arrangement

/-- A whole session over given input, recorded on an end of its own if the settings say so. -/
def session (settings : Settings) (circumstances : Circumstances) (cast : Outlet) (input : Bytes) :
    Except Failure Outcome := do
  -- A failure before the shell starts is a failure of the whole session.
  let store ← match RootTree.populate settings .empty with
    | (.ok (), store) => pure store
    | (.error failure, _) => throw failure
  let process ← process settings (.ofStore store) circumstances.order
  let wiring : Wiring := { input := input.map .byte, cast }
  let (recorder, wiring) ← match settings.recordPath with
    | none => pure (none, wiring)
    | some _ =>
      match recorded settings circumstances.started circumstances.clock Wiring.terminal
        (Wiring.sink .cast) wiring with
      | (.ok recorder, wiring) => pure (some recorder, wiring)
      | (.error fault, _) => throw (.ofFault fault)
  let shell := shell settings (registry settings) Wiring.streams recorder process
  let (result, session) := shell.run ⟨⟨process, wiring, []⟩, 0⟩
  return ⟨result, session.machine.plumbing.log.reverse⟩

/-- A whole session where files for recordings are opened in some way. It does not start if its own
cannot be opened. -/
def sessionOn (openFile? : String → Option Outlet) (settings : Settings)
    (circumstances : Circumstances) (input : Bytes) : Except Failure Outcome :=
  match settings.recordPath with
  | none => session settings circumstances {} input
  | some path =>
    match openFile? path with
    | some cast => session settings circumstances cast input
    | none => .error (.stream .notFound ("no recording can be made at " ++ path))

end Console

end Honeypot
