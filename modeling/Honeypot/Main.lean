import Honeypot.Console

/-!
# The console program

Runs one session over standard input. The settings come from the file that the first argument or
the variable `DECOY_CONFIG` names, and are the default ones when neither is given.

## References

- [SPEC] `SPEC_FULL.md`: §9.3, Configuration
-/

open Honeypot

/-- The settings that the command line or the environment selects. -/
def loadSettings (args : List String) : IO Settings := do
  let path? ← match args with
    | path :: _ => pure (some path)
    | [] => IO.getEnv "DECOY_CONFIG"
  match path? with
  | none => return .default
  | some path =>
    match Settings.ofFile (← IO.FS.readBinFile path) with
    | .ok settings => return settings
    | .error failure =>
      throw (IO.userError ("loading config " ++ path ++ ": " ++ failure.message))

/-- Puts out what crossed the plumbing of a session. -/
def putOut (crossing : Crossing) : IO Unit := do
  match crossing with
  | .wrote .output bytes => (← IO.getStdout).write bytes.toByteArray
  | .wrote .error bytes => (← IO.getStderr).write bytes.toByteArray
  | _ => return ()

/-- A session that is over as soon as it has begun: its input is there when it starts, so no time
passes in it. -/
def atOnce : Console.Circumstances where
  started := 0
  clock _ := "0.0"
  order := .insertion

/-- Runs one session. Its recording is written before anything is shown, so a session that cannot
be recorded shows nothing. -/
def runSession (args : List String) : IO UInt32 := do
  let settings ← loadSettings args
  let input ← (← IO.getStdin).readBinToEnd
  match Console.session settings atOnce {} input.toList with
  | .error failure => throw (IO.userError failure.message)
  | .ok outcome =>
    if let some path := settings.recordPath then
      IO.FS.writeBinFile path (outcome.written .cast).toByteArray
    outcome.crossings.forM putOut
    match outcome.result with
    | .ok _ => return 0
    | .error fault => throw (IO.userError (Failure.ofFault fault).message)

/-- The console program. -/
def main (args : List String) : IO UInt32 := do
  try runSession args
  catch error =>
    (← IO.getStderr).putStrLn ("Error: " ++ toString error)
    return 1
