import Honeypot.Shell.Basic

/-!
# Running a shell

A shell prints its prompt, reads a line, and does what the line says, until a line ends the
session or there are no more lines.

* `Shell.runLine`: what one line does.
* `Shell.nextLine`: a prompt and the line typed after it.
* `Shell.run`: a whole session. It ends because every line uses up some of what is left to read.

## References

- [SPEC] `SPEC_FULL.md`: §10, Supplementary Features
-/

namespace Honeypot

variable {σ : Type} [Supply σ]

/-- What a shell does after a line. -/
inductive Flow where
  | go
  | exit (status : Status)
deriving DecidableEq, Repr

/-- A command line as the shell understands it. -/
inductive Line where
  /-- No word at all. -/
  | blank
  /-- The end of the session, with the arguments given. -/
  | leave (args : List String)
  | help (topics : List String)
  | command (name : String) (args : List String)
deriving DecidableEq, Repr

/-- What the words of a line ask for. -/
def Line.ofWords : List String → Line
  | [] => .blank
  | name :: args =>
    if name = "exit" ∨ name = "logout" then .leave args
    else if name = "help" then .help args
    else .command name args

/-- The status that a session ends with: the argument given, or the last one. -/
def Line.exitStatus (last : Status) : List String → Status
  | [] => last
  | argument :: _ => (Status.ofText? argument).getD 2

namespace Shell

/-- A typed line as text, without the carriage return that may end it. -/
def typedText (bytes : Bytes) : String :=
  Text.decode (if bytes.getLast? = some 0x0D then bytes.dropLast else bytes)

/-- Prints texts one after the other, up to the first that fails. -/
def say (sink : Sink σ) (texts : List String) (session : Session σ) :
    Except Fault Unit × Session σ :=
  session.stream (sink.writeParts (texts.map Text.encode))

/-- Runs a command and keeps its status. -/
def runCommand (shell : Shell σ) (name : String) (args : List String) (session : Session σ) :
    Except Fault Flow × Session σ :=
  match shell.registry.execute shell.streams shell.recorder name args session.machine with
  | (.ok status, machine) => (.ok .go, ⟨machine, status⟩)
  | (.error failure, machine) =>
    let session := { session with machine }
    -- Only a command that does not exist is worth a word; other failures show in the status.
    if failure.isNotFound then
      match say shell.diagnostics ["-bash: ", name, ": command not found\n"] session with
      | (.ok (), session) => (.ok .go, session.ended failure.status)
      | (.error fault, session) => (.error fault, session)
    else (.ok .go, session.ended failure.status)

/-- Prints help and keeps its status. -/
def runHelp (shell : Shell σ) (topics : List String) (session : Session σ) :
    Except Fault Flow × Session σ :=
  let help := helpText shell.registry topics
  match say shell.terminal [help.1] session with
  | (.ok (), session) => (.ok .go, session.ended help.2)
  | (.error fault, session) => (.error fault, session)

/-- Says goodbye and ends the session. -/
def runExit (shell : Shell σ) (args : List String) (session : Session σ) :
    Except Fault Flow × Session σ :=
  match say shell.terminal ["logout\n"] session with
  | (.ok (), session) => (.ok (.exit (Line.exitStatus session.status args)), session)
  | (.error fault, session) => (.error fault, session)

/-- Complains about an unclosed quotation. -/
def runUnterminated (shell : Shell σ) (quotation : Unterminated) (session : Session σ) :
    Except Fault Flow × Session σ :=
  match say shell.diagnostics ("-bash: " :: quotation.parts ++ ["\n"]) session with
  | (.ok (), session) => (.ok .go, session.ended 2)
  | (.error fault, session) => (.error fault, session)

/-- The words of a line in a session, its variables replaced. -/
def words (session : Session σ) (line : String) : Except Unterminated (List String) :=
  Words.split (Expansion.expand line session.status session.machine.process.valueOf?)

/-- Does what a line says. -/
def runLine (shell : Shell σ) (line : String) (session : Session σ) :
    Except Fault Flow × Session σ :=
  match words session line with
  | .error quotation => shell.runUnterminated quotation session
  | .ok words =>
    match Line.ofWords words with
    | .blank => (.ok .go, session)
    | .leave args => shell.runExit args session
    | .help topics => shell.runHelp topics session
    | .command name args => shell.runCommand name args session

/-- Prints the prompt. -/
def showPrompt (shell : Shell σ) (session : Session σ) : Except Fault Unit × Session σ :=
  match say shell.terminal [shell.prompt session] session with
  | (.ok (), session) => session.stream shell.terminal.flush
  | (.error fault, session) => (.error fault, session)

/-- Prints the prompt and reads the line typed after it, if there is one. -/
def nextLine (shell : Shell σ) (session : Session σ) :
    Except Fault (Option Bytes) × Session σ :=
  match shell.showPrompt session with
  | (.ok (), session) => session.stream shell.lines.readLine
  | (.error fault, session) => (.error fault, session)

open Supply (left)

/-- What is left to happen in a session. -/
def remaining (session : Session σ) : Nat := left session.machine.plumbing

theorem remaining_say_le (sink : Sink σ) (texts : List String) (session : Session σ) :
    remaining (say sink texts session).2 ≤ remaining session :=
  sink.left_writeParts_le _ _

theorem remaining_runCommand_le (shell : Shell σ) (name : String) (args : List String)
    (session : Session σ) :
    remaining (shell.runCommand name args session).2 ≤ remaining session := by
  have h := shell.registry.left_execute_le shell.streams shell.recorder name args session.machine
  unfold runCommand
  split <;> rename_i he <;> rw [he] at h
  · exact h
  · rename_i failure machine
    dsimp only
    split
    · have hs := remaining_say_le shell.diagnostics ["-bash: ", name, ": command not found\n"]
        { session with machine }
      split <;> rename_i hd <;> rw [hd] at hs <;> exact Nat.le_trans hs h
    · exact h

theorem remaining_runLine_le (shell : Shell σ) (line : String) (session : Session σ) :
    remaining (shell.runLine line session).2 ≤ remaining session := by
  unfold runLine
  split
  · rename_i quotation _
    unfold runUnterminated
    have h := remaining_say_le shell.diagnostics ("-bash: " :: quotation.parts ++ ["\n"]) session
    split <;> rename_i hs <;> rw [hs] at h <;> exact h
  · split
    · exact Nat.le_refl _
    · unfold runExit
      have h := remaining_say_le shell.terminal ["logout\n"] session
      split <;> rename_i hs <;> rw [hs] at h <;> exact h
    · rename_i topics _
      unfold runHelp
      have h := remaining_say_le shell.terminal [(helpText shell.registry topics).1] session
      dsimp only
      split <;> rename_i hs <;> rw [hs] at h <;> exact h
    · exact shell.remaining_runCommand_le _ _ session

theorem remaining_showPrompt_le (shell : Shell σ) (session : Session σ) :
    remaining (shell.showPrompt session).2 ≤ remaining session := by
  unfold showPrompt
  have h := remaining_say_le shell.terminal [shell.prompt session] session
  split <;> rename_i hs <;> rw [hs] at h
  · exact Nat.le_trans (shell.terminal.left_flush_le _) h
  · exact h

/-- A line that was typed uses something up. -/
theorem remaining_nextLine_lt (shell : Shell σ) (session : Session σ) (line : Bytes)
    (h : (shell.nextLine session).1 = .ok (some line)) :
    remaining (shell.nextLine session).2 < remaining session := by
  have hp := shell.remaining_showPrompt_le session
  unfold nextLine at h ⊢
  split at h <;> rename_i hs <;> rw [hs] at hp
  · exact Nat.lt_of_lt_of_le (shell.lines.left_readLine_lt h) hp
  · simp at h

/-- One turn of the shell: the prompt, a line, and what the line says. At the end of the lines the
session ends with the last status. -/
def turn (shell : Shell σ) (session : Session σ) : Except Fault Flow × Session σ :=
  match shell.nextLine session with
  | (.error fault, session) => (.error fault, session)
  | (.ok none, session) => (.ok (.exit session.status), session)
  | (.ok (some line), session) => shell.runLine (typedText line) session

/-- A turn after which the session goes on uses something up. -/
theorem remaining_turn_lt (shell : Shell σ) (session : Session σ)
    (h : (shell.turn session).1 = .ok .go) :
    remaining (shell.turn session).2 < remaining session := by
  unfold turn at h ⊢
  -- After a fault and at the end of the lines the session does not go on.
  split at h <;> rename_i hn
  · simp at h
  · simp at h
  · rename_i line typed
    have hl := shell.remaining_nextLine_lt session line (by rw [hn])
    rw [hn] at hl
    exact Nat.lt_of_le_of_lt (shell.remaining_runLine_le _ typed) hl

/-- Takes turns until one ends the session. Gives the session's status. -/
def run (shell : Shell σ) (session : Session σ) : Except Fault Status × Session σ :=
  match _ht : shell.turn session with
  | (.error fault, session) => (.error fault, session)
  | (.ok (.exit status), session) => (.ok status, session)
  | (.ok .go, later) => shell.run later
termination_by remaining session
decreasing_by
  -- The session went on, so a line was read, and that line used something up.
  have h := shell.remaining_turn_lt session (by rw [_ht])
  rwa [_ht] at h

end Shell

end Honeypot
