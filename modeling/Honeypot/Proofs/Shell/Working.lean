import Honeypot.Proofs.Shell.Wired
import Honeypot.Proofs.Stream.Arrival
import Honeypot.Proofs.Stream.Typing

/-!
# Shells on ends that work

On a wiring whose ends lose nothing, what a shell prints gets through, and the line that it reads is
the next one of its input. So it can be said what a prompt, a line and its first word come to.

* `Wiring.Works`: wirings on which nothing that a shell does fails.
* `Shell.IsWired`: shells on the streams of a wiring, observed or not.
* `Shell.IsWired.showPrompt_eq`, `Shell.IsWired.nextLine_eq_took`: the prompt and the line typed
  after it.
* `Shell.leaving?`, `Shell.IsWired.runLine_fst`: whether a line ends the session, and the answer.
-/

namespace Honeypot

/-! ## Wirings that work -/

/-- The lines of a session may be disturbed but do not fail, and whatever it prints gets through, at
once or by and by. -/
structure Wiring.Works (ends : Ends) (wiring : Wiring) : Prop where
  inlet : (wiring.inlet ends.input).IsPatient
  outlet : ∀ channel, ends.Writes channel → Working channel wiring

namespace Wiring.Works

variable {ends : Ends} {wiring : Wiring} (h : wiring.Works ends)

include h

/-- Whatever is read, the ends work on. -/
theorem read (channel : Incoming) (most : Nat) : (wiring.read channel most).2.Works ends where
  inlet := by
    rw [inlet_read]
    by_cases hchannel : ends.input = channel
    · rw [← hchannel, Function.update_self]
      exact h.inlet.of_suffix (Inlet.read_suffix most _)
    · rw [Function.update_of_ne hchannel]
      exact h.inlet
  outlet place hplace := by
    rw [Working, outlet_read]
    exact h.outlet place hplace

/-- Whatever is written, the ends work on. -/
theorem write (channel : Outgoing) (offered : Bytes) :
    (wiring.write channel offered).2.Works ends where
  inlet := by
    rw [inlet_write]
    exact h.inlet
  outlet place hplace := by
    have hworking : (wiring.outlet place).NeverFails := h.outlet place hplace
    rw [Working, outlet_write]
    by_cases hsame : place = channel
    · rw [← hsame, Function.update_self]
      exact hworking.write offered
    · rw [Function.update_of_ne hsame]
      exact hworking

theorem took (n : Nat) : (wiring.took ends.input n).Works ends where
  inlet := by
    rw [inlet_took, Function.update_self]
    exact h.inlet.of_suffix (Inlet.skip_suffix n _)
  outlet place hplace := by
    rw [Working, outlet_took]
    exact h.outlet place hplace

theorem patient : Patient ends wiring wiring where
  inlet := h.inlet
  outlet channel hchannel := (h.outlet channel hchannel).toIsPatient
  otherInlet _ _ := rfl
  otherOutlet _ _ := rfl

/-- What is printed at an end gets through as a whole, and nothing else crosses. -/
theorem writeParts {channel : Outgoing} (hchannel : ends.Writes channel) (parts : List Bytes) :
    let step := (sink channel).lineFeeds.writeParts parts wiring
    step.1 = .ok () ∧ step.2.Works ends ∧
      step.2.ledger = wiring.ledger.after channel (Sink.translated parts.flatten) := by
  have hsteady := (steady_sink hchannel wiring).lineFeeds
  obtain ⟨hanswer, -, hledger⟩ := hsteady.writeParts parts wiring _ ⟨h.patient, rfl⟩
  -- There is room for everything, so all of it crosses.
  have hroom : wiring.ledger.room channel = none := (h.outlet channel hchannel).room
  have hput : (Ledger.intake channel).lineFeeds.put parts.flatten wiring.ledger =
      (.ok (), wiring.ledger.after channel (Sink.translated parts.flatten)) :=
    Ledger.put_of_room_eq_none hroom _
  have hself : (sink channel).Lockstep (Kept fun wiring => wiring.Works ends) (sink channel) :=
    sink_lockstep_self fun _ offered hworks => hworks.write channel offered
  rw [hput] at hanswer hledger
  exact ⟨hanswer, (hself.lineFeeds.writeParts parts).kept h, hledger⟩

end Wiring.Works

/-! ## Shells on a wiring -/

/-- A shell with any commands on the streams of a wiring, observed or not. -/
structure Shell.IsWired (observed : Bool) (shell : Shell Wiring) : Prop where
  streams : shell.streams = Wiring.streams
  recorder : shell.recorder = Console.recorder observed

namespace Shell.IsWired

variable {observed : Bool} {shell : Shell Wiring} (h : shell.IsWired observed)

include h

theorem terminal : shell.terminal = (Wiring.sink (Console.ends observed).output).lineFeeds := by
  unfold Shell.terminal
  rw [h.streams, h.recorder]
  cases observed <;> rfl

theorem diagnostics :
    shell.diagnostics = (Wiring.sink (Console.ends observed).error).lineFeeds := by
  unfold Shell.diagnostics
  rw [h.streams, h.recorder]
  cases observed <;> rfl

theorem lines : shell.lines = Wiring.source (Console.ends observed).input := by
  unfold Shell.lines
  rw [h.streams, h.recorder]
  cases observed <;> rfl

theorem boundTo : shell.streams.boundTo shell.recorder = (Console.ends observed).streams := by
  rw [h.streams, h.recorder]
  cases observed <;> rfl

/-- A shell on a wiring keeps what reads and writes keep. -/
theorem lockstep_self {kept : Wiring → Prop}
    (hread : ∀ channel wiring most, kept wiring → kept (wiring.read channel most).2)
    (hwrite : ∀ channel wiring offered, kept wiring → kept (wiring.write channel offered).2) :
    shell.Lockstep (Kept kept) shell where
  registry := rfl
  streams := by
    rw [h.streams]
    exact ⟨Wiring.source_lockstep_self (hread _), Wiring.sink_lockstep_self (hwrite _),
      Wiring.source_lockstep_self (hread _), Wiring.sink_lockstep_self (hwrite _)⟩
  recorder := by
    rw [h.recorder]
    cases observed
    · exact .none
    · exact .some ⟨Wiring.source_lockstep_self (hread _), Wiring.sink_lockstep_self (hwrite _)⟩
  hostname := rfl
  user := rfl
  home := rfl

/-- Whatever a shell does, the ends work on. -/
theorem works_self (ends : Ends) :
    shell.Lockstep (Kept fun wiring => wiring.Works ends) shell :=
  h.lockstep_self (fun channel _ most hworks => hworks.read channel most)
    fun channel _ offered hworks => hworks.write channel offered

end Shell.IsWired

/-! ## The input of a session -/

/-- The bytes that are still to come at the end where a session reads its lines. -/
def Session.unread (channel : Incoming) (session : Session Wiring) : Bytes :=
  (session.machine.plumbing.inlet channel).bytes

/-- A session on another plumbing. -/
def Session.on {σ : Type} (session : Session σ) (plumbing : σ) : Session σ :=
  { session with machine := { session.machine with plumbing } }

theorem Session.stream_of_eq {σ α : Type} {session : Session σ} {action : σ → α × σ} {answer : α}
    {plumbing : σ} (h : action session.machine.plumbing = (answer, plumbing)) :
    session.stream action = (answer, session.on plumbing) := by
  rw [stream, Machine.stream, h]
  rfl

/-- A session after so many bytes were taken one by one at an end. -/
def Session.took (session : Session Wiring) (channel : Incoming) (n : Nat) : Session Wiring :=
  session.on (session.machine.plumbing.took channel n)

theorem Session.unread_took (session : Session Wiring) (channel : Incoming) (n : Nat) :
    (session.took channel n).unread channel = (session.unread channel).drop n := by
  show ((session.machine.plumbing.took channel n).inlet channel).bytes = _
  rw [Wiring.inlet_took, Function.update_self, Inlet.bytes_skip]
  rfl

namespace Shell

/-- A prompt keeps what the streams keep. -/
theorem Lockstep.keeps_showPrompt {σ : Type} [Supply σ] {kept : σ → Prop} {shell : Shell σ}
    (h : shell.Lockstep (Kept kept) shell) {session : Session σ}
    (hkept : kept session.machine.plumbing) :
    kept (shell.showPrompt session).2.machine.plumbing := by
  have halike := (h.accord .brokenPipe).showPrompt_until.alike fun _ _ => id
  exact (halike session session ⟨.kept hkept, rfl⟩).2.machine.plumbing.2

/-- A session keeps what the streams keep, turn by turn. -/
theorem Lockstep.keeps_of_reaches {σ : Type} [Supply σ] {kept : σ → Prop} {shell : Shell σ}
    (h : shell.Lockstep (Kept kept) shell) {session later : Session σ}
    (hreaches : shell.Reaches session later) (hkept : kept session.machine.plumbing) :
    kept later.machine.plumbing := by
  have halike := (h.accord .brokenPipe).turn_until.alike fun _ _ => id
  induction hreaches with
  | refl => exact hkept
  | tail _ hgoes ih =>
    have hlater := (halike _ _ ⟨.kept ih, rfl⟩).2.machine.plumbing.2
    rwa [show shell.turn _ = _ from hgoes] at hlater

/-- The arguments of a line whose first word ends the session. -/
def leaving? {σ : Type} (line : String) (session : Session σ) : Option (List String) :=
  match words session line with
  | .ok (name :: args) => if name = "exit" ∨ name = "logout" then some args else none
  | _ => none

/-- On ends that work, whatever is said gets through, and nothing else changes. -/
theorem say_of_works {ends : Ends} {channel : Outgoing} (hchannel : ends.Writes channel)
    (texts : List String) {session : Session Wiring}
    (hworks : session.machine.plumbing.Works ends) :
    ∃ plumbing, say (Wiring.sink channel).lineFeeds texts session =
        (.ok (), session.on plumbing) ∧ plumbing.Works ends ∧
      plumbing.ledger = session.machine.plumbing.ledger.after channel
        (Sink.translated (texts.map Text.encode).flatten) := by
  obtain ⟨hanswer, hlater, hledger⟩ := hworks.writeParts hchannel (texts.map Text.encode)
  exact ⟨_, Session.stream_of_eq (Prod.ext hanswer rfl), hlater, hledger⟩

namespace IsWired

variable {observed : Bool} {shell : Shell Wiring} (h : shell.IsWired observed)
  {session : Session Wiring}

include h

/-- On ends that work, the prompt gets through, and nothing else changes. -/
theorem showPrompt_eq (hworks : session.machine.plumbing.Works (Console.ends observed)) :
    ∃ plumbing, shell.showPrompt session = (.ok (), session.on plumbing) ∧
      plumbing.Works (Console.ends observed) ∧
      plumbing.ledger = session.machine.plumbing.ledger.after (Console.ends observed).output
        (Sink.translated (Text.encode (shell.prompt session))) := by
  obtain ⟨plumbing, hsaid, hlater, hledger⟩ :=
    say_of_works (Console.ends observed).writes_output [shell.prompt session] hworks
  rw [List.map_singleton, List.flatten_singleton] at hledger
  refine ⟨plumbing, ?_, hlater, hledger⟩
  have hflush : shell.terminal.flush plumbing = (.ok (), plumbing) := by
    rw [h.terminal, Sink.lineFeeds_flush]
    show (if _ then _ else _, _) = _
    rw [(hlater.outlet _ (Console.ends observed).writes_output).flushes]
    rfl
  rw [← h.terminal] at hsaid
  rw [showPrompt, hsaid]
  exact Session.stream_of_eq hflush

/-- On ends that work, the next line is what comes before the first line feed, and nothing after
that is taken. -/
theorem nextLine_eq_took (hworks : session.machine.plumbing.Works (Console.ends observed)) :
    let channel := (Console.ends observed).input
    shell.nextLine session =
      (.ok (if session.unread channel = [] then none
        else some (Sink.untilLineFeed (session.unread channel))),
        (shell.showPrompt session).2.took channel
          ((Sink.untilLineFeed (session.unread channel)).length + 1)) := by
  intro channel
  obtain ⟨plumbing, hprompt, hlater, hledger⟩ := h.showPrompt_eq hworks
  -- The prompt took nothing of what is to come.
  have hunread : (plumbing.inlet channel).bytes = session.unread channel :=
    congrFun (congrArg Ledger.pending hledger) channel
  have hread := Wiring.readLine_of_isPatient hlater.inlet
  rw [hunread] at hread
  rw [nextLine, hprompt]
  dsimp only
  rw [h.lines]
  exact Session.stream_of_eq hread

/-- On ends that work, what was typed after the prompt is gone from the input, and nothing else. -/
theorem showPrompt_took (hworks : session.machine.plumbing.Works (Console.ends observed))
    (n : Nat) :
    let channel := (Console.ends observed).input
    let typed := (shell.showPrompt session).2.took channel n
    typed.machine.plumbing.Works (Console.ends observed) ∧
      typed.unread channel = (session.unread channel).drop n := by
  intro channel typed
  obtain ⟨plumbing, hprompt, hlater, hledger⟩ := h.showPrompt_eq hworks
  have hunread : (session.on plumbing).unread channel = session.unread channel :=
    congrFun (congrArg Ledger.pending hledger) channel
  dsimp only [typed]
  rw [Session.unread_took, hprompt, hunread]
  exact ⟨hlater.took n, rfl⟩

/-- On ends that work, the session goes on after every command. -/
theorem runCommand_fst (hworks : session.machine.plumbing.Works (Console.ends observed))
    (name : String) (args : List String) :
    (shell.runCommand name args session).1 = .ok .go := by
  have hself := h.works_self (Console.ends observed)
  -- Even a command that crashed leaves the ends working.
  have hexecute := (shell.registry.execute_lockstep hself.streams hself.recorder name args
    session.machine session.machine (.kept hworks)).2.plumbing.2
  unfold runCommand
  generalize shell.registry.execute shell.streams shell.recorder name args session.machine = step
    at hexecute ⊢
  obtain ⟨answer, machine⟩ := step
  cases answer with
  | ok status => rfl
  | error failure =>
    dsimp only
    split
    · have hlater : ({ session with machine } : Session Wiring).machine.plumbing.Works
        (Console.ends observed) := hexecute
      obtain ⟨plumbing, hsaid, -⟩ := say_of_works (Console.ends observed).writes_error
        ["-bash: ", name, ": command not found\n"] hlater
      rw [h.diagnostics, hsaid]
    · rfl

/-- On ends that work, a line is answered by what its first word says. -/
theorem runLine_fst (hworks : session.machine.plumbing.Works (Console.ends observed))
    (line : String) :
    (shell.runLine line session).1 = .ok (match leaving? line session with
      | some args => .exit (Line.exitStatus session.status args)
      | none => .go) := by
  -- Whatever the line says goes to an end that works, so that saying it never fails.
  unfold runLine leaving?
  cases words session line with
  | error quotation =>
    obtain ⟨plumbing, hsaid, -⟩ := say_of_works (Console.ends observed).writes_error
      ("-bash: " :: quotation.parts ++ ["\n"]) hworks
    dsimp only
    rw [runUnterminated, h.diagnostics, hsaid]
  | ok list =>
    cases list with
    | nil => rfl
    | cons name args =>
      dsimp only
      rw [Line.ofWords]
      by_cases hleave : name = "exit" ∨ name = "logout"
      · obtain ⟨plumbing, hsaid, -⟩ := say_of_works (Console.ends observed).writes_output
          ["logout\n"] hworks
        rw [if_pos hleave, if_pos hleave]
        dsimp only
        rw [runExit, h.terminal, hsaid]
        rfl
      · rw [if_neg hleave, if_neg hleave]
        by_cases hhelp : name = "help"
        · obtain ⟨plumbing, hsaid, -⟩ := say_of_works (Console.ends observed).writes_output
            [(helpText shell.registry args).1] hworks
          rw [if_pos hhelp]
          dsimp only
          rw [runHelp, h.terminal, hsaid]
        · rw [if_neg hhelp]
          exact h.runCommand_fst hworks name args

end IsWired

end Shell

end Honeypot
