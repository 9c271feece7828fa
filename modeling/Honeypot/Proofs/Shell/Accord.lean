import Mathlib.Logic.Relation
import Honeypot.Shell.Session
import Honeypot.Proofs.Process.Lockstep
import Honeypot.Proofs.Text.Utf8

/-!
# Shells in accord

Two shells on different streams go through the same session if all that they do on their streams
goes alike. Where the terminal of the one side breaks off, its session ends with the fault, at the
latest when it shows its next prompt, while the other session goes on.

* `Session.Related`, `Session.Apart`: sessions that differ in their plumbings only, and sessions
  after the one side broke off.
* `Shell.Accord`: shells that have everything in common but their streams, on which what they do
  goes alike until the terminal of the one side breaks off.
* `Shell.Accord.runLine_until`, `Shell.Accord.turn_until`: what becomes of one line and one turn.
* `Shell.Accord.run_cases`: whole sessions go alike, or there is a turn in which the one side
  breaks off.
* `Shell.Accord.run_of_breaksOff`, `Shell.Accord.run_until`: how the session on that side ends.
-/

namespace Honeypot

variable {σ ρ α : Type}

/-! ## Sessions -/

/-- Sessions that have everything in common but their plumbings, which are related. -/
structure Session.Related (R : σ → ρ → Prop) (one : Session σ) (other : Session ρ) : Prop where
  machine : one.machine.Related R other.machine
  status : one.status = other.status

/-- Sessions whose plumbings are apart. -/
def Session.Apart (C : σ → ρ → Prop) (one : Session σ) (other : Session ρ) : Prop :=
  one.machine.Apart C other.machine

/-- Actions that go alike on plumbings until one breaks off do so on sessions. -/
theorem Session.stream_until {R C : σ → ρ → Prop} {broken : α → Prop} {one : σ → α × σ}
    {other : ρ → α × ρ} (h : AlikeUntil R C broken one other) :
    AlikeUntil (Related R) (Apart C) broken (fun session => session.stream one)
      (fun session => session.stream other) := by
  intro session session' hrelated
  rcases Machine.stream_until h _ _ hrelated.machine with ⟨hanswer, hmachine⟩ | hapart
  · exact .inl ⟨hanswer, hmachine, hrelated.status⟩
  · exact .inr hapart

/-- Sessions in which a command ends with one status stay related. -/
theorem Session.ended_until (R C : σ → ρ → Prop) {broken : α → Prop} (answer : α)
    (status : Status) :
    AlikeUntil (Related R) (Apart C) broken (fun session => (answer, session.ended status))
      (fun session => (answer, session.ended status)) :=
  fun _ _ hrelated => .inl ⟨rfl, hrelated.machine, rfl⟩

namespace Shell

variable [Supply σ] [Supply ρ]

/-! ## What a shell does, step by step -/

/-- What is said before something else is one action before another. -/
theorem say_then_eq (sink : Sink σ) (texts : List String)
    (next : Session σ → Except Fault α × Session σ) :
    (fun session => match say sink texts session with
      | (.ok (), session) => next session
      | (.error fault, session) => (.error fault, session)) =
      andThen (say sink texts) fun _ => next := by
  funext session
  rw [andThen]
  rcases say sink texts session with ⟨_ | _, later⟩ <;> rfl

/-- What follows when a line was read, or when there are no more lines. -/
def obey (shell : Shell σ) : Option Bytes → Session σ → Except Fault Flow × Session σ
  | none, session => (.ok (.exit session.status), session)
  | some line, session => shell.runLine (typedText line) session

/-- A line is read after the prompt. -/
theorem nextLine_eq (shell : Shell σ) :
    shell.nextLine =
      andThen shell.showPrompt fun _ session => session.stream shell.lines.readLine := by
  funext session
  rw [nextLine, andThen]
  rcases shell.showPrompt session with ⟨_ | _, later⟩ <;> rfl

/-- A turn is a line and what follows. -/
theorem turn_eq (shell : Shell σ) : shell.turn = andThen shell.nextLine shell.obey := by
  funext session
  rw [turn, andThen]
  rcases shell.nextLine session with ⟨_ | _ | _, later⟩ <;> rfl

/-- A session goes on after its first turn. -/
theorem run_eq (shell : Shell σ) (session : Session σ) :
    shell.run session =
      match shell.turn session with
      | (.error fault, session) => (.error fault, session)
      | (.ok (.exit status), session) => (.ok status, session)
      | (.ok .go, later) => shell.run later := by
  rw [run]
  split
  · next ht => rw [ht]
  · next ht => rw [ht]
  · next ht => rw [ht]

/-- Whether a session goes on after a turn, and comes to another one. -/
def Goes (shell : Shell σ) (session later : Session σ) : Prop :=
  shell.turn session = (.ok .go, later)

/-- Whether a session comes to another one after some turns. -/
def Reaches (shell : Shell σ) : Session σ → Session σ → Prop :=
  Relation.ReflTransGen shell.Goes

/-- A session ends as the sessions do that it comes to. -/
theorem run_of_reaches {shell : Shell σ} {session later : Session σ}
    (h : shell.Reaches session later) : shell.run session = shell.run later := by
  induction h using Relation.ReflTransGen.head_induction_on with
  | refl => rfl
  | head hgoes _ ih =>
    rw [run_eq, hgoes]
    exact ih

/-- A prompt is never empty. -/
theorem encode_prompt_ne_nil (shell : Shell σ) (session : Session σ) :
    Text.encode (shell.prompt session) ≠ [] := by
  have hsign : Text.encode "@" ≠ [] := by decide
  simp [prompt, promptIn, Text.encode_append, hsign]

/-! ## Shells in accord -/

/-- Everything that a shell does keeps a condition on its plumbing. -/
structure Keeps (shell : Shell σ) (kept : σ → Prop) : Prop where
  diagnose : ∀ parts s, kept s → kept (shell.diagnostics.writeParts parts s).2
  flush : ∀ s, kept s → kept (shell.terminal.flush s).2
  readLine : ∀ s, kept s → kept (shell.lines.readLine s).2
  runLine : ∀ line (session : Session σ), kept session.machine.plumbing →
    kept (shell.runLine line session).2.machine.plumbing
  run : ∀ session : Session σ, kept session.machine.plumbing →
    kept (shell.run session).2.machine.plumbing

/-- What never holds is kept. -/
theorem keeps_false (shell : Shell σ) : shell.Keeps fun _ => False :=
  ⟨fun _ _ => id, fun _ => id, fun _ => id, fun _ _ => id, fun _ => id⟩

/-- Shells that have everything in common but their streams. What they do on those goes alike, until
the terminal of the one side breaks off with a fault. From then on it fails, and nothing that the
other shell does brings the two together again. -/
structure Accord (R C : σ → ρ → Prop) (fault : Fault) (one : Shell σ) (other : Shell ρ) :
    Prop where
  registry : one.registry = other.registry
  hostname : one.hostname = other.hostname
  user : one.user = other.user
  home : one.home = other.home
  print : ∀ parts, AlikeUntil R C (· = .error fault) (one.terminal.writeParts parts)
    (other.terminal.writeParts parts)
  diagnose : ∀ parts,
    Alike R (one.diagnostics.writeParts parts) (other.diagnostics.writeParts parts)
  flush : Alike R one.terminal.flush other.terminal.flush
  readLine : Alike R one.lines.readLine other.lines.readLine
  execute : ∀ name args, AlikeUntil (Machine.Related R) (Machine.Apart C)
    (fun answer => ∃ status, answer = .ok status)
    (one.registry.execute one.streams one.recorder name args)
    (other.registry.execute other.streams other.recorder name args)
  stuck : ∀ s t, C s t → ∀ bytes ≠ [], (one.terminal.writeAll bytes s).1 = .error fault ∧
    C (one.terminal.writeAll bytes s).2 t
  keeps : ∀ s, other.Keeps (C s)

/-- What a line comes to on a terminal that broke off: it fails, or it ends without notice. -/
def BreaksOff (fault : Fault) (answer : Except Fault Flow) : Prop :=
  answer = .error fault ∨ answer = .ok .go

variable {R C : σ → ρ → Prop} {fault : Fault}

/-- What is said before something else goes alike if the rest does, until what is said breaks
off. -/
theorem say_until_then {one : Sink σ} {other : Sink ρ} {broken : Except Fault α → Prop}
    (h : ∀ parts, AlikeUntil R C (· = .error fault) (one.writeParts parts) (other.writeParts parts))
    (texts : List String) {next : Session σ → Except Fault α × Session σ}
    {next' : Session ρ → Except Fault α × Session ρ}
    (hnext : AlikeUntil (Session.Related R) (Session.Apart C) broken next next')
    (hbroken : broken (.error fault))
    (hstays : ∀ session session', Session.Apart C session session' →
      Session.Apart C session (next' session').2) :
    AlikeUntil (Session.Related R) (Session.Apart C) broken
      (fun session => match say one texts session with
        | (.ok (), session) => next session
        | (.error fault, session) => (.error fault, session))
      (fun session => match say other texts session with
        | (.ok (), session) => next' session
        | (.error fault, session) => (.error fault, session)) := by
  rw [say_then_eq, say_then_eq]
  have hsay : AlikeUntil (Session.Related R) (Session.Apart C) (· = .error fault) (say one texts)
      (say other texts) := Session.stream_until (h _)
  exact hsay.andThen (fun _ => id) (fun _ => hnext) hbroken fun _ => hstays

namespace Accord

variable {one : Shell σ} {other : Shell ρ} (h : one.Accord R C fault other)

include h

/-- Diagnostics do not break off. -/
theorem diagnose_until (parts : List Bytes) :
    AlikeUntil R C (· = .error fault) (one.diagnostics.writeParts parts)
      (other.diagnostics.writeParts parts) :=
  (h.diagnose parts).until C _

/-- Shells in accord show the same prompt. -/
theorem prompt {session : Session σ} {session' : Session ρ}
    (hrelated : Session.Related R session session') :
    one.prompt session = other.prompt session' := by
  unfold Shell.prompt promptIn
  rw [h.user, h.hostname, h.home, hrelated.machine.process]

/-! ## What a line does -/

/-- Commands go alike until one breaks off, which then ends with some status. -/
theorem runCommand_until (name : String) (args : List String) :
    AlikeUntil (Session.Related R) (Session.Apart C) (BreaksOff fault) (one.runCommand name args)
      (other.runCommand name args) := by
  intro session session' hrelated
  have hexecute := h.execute name args _ _ hrelated.machine
  unfold Shell.runCommand
  generalize one.registry.execute one.streams one.recorder name args session.machine = step
    at hexecute ⊢
  generalize other.registry.execute other.streams other.recorder name args session'.machine = step'
    at hexecute ⊢
  obtain ⟨answer, machine⟩ := step
  obtain ⟨answer', machine'⟩ := step'
  rcases hexecute with ⟨hanswer, hmachine⟩ | ⟨⟨status, hstatus⟩, hapart⟩
  · obtain rfl : answer = answer' := hanswer
    cases answer with
    | ok status => exact .inl ⟨rfl, hmachine, rfl⟩
    | error failure =>
      have hsession : Session.Related R { session with machine }
          { session' with machine := machine' } := ⟨hmachine, hrelated.status⟩
      dsimp only
      by_cases hmissing : failure.isNotFound = true
      · rw [if_pos hmissing, if_pos hmissing]
        exact say_until_then h.diagnose_until _ (Session.ended_until R C _ _) (.inl rfl)
          (fun _ _ => id) _ _ hsession
      · rw [if_neg hmissing, if_neg hmissing]
        exact .inl ⟨rfl, hmachine, rfl⟩
  · -- The one command is done. The other one may still find something to say.
    obtain rfl : answer = .ok status := hstatus
    refine .inr ⟨.inr rfl, ?_⟩
    cases answer' with
    | ok status' => exact hapart
    | error failure =>
      dsimp only
      split
      · have hlater : Session.Apart C ⟨machine, status⟩ (say other.diagnostics
            ["-bash: ", name, ": command not found\n"] { session' with machine := machine' }).2 :=
          (h.keeps machine.plumbing).diagnose _ machine'.plumbing hapart
        generalize say other.diagnostics _ _ = said at hlater ⊢
        obtain ⟨_ | _, later⟩ := said
        · exact hlater
        · exact hlater
      · exact hapart

/-- What a line says is done alike until something breaks off. -/
theorem runLine_until (line : String) :
    AlikeUntil (Session.Related R) (Session.Apart C) (BreaksOff fault) (one.runLine line)
      (other.runLine line) := by
  intro session session' hrelated
  -- The words depend on the last status and on the variables, which are the same.
  have hwords : Shell.words session line = Shell.words session' line := by
    unfold Shell.words
    rw [hrelated.status, hrelated.machine.process]
  unfold Shell.runLine
  rw [hwords]
  cases Shell.words session' line with
  | error quotation =>
    exact say_until_then h.diagnose_until _ (Session.ended_until R C _ _) (.inl rfl)
      (fun _ _ => id) session session' hrelated
  | ok words =>
    dsimp only
    cases Line.ofWords words with
    | blank => exact .inl ⟨rfl, hrelated⟩
    | leave args =>
      refine say_until_then h.print _ ?_ (.inl rfl) (fun _ _ => id) session session' hrelated
      exact fun later later' hlater => .inl ⟨by rw [hlater.status], hlater⟩
    | help topics =>
      dsimp only
      unfold runHelp
      rw [h.registry]
      exact say_until_then h.print _ (Session.ended_until R C _ _) (.inl rfl)
        (fun _ _ => id) session session' hrelated
    | command name args => exact h.runCommand_until name args session session' hrelated

/-! ## Turns -/

/-- Prompts are shown alike until one breaks off. -/
theorem showPrompt_until :
    AlikeUntil (Session.Related R) (Session.Apart C) (· = .error fault) one.showPrompt
      other.showPrompt := by
  intro session session' hrelated
  have hflush : AlikeUntil (Session.Related R) (Session.Apart C) (· = .error fault)
      (fun session => session.stream one.terminal.flush)
      (fun session => session.stream other.terminal.flush) :=
    Session.stream_until (h.flush.until C _)
  unfold Shell.showPrompt
  rw [h.prompt hrelated]
  exact say_until_then h.print _ hflush rfl (fun _ _ => (h.keeps _).flush _) session session'
    hrelated

/-- Lines are typed alike until a prompt breaks off. -/
theorem nextLine_until :
    AlikeUntil (Session.Related R) (Session.Apart C) (· = .error fault) one.nextLine
      other.nextLine := by
  rw [nextLine_eq, nextLine_eq]
  exact h.showPrompt_until.andThen (fun _ => id)
    (fun _ => Session.stream_until (h.readLine.until C _)) rfl
    (fun _ _ _ => (h.keeps _).readLine _)

/-- Turns go alike until one breaks off. -/
theorem turn_until :
    AlikeUntil (Session.Related R) (Session.Apart C) (BreaksOff fault) one.turn other.turn := by
  rw [turn_eq, turn_eq]
  refine h.nextLine_until.andThen (fun _ => id) (fun line => ?_) (.inl rfl) ?_
  · cases line with
    | none => exact fun later later' hlater => .inl ⟨by rw [obey, obey, hlater.status], hlater⟩
    | some line => exact h.runLine_until (typedText line)
  · -- The one side has stopped at its prompt. The other may have read a line, and obeys it.
    intro line session session' hapart
    cases line with
    | none => exact hapart
    | some line => exact (h.keeps _).runLine (typedText line) session' hapart

/-! ## Whole sessions -/

/-- A terminal that broke off does not take a prompt any more. -/
theorem showPrompt_of_apart {session : Session σ} {session' : Session ρ}
    (hapart : Session.Apart C session session') :
    (one.showPrompt session).1 = .error fault ∧
      Session.Apart C (one.showPrompt session).2 session' := by
  -- The prompt is not empty, so the terminal is offered something, which it refuses.
  have hstuck := h.stuck _ _ hapart _ (one.encode_prompt_ne_nil session)
  unfold Shell.showPrompt say Session.stream Machine.stream
  rw [List.map_singleton, Sink.writeParts]
  generalize one.terminal.writeAll _ session.machine.plumbing = step at hstuck ⊢
  obtain ⟨answer, s⟩ := step
  obtain ⟨rfl, hs⟩ := hstuck
  exact ⟨rfl, hs⟩

/-- A session whose terminal broke off ends with the fault at its next prompt. -/
theorem run_of_apart {session : Session σ} {session' : Session ρ}
    (hapart : Session.Apart C session session') :
    (one.run session).1 = .error fault ∧ Session.Apart C (one.run session).2 session' := by
  have hprompt := h.showPrompt_of_apart hapart
  rw [run_eq, turn_eq, andThen, nextLine_eq, andThen]
  generalize one.showPrompt session = step at hprompt ⊢
  obtain ⟨answer, later⟩ := step
  obtain ⟨rfl, hlater⟩ := hprompt
  exact ⟨rfl, hlater⟩

/-- Sessions go alike to their ends, or both come to a turn in which the one breaks off. -/
theorem run_cases {session : Session σ} {session' : Session ρ}
    (hrelated : Session.Related R session session') :
    ((one.run session).1 = (other.run session').1 ∧
        Session.Related R (one.run session).2 (other.run session').2) ∨
      ∃ later later', one.Reaches session later ∧ other.Reaches session' later' ∧
        Session.Related R later later' ∧ BreaksOff fault (one.turn later).1 ∧
        Session.Apart C (one.turn later).2 (other.turn later').2 := by
  -- Turn by turn: as long as nothing breaks off, both sessions end or both go on.
  fun_induction one.run session generalizing session' with
  | case1 session stop later ht =>
    rcases h.turn_until session session' hrelated with halike | hbroken
    · obtain ⟨later', hother, hlater⟩ := exists_eq_of_alike halike ht
      rw [other.run_eq, hother]
      exact .inl ⟨rfl, hlater⟩
    · exact .inr ⟨session, session', .refl, .refl, hrelated, hbroken⟩
  | case2 session status later ht =>
    rcases h.turn_until session session' hrelated with halike | hbroken
    · obtain ⟨later', hother, hlater⟩ := exists_eq_of_alike halike ht
      rw [other.run_eq, hother]
      exact .inl ⟨rfl, hlater⟩
    · exact .inr ⟨session, session', .refl, .refl, hrelated, hbroken⟩
  | case3 session later ht ih =>
    rcases h.turn_until session session' hrelated with halike | hbroken
    · obtain ⟨later', hother, hlater⟩ := exists_eq_of_alike halike ht
      rw [other.run_eq, hother]
      rcases ih hlater with hsame | ⟨last, last', hone, hother', hbroken⟩
      · exact .inl hsame
      · exact .inr ⟨last, last', .head ht hone, .head hother hother', hbroken⟩
    · exact .inr ⟨session, session', .refl, .refl, hrelated, hbroken⟩

/-- From a turn in which the one side breaks off, its session ends with the fault, and the other
session stays apart. -/
theorem run_of_breaksOff {session : Session σ} {session' : Session ρ}
    (hbroken : BreaksOff fault (one.turn session).1)
    (hapart : Session.Apart C (one.turn session).2 (other.turn session').2) :
    (one.run session).1 = .error fault ∧
      Session.Apart C (one.run session).2 (other.run session').2 := by
  -- However the turn ended on the other side, its session stays apart until its end.
  have hends : Session.Apart C (one.turn session).2 (other.run session').2 := by
    rw [run_eq]
    generalize other.turn session' = step at hapart ⊢
    obtain ⟨answer, later⟩ := step
    rcases answer with _ | _ | status
    · exact hapart
    · exact (h.keeps _).run later hapart
    · exact hapart
  rw [one.run_eq]
  generalize one.turn session = step at hbroken hends ⊢
  obtain ⟨answer, later⟩ := step
  rcases hbroken with rfl | rfl
  · exact ⟨rfl, hends⟩
  · exact h.run_of_apart hends

/-- Sessions go alike to their ends, or the one ends with the fault. -/
theorem run_until :
    AlikeUntil (Session.Related R) (Session.Apart C) (· = .error fault) one.run other.run := by
  intro session session' hrelated
  rcases h.run_cases hrelated with halike | ⟨later, later', hone, hother, -, hbroken, hapart⟩
  · exact .inl halike
  · rw [run_of_reaches hone, run_of_reaches hother]
    exact .inr (h.run_of_breaksOff hbroken hapart)

end Accord

end Shell

end Honeypot
