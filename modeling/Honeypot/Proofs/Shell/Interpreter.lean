import Honeypot.Proofs.Shell.Upkeep
import Honeypot.Proofs.Shell.Working

/-!
# A shell as the interpreter of its input

On ends that lose nothing, and with commands that leave its input alone, a shell does what the lines
of the input say, one after the other. Nothing is skipped and nothing is taken too early: what
comes after the line that ends the session is still there for the next one.

* `Shell.Spells`: the text of a line, as one who reads it would say it.
* `Shell.LeavesInput`, `Shell.IsWired.unread_runLine`: no command of a session takes any of the
  lines, and then what a line says takes none.
* `Shell.interpret`, `Shell.IsWired.run_eq_interpret`: what the lines of an input make a shell do,
  turn by turn.
* `Shell.prompts`, `Shell.IsWired.length_prompts_le`: the prompts of a session, whatever becomes of
  its streams.
* `Shell.interprets_input`: a session is the interpretation of its input.

## References

- [SPEC] `SPEC_FULL.md`: §10, Supplementary Features
-/

namespace Honeypot

/-! ## Commands that leave the input alone -/

/-- Whether a call takes something of what is to come where a session reads its lines. -/
def Call.Takes (ends : Ends) : Call → Prop
  | .read _ => True
  | .readError _ => ends.errorInput = ends.input
  | _ => False

/-- Writing at an end leaves alone what is to come at another one. -/
theorem Wiring.sink_lockstep_inlet (channel : Outgoing) (place : Incoming) (inlet : Inlet) :
    (sink channel).Lockstep (Kept fun wiring => wiring.inlet place = inlet) (sink channel) :=
  sink_lockstep_self fun wiring offered hinlet => by rw [inlet_write, hinlet]

namespace Machine

variable {ends : Ends} (machine : Machine Wiring)

/-- Other calls leave alone what is to come there. -/
theorem inlet_answer {request : Call} (h : ¬ request.Takes ends) :
    (machine.answer ends.streams request).2.plumbing.inlet ends.input =
      machine.plumbing.inlet ends.input := by
  have hsink (channel : Outgoing) := Wiring.sink_lockstep_inlet channel ends.input
    (machine.plumbing.inlet ends.input)
  -- Writing changes no end that is read, and what the error channel gives comes from another end.
  cases request with
  | read most => exact absurd trivial h
  | print bytes => exact ((hsink ends.output).lineFeeds.writeAll bytes).kept rfl
  | offer bytes => exact ((hsink ends.output).lineFeeds.write bytes).kept rfl
  | flush => exact (hsink ends.output).lineFeeds.flush.kept rfl
  | printError bytes => exact ((hsink ends.error).writeAll bytes).kept rfl
  | offerError bytes => exact ((hsink ends.error).write bytes).kept rfl
  | flushError => exact (hsink ends.error).flush.kept rfl
  | readError most =>
    have hne : ends.input ≠ ends.errorInput := fun hsame => h hsame.symm
    have hsource : (Wiring.source ends.errorInput).Lockstep
        (Kept fun wiring => wiring.inlet ends.input = machine.plumbing.inlet ends.input)
        (Wiring.source ends.errorInput) :=
      Wiring.source_lockstep_self fun wiring size hinlet => by
        rw [Wiring.inlet_read, Function.update_of_ne hne, hinlet]
    exact (hsource.readSome most).kept rfl
  | _ => rfl

theorem inlet_after {calls : List Call} (h : ∀ request ∈ calls, ¬ request.Takes ends) :
    (machine.after ends.streams calls).plumbing.inlet ends.input =
      machine.plumbing.inlet ends.input := by
  induction calls generalizing machine with
  | nil => rfl
  | cons request calls ih =>
    rw [List.forall_mem_cons] at h
    rw [after_cons, ih _ h.2, machine.inlet_answer h.1]

end Machine

namespace Shell

section

variable {σ : Type} [Supply σ]

/-- What is said before something else keeps what printing keeps, if the rest does. -/
theorem kept_say_then {α : Type} {kept : σ → Prop} {sink : Sink σ}
    (h : sink.Lockstep (Kept kept) sink) (texts : List String)
    {next : Session σ → Except Fault α × Session σ}
    (hnext : ∀ later : Session σ, kept later.machine.plumbing →
      kept (next later).2.machine.plumbing)
    {session : Session σ} (hkept : kept session.machine.plumbing) :
    kept (match say sink texts session with
      | (.ok (), session) => next session
      | (.error fault, session) => (.error fault, session)).2.machine.plumbing :=
  snd_say_then (P := fun later => kept later.machine.plumbing) sink texts
    ((h.writeParts (texts.map Text.encode)).kept hkept) hnext

/-- A line keeps what printing keeps, if its command does. -/
theorem kept_runLine (shell : Shell σ) {kept : σ → Prop}
    (hterminal : shell.terminal.Lockstep (Kept kept) shell.terminal)
    (hdiagnostics : shell.diagnostics.Lockstep (Kept kept) shell.diagnostics) (line : String)
    (session : Session σ) (hkept : kept session.machine.plumbing)
    (hcommand : ∀ name args, lineCommand? line session = some (name, args) →
      kept (shell.registry.execute shell.streams shell.recorder name args
        session.machine).2.plumbing) :
    kept (shell.runLine line session).2.machine.plumbing := by
  unfold lineCommand? at hcommand
  unfold runLine
  generalize words session line = split at hcommand ⊢
  rcases split with quotation | list
  · exact kept_say_then hdiagnostics _ (fun _ => id) hkept
  · dsimp only at hcommand ⊢
    cases hline : Line.ofWords list with
    | blank => exact hkept
    | leave args => exact kept_say_then hterminal _ (fun _ => id) hkept
    | help topics => exact kept_say_then hterminal _ (fun _ => id) hkept
    | command name args =>
      rw [hline] at hcommand
      -- What the command keeps is given. A complaint that is made after it is only said.
      have hexecute := hcommand name args rfl
      dsimp only
      unfold runCommand
      generalize shell.registry.execute shell.streams shell.recorder name args session.machine =
        step at hexecute ⊢
      obtain ⟨answer, machine⟩ := step
      cases answer with
      | ok status => exact hexecute
      | error failure =>
        dsimp only
        split
        · exact kept_say_then hdiagnostics _ (fun _ => id) hexecute
        · exact hexecute

end

/-- The text of a line: what its bytes are decoded to, without one carriage return if they end with
one. -/
inductive Spells : Bytes → String → Prop
  | plain {line} : line.getLast? ≠ some 0x0D → Spells line (Text.decode line)
  | returned {line} : Spells (line ++ [0x0D]) (Text.decode line)

/-- A shell takes every line for its text, and a line has but one. -/
theorem spells_iff {line : Bytes} {text : String} : Spells line text ↔ text = typedText line := by
  constructor
  · intro h
    cases h with
    | plain hplain => rw [typedText, if_neg hplain]
    | returned => rw [typedText, if_pos List.getLast?_concat, List.dropLast_concat]
  · rintro rfl
    unfold typedText
    split_ifs with hreturned
    · obtain ⟨start, rfl⟩ := List.getLast?_eq_some_iff.1 hreturned
      rw [List.dropLast_concat]
      exact .returned
    · exact .plain hreturned

/-- No command that a session runs takes anything of what is to come where the shell reads its
lines. -/
def LeavesInput (shell : Shell Wiring) (ends : Ends) (session : Session Wiring) : Prop :=
  ∀ asked, shell.Reaches session asked →
    ∀ line typed, shell.nextLine asked = (.ok (some line), typed) →
      ∀ text, Spells line text → ∀ name args, lineCommand? text typed = some (name, args) →
        ∀ command, shell.registry.find? (Path.baseName name) = some command →
          ∀ request ∈ (command.program args).calls ends.streams typed.machine,
            ¬ request.Takes ends

/-- Commands that never ask for anything that is to come leave the input of every session alone. -/
theorem leavesInput_of_makes {shell : Shell Wiring} {ends : Ends}
    (h : ∀ name command, shell.registry.find? name = some command →
      ∀ args, (command.program args).Makes fun request => ¬ request.Takes ends)
    (session : Session Wiring) : shell.LeavesInput ends session :=
  fun _ _ _ typed _ _ _ _ args _ _ hfind =>
    (h _ _ hfind args).forall_mem_calls ends.streams typed.machine

namespace IsWired

variable {observed : Bool} {shell : Shell Wiring} (h : shell.IsWired observed)
  {session : Session Wiring}

include h

/-- A command that takes nothing of what is to come there leaves all of it, even if it crashes. -/
theorem inlet_execute (name : String) (args : List String) (machine : Machine Wiring)
    (hcalls : ∀ command, shell.registry.find? (Path.baseName name) = some command →
      ∀ request ∈ (command.program args).calls (Console.ends observed).streams machine,
        ¬ request.Takes (Console.ends observed)) :
    (shell.registry.execute shell.streams shell.recorder name args machine).2.plumbing.inlet
        (Console.ends observed).input = machine.plumbing.inlet (Console.ends observed).input := by
  cases hfind : shell.registry.find? (Path.baseName name) with
  | none => rw [Registry.execute_of_find?_eq_none hfind]
  | some command =>
    have hrun := machine.inlet_after (hcalls command hfind)
    rw [← Program.run_snd, ← h.boundTo] at hrun
    rw [Registry.execute_of_find? hfind]
    generalize (command.program args).run _ machine = step at hrun ⊢
    obtain ⟨answer, later⟩ := step
    cases answer with
    | ok status => exact hrun
    | error crash =>
      -- That it crashed is said at the session's own error channel, where no line is read.
      have hsink := Wiring.sink_lockstep_inlet .error (Console.ends observed).input
        (later.plumbing.inlet (Console.ends observed).input)
      rw [h.streams]
      exact ((hsink.writeAll Registry.crashLine).kept rfl).trans hrun

/-- A line leaves all that is to come after it, if its command does. -/
theorem unread_runLine (line : String)
    (hcalls : ∀ name args, lineCommand? line session = some (name, args) →
      ∀ command, shell.registry.find? (Path.baseName name) = some command →
        ∀ request ∈ (command.program args).calls (Console.ends observed).streams session.machine,
          ¬ request.Takes (Console.ends observed)) :
    (shell.runLine line session).2.unread (Console.ends observed).input =
      session.unread (Console.ends observed).input := by
  -- Writing reads nothing, so the shell's own output keeps the input; commands by hypothesis.
  let kept (wiring : Wiring) : Prop := wiring.inlet (Console.ends observed).input =
    session.machine.plumbing.inlet (Console.ends observed).input
  have hsink (channel : Outgoing) :
      (Wiring.sink channel).Lockstep (Kept kept) (Wiring.sink channel) :=
    Wiring.sink_lockstep_inlet channel _ _
  have hterminal : shell.terminal.Lockstep (Kept kept) shell.terminal := by
    rw [h.terminal]
    exact (hsink _).lineFeeds
  have hdiagnostics : shell.diagnostics.Lockstep (Kept kept) shell.diagnostics := by
    rw [h.diagnostics]
    exact (hsink _).lineFeeds
  have hinlet : kept (shell.runLine line session).2.machine.plumbing :=
    shell.kept_runLine hterminal hdiagnostics line session rfl fun name args hcommand =>
      h.inlet_execute name args session.machine (hcalls name args hcommand)
  exact congrArg Inlet.bytes hinlet

end IsWired

/-! ## The interpretation of an input -/

/-- How the interpretation of an input ends. -/
structure Ending where
  status : Status
  session : Session Wiring
  /-- The lines that were not come to. -/
  later : List Bytes

/-- What the lines of an input make a shell do that takes each for a text. Before each of them it
prompts. Then the line is taken from the input and its text is obeyed, and if the first word of that
is one that ends the session, the session ends with its status. After the last line there is one
more prompt, and the last status. -/
def interpret (shell : Shell Wiring) (channel : Incoming) (text : Bytes → String) :
    List Bytes → Session Wiring → Ending
  | [], session =>
    let asked := (shell.showPrompt session).2.took channel 1
    ⟨asked.status, asked, []⟩
  | line :: later, session =>
    let typed := (shell.showPrompt session).2.took channel (line.length + 1)
    let obeyed := (shell.runLine (text line) typed).2
    match leaving? (text line) typed with
    | some args => ⟨Line.exitStatus typed.status args, obeyed, later⟩
    | none => shell.interpret channel text later obeyed

namespace IsWired

variable {observed : Bool} {shell : Shell Wiring} (h : shell.IsWired observed)
  {session : Session Wiring}

include h

/-- At the end of the input a turn ends the session with the last status. -/
theorem turn_of_unread_eq_nil (hworks : session.machine.plumbing.Works (Console.ends observed))
    (hempty : session.unread (Console.ends observed).input = []) :
    let asked := (shell.showPrompt session).2.took (Console.ends observed).input 1
    shell.turn session = (.ok (.exit asked.status), asked) := by
  intro asked
  have hnext := h.nextLine_eq_took hworks
  dsimp only at hnext
  rw [hempty, if_pos rfl] at hnext
  rw [turn_eq, andThen, hnext]
  rfl

/-- A turn obeys the first of the lines that are left, and leaves the others. -/
theorem turn_of_linesOf_eq_cons (hworks : session.machine.plumbing.Works (Console.ends observed))
    (hleaves : shell.LeavesInput (Console.ends observed) session) {line : Bytes}
    {later : List Bytes}
    (hlines : Source.linesOf (session.unread (Console.ends observed).input) = line :: later) :
    let channel := (Console.ends observed).input
    let typed := (shell.showPrompt session).2.took channel (line.length + 1)
    let obeyed := (shell.runLine (typedText line) typed).2
    shell.turn session =
        (.ok (match leaving? (typedText line) typed with
          | some args => .exit (Line.exitStatus typed.status args)
          | none => .go), obeyed) ∧
      obeyed.machine.plumbing.Works (Console.ends observed) ∧
      obeyed.unread channel = (session.unread channel).drop (line.length + 1) ∧
      Source.linesOf (obeyed.unread channel) = later := by
  intro channel typed obeyed
  have hne : session.unread channel ≠ [] := fun hempty => by
    rw [Source.linesOf_eq_nil_iff.2 hempty] at hlines
    exact List.cons_ne_nil _ _ hlines.symm
  rw [Source.linesOf_of_ne_nil hne] at hlines
  obtain ⟨hline, hlater⟩ := List.cons.inj hlines
  have hnext : shell.nextLine session = (.ok (some line), typed) := by
    have hnext := h.nextLine_eq_took hworks
    dsimp only at hnext
    rwa [if_neg hne, hline] at hnext
  obtain ⟨htyped, hunread⟩ := h.showPrompt_took hworks (line.length + 1)
  -- Neither the line itself nor its command takes anything more.
  have hobeyed : obeyed.unread channel = typed.unread channel :=
    h.unread_runLine (typedText line) fun name args hcommand =>
      hleaves session .refl line typed hnext _ (spells_iff.2 rfl) name args hcommand
  refine ⟨?_, ?_, hobeyed.trans hunread, ?_⟩
  · rw [turn_eq, andThen, hnext]
    exact Prod.ext (h.runLine_fst htyped (typedText line)) rfl
  · exact (h.works_self (Console.ends observed)).keeps.runLine (typedText line) typed htyped
  · rw [hobeyed, hunread, ← hline]
    exact hlater

/-- A session on ends that work, with commands that leave its input alone, is the interpretation of
its lines. What comes after the last line that was obeyed is still to come. -/
theorem run_eq_interpret {lines : List Bytes}
    (hworks : session.machine.plumbing.Works (Console.ends observed))
    (hleaves : shell.LeavesInput (Console.ends observed) session)
    (hlines : Source.linesOf (session.unread (Console.ends observed).input) = lines) :
    let channel := (Console.ends observed).input
    let ending := shell.interpret channel typedText lines session
    shell.run session = (.ok ending.status, ending.session) ∧
      ending.session.machine.plumbing.Works (Console.ends observed) ∧
      Source.linesOf (ending.session.unread channel) = ending.later ∧
      ∃ obeyed, lines = obeyed ++ ending.later ∧
        ending.session.unread channel =
          (session.unread channel).drop (obeyed.flatMap (· ++ [Source.lineFeed])).length := by
  intro channel
  -- Line by line: every turn obeys the first of the lines that are left.
  induction lines generalizing session with
  | nil =>
    have hempty : session.unread channel = [] := Source.linesOf_eq_nil_iff.1 hlines
    have hturn := h.turn_of_unread_eq_nil hworks hempty
    obtain ⟨htyped, hunread⟩ := h.showPrompt_took hworks 1
    dsimp only at hturn hunread
    rw [hempty, List.drop_nil] at hunread
    refine ⟨?_, htyped, Source.linesOf_eq_nil_iff.2 hunread, [], rfl, ?_⟩
    · rw [run_eq, hturn]
      rfl
    · rw [hempty]
      exact hunread
  | cons line later ih =>
    obtain ⟨hturn, hobeyed, hunread, hlater⟩ := h.turn_of_linesOf_eq_cons hworks hleaves hlines
    rw [run_eq, hturn, interpret]
    cases hleaving : leaving? (typedText line)
        ((shell.showPrompt session).2.took channel (line.length + 1)) with
    | some args =>
      -- The session ends here, and the later lines are left.
      refine ⟨rfl, hobeyed, hlater, [line], rfl, ?_⟩
      simpa using hunread
    | none =>
      -- The session goes on, and comes to no turn that it would not have come to before.
      rw [hleaving] at hturn
      have hleaves' : shell.LeavesInput (Console.ends observed) _ := fun asked hreaches =>
        hleaves asked (.head hturn hreaches)
      obtain ⟨hrun, hworks', hlines', obeyed, hparts, hrest⟩ := ih hobeyed hleaves' hlater
      refine ⟨hrun, hworks', hlines', line :: obeyed, congrArg (line :: ·) hparts, ?_⟩
      rw [hrest, hunread, List.drop_drop, List.flatMap_cons, List.length_append,
        List.length_append]
      rfl

end IsWired

/-! ## How often a session prompts -/

/-- The prompts that a shell shows in a session, one for each turn. -/
def prompts {σ : Type} [Supply σ] (shell : Shell σ) (session : Session σ) : List String :=
  match _ht : shell.turn session with
  | (.ok .go, later) => shell.prompt session :: shell.prompts later
  | _ => [shell.prompt session]
termination_by remaining session
decreasing_by
  have h := shell.remaining_turn_lt session (by rw [_ht])
  rwa [_ht] at h

namespace IsWired

variable {observed : Bool} {shell : Shell Wiring} (h : shell.IsWired observed)
  {session : Session Wiring}

include h

/-- Nothing that a shell does puts anything back into its input. -/
theorem unread_lockstep_self (channel : Incoming) (n : Nat) :
    shell.Lockstep (Kept fun wiring => (wiring.inlet channel).bytes.length ≤ n) shell := by
  apply h.lockstep_self
  · intro place wiring most hle
    rw [Wiring.inlet_read]
    by_cases hsame : channel = place
    · subst hsame
      rw [Function.update_self]
      exact Nat.le_trans (Inlet.length_bytes_read_le most _) hle
    · rw [Function.update_of_ne hsame]
      exact hle
  · intro place wiring offered hle
    rw [Wiring.inlet_write]
    exact hle

/-- A line that was read is gone from the input. -/
theorem length_unread_nextLine_lt {line : Bytes}
    (hline : (shell.nextLine session).1 = .ok (some line)) :
    let channel := (Console.ends observed).input
    ((shell.nextLine session).2.unread channel).length < (session.unread channel).length := by
  intro channel
  -- The prompt takes nothing, and the line at least one byte.
  let size (wiring : Wiring) : Nat := (wiring.inlet channel).bytes.length
  have hprompt : ((shell.showPrompt session).2.unread channel).length ≤
      (session.unread channel).length :=
    (h.unread_lockstep_self channel _).keeps_showPrompt (Nat.le_refl _)
  have hread (wiring : Wiring) : (wiring.read channel 1).2.inlet channel =
      ((wiring.inlet channel).read 1).2 := by
    rw [Wiring.inlet_read, Function.update_self]
  have hlt (wiring : Wiring) (typed : Bytes)
      (htyped : ((Wiring.source channel).readLine wiring).1 = .ok (some typed)) :
      size ((Wiring.source channel).readLine wiring).2 < size wiring := by
    refine Source.readLine_lt _ size (fun wiring => ?_) (fun wiring given hgiven hne => ?_)
      htyped
    · show ((wiring.read channel 1).2.inlet channel).bytes.length ≤ _
      rw [hread]
      exact Inlet.length_bytes_read_le 1 _
    · show ((wiring.read channel 1).2.inlet channel).bytes.length < _
      rw [hread]
      exact Inlet.length_bytes_read_lt (by rwa [← Wiring.read_fst]) hne
  unfold nextLine at hline ⊢
  generalize shell.showPrompt session = step at hprompt hline ⊢
  obtain ⟨answer, asked⟩ := step
  cases answer with
  | error fault => simp at hline
  | ok _ =>
    dsimp only at hline ⊢
    rw [h.lines] at hline ⊢
    exact Nat.lt_of_lt_of_le (hlt asked.machine.plumbing line hline) hprompt

/-- A turn after which the session goes on leaves less of the input. -/
theorem length_unread_turn_lt {later : Session Wiring}
    (hturn : shell.turn session = (.ok .go, later)) :
    let channel := (Console.ends observed).input
    (later.unread channel).length < (session.unread channel).length := by
  intro channel
  have hline (line : Bytes) (hanswer : (shell.nextLine session).1 = .ok (some line)) :=
    h.length_unread_nextLine_lt hanswer
  rw [turn_eq, andThen] at hturn
  generalize shell.nextLine session = step at hturn hline
  obtain ⟨answer, typed⟩ := step
  -- After a fault, and at the end of the lines, the session does not go on.
  rcases answer with fault | _ | line
  · simp at hturn
  · simp [obey] at hturn
  · have hobeyed := (h.unread_lockstep_self channel _).keeps.runLine (typedText line) typed
      (Nat.le_refl _)
    have hrunLine : shell.runLine (typedText line) typed = (.ok .go, later) := hturn
    rw [hrunLine] at hobeyed
    exact Nat.lt_of_le_of_lt hobeyed (hline line rfl)

/-- A session prompts at most once for every byte that is to come, and once more. -/
theorem length_prompts_le (session : Session Wiring) :
    (shell.prompts session).length ≤
      (session.unread (Console.ends observed).input).length + 1 := by
  fun_induction shell.prompts session with
  | case1 session later hturn ih =>
    have hlt := h.length_unread_turn_lt hturn
    rw [List.length_cons]
    exact Nat.succ_le_succ (Nat.le_trans ih hlt)
  | case2 session hstop => exact Nat.succ_le_succ (Nat.zero_le _)

end IsWired

/-! ## Whole sessions -/

/-- A session of a shell on a wiring is the interpretation of its input, line by line, each line
taken for the text that its bytes spell. Where the ends work and no command takes anything of the
input, it ends with the status and in the state of the interpretation. The lines that this did not
come to are left, byte by byte, and on ends that work: another session goes on with them. On such
ends every prompt on the way gets through, and nothing else changes with it. On all ends, and with
all commands, a session prompts at most once for every byte of its input, and once more. -/
theorem interprets_input {shell : Shell Wiring} {observed : Bool} (h : shell.IsWired observed) :
    let ends := Console.ends observed
    (∀ text : Bytes → String, (∀ line, Spells line (text line)) →
      ∀ session : Session Wiring, session.machine.plumbing.Works ends →
        shell.LeavesInput ends session →
        let lines := Source.linesOf (session.unread ends.input)
        let ending := shell.interpret ends.input text lines session
        shell.run session = (.ok ending.status, ending.session) ∧
          ending.session.machine.plumbing.Works ends ∧
          Source.linesOf (ending.session.unread ends.input) = ending.later ∧
          ∃ obeyed, lines = obeyed ++ ending.later ∧
            ending.session.unread ends.input =
              (session.unread ends.input).drop
                (obeyed.flatMap (· ++ [Source.lineFeed])).length) ∧
    (∀ session : Session Wiring, session.machine.plumbing.Works ends →
      ∀ asked, shell.Reaches session asked →
        ∃ plumbing, shell.showPrompt asked = (.ok (), asked.on plumbing) ∧
          plumbing.ledger = asked.machine.plumbing.ledger.after ends.output
            (Sink.translated (Text.encode (shell.prompt asked)))) ∧
    ∀ session : Session Wiring,
      (shell.prompts session).length ≤ (session.unread ends.input).length + 1 := by
  intro ends
  refine ⟨fun text htext session hworks hleaves => ?_, fun session hworks asked hreaches => ?_,
    h.length_prompts_le⟩
  · obtain rfl : text = typedText := funext fun line => spells_iff.1 (htext line)
    exact h.run_eq_interpret hworks hleaves rfl
  · -- The ends work at every prompt, as nothing that the shell did before has broken them.
    have hasked := (h.works_self ends).keeps_of_reaches hreaches hworks
    obtain ⟨plumbing, hprompt, -, hledger⟩ := h.showPrompt_eq hasked
    exact ⟨plumbing, hprompt, hledger⟩

/-- The shell of a machine with one command. -/
def echoing : Shell Wiring :=
  ⟨.ofList [("echo", Userland.echo)], Wiring.streams, none, "decoy", "root", "/"⟩

/-- Lines that are disturbed on their way, with one after the end of the session. -/
def disturbedLines : Wiring where
  input := .fault .interrupted :: ((Text.encode "echo one\r\nexit 3\n").map .byte ++
    .fault .interrupted :: (Text.encode "echo two").map .byte)

/-- The session ends at the second line, with its status, and the third one is left. -/
theorem run_disturbedLines :
    let session : Session Wiring := ⟨⟨.bare, disturbedLines, []⟩, 0⟩
    echoing.IsWired false ∧ disturbedLines.Works .own ∧ echoing.LeavesInput .own session ∧
      ∃ later, echoing.run session = (.ok 3, later) ∧
        Source.linesOf (later.unread .input) = [Text.encode "echo two"] := by
  intro session
  have hwired : echoing.IsWired false := ⟨rfl, rfl⟩
  have hworks : disturbedLines.Works .own := by
    constructor
    · simp [Inlet.IsPatient, Wiring.inlet, disturbedLines, Ends.own]
    · rintro channel (rfl | rfl)
      · exact ⟨⟨by simp [Wiring.outlet, disturbedLines, Ends.own], rfl, rfl⟩, rfl⟩
      · exact ⟨⟨by simp [Wiring.outlet, disturbedLines, Ends.own], rfl, rfl⟩, rfl⟩
  have hleaves : echoing.LeavesInput .own session := by
    refine leavesInput_of_makes (fun name command hfind args => ?_) session
    have hecho : ("echo", Userland.echo) = (name, command) := by
      have hmem := (Dictionary.mem_of_find?_insertAll hfind).resolve_right (by simp)
      exact (List.mem_singleton.1 hmem).symm
    obtain ⟨rfl, rfl⟩ := Prod.mk.inj hecho
    exact Userland.makes_echo (fun _ => id) args
  obtain ⟨hrun, -, hlines, -⟩ := (interprets_input hwired).1 typedText (fun _ => spells_iff.2 rfl)
    session hworks hleaves
  let lines := Source.linesOf (session.unread .input)
  have hending : (echoing.interpret .input typedText lines session).status = 3 ∧
      (echoing.interpret .input typedText lines session).later = [Text.encode "echo two"] := by
    decide +kernel
  refine ⟨hwired, hworks, hleaves, _, ?_, hlines.trans hending.2⟩
  rw [← hending.1]
  exact hrun

end Shell

end Honeypot
