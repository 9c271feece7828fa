import Honeypot.Proofs.Process.Delivery
import Honeypot.Proofs.Process.Registry
import Honeypot.Proofs.Shell.Accord
import Honeypot.Proofs.Text.Split
import Mathlib.Data.List.DropRight
import Mathlib.Data.List.TakeWhile

/-!
# The listing of all commands

What a shell shows of its registry is the last registration of every name, in the order of the
names: the listing of all commands has an entry for each of them, with the second line of its help
text. The order in which different names were registered does not show anywhere.

* `Text.IsTrimmed`, `Text.secondLine`, `Text.trim_lines`: the second line of a text without the
  blanks at its ends, which is the same whatever ends the line.
* `Shell.IsEntry`, `Shell.forall₂_helpEntry`: an entry for every name.
* `Shell.run_congr`: a session is the same with any registry that finds the same commands.
* `Registry.Interchangeable`: registries that nobody can tell from each other.
* `Registry.shows_latest`: all that is shown of registrations.

## References

- [SPEC] `SPEC_FULL.md`: §4.1, Command Registry; §10, Supplementary Features
-/

namespace Honeypot

namespace Text

/-! ## Blanks at the ends of a text -/

/-- Whether a text is what is left of another one without the blanks at its two ends. -/
structure IsTrimmed (text core : List Char) : Prop where
  surrounded : ∃ before after, text = before ++ core ++ after ∧
    (∀ c ∈ before, isBlank c = true) ∧ ∀ c ∈ after, isBlank c = true
  head : ∀ c ∈ core.head?, isBlank c = false
  last : ∀ c ∈ core.getLast?, isBlank c = false

theorem isTrimmed_trim (text : List Char) : IsTrimmed text (trim text) where
  surrounded := by
    refine ⟨text.takeWhile isBlank, (text.dropWhile isBlank).rtakeWhile isBlank, ?_, ?_, ?_⟩
    · have hcore : trim text ++ (text.dropWhile isBlank).rtakeWhile isBlank =
          text.dropWhile isBlank := List.rdropWhile_append_rtakeWhile
      rw [List.append_assoc, hcore, List.takeWhile_append_dropWhile]
    · exact fun c => List.mem_takeWhile_imp
    · exact fun c => List.mem_rtakeWhile_imp
  head c hc := by
    -- The core begins with what comes after the blanks.
    obtain ⟨rest, hrest⟩ : trim text <+: text.dropWhile isBlank := List.rdropWhile_prefix _ _
    have hhead : (text.dropWhile isBlank).head? = some c := by
      rw [← hrest, List.head?_append, hc, Option.some_or]
    have hnot := List.head?_dropWhile_not isBlank text
    rwa [hhead] at hnot
  last c hc := by
    obtain ⟨hne, rfl⟩ := List.mem_getLast?_eq_getLast hc
    exact Bool.eq_false_iff.2
      (List.rdropWhile_last_not isBlank (text.dropWhile isBlank) hne)

/-- A blank at the end of a text is trimmed. -/
theorem trim_append_blank {c : Char} (hc : isBlank c = true) (text : List Char) :
    trim (text ++ [c]) = trim text := by
  have htrim (chars : List Char) : trim chars = (chars.dropWhile isBlank).rdropWhile isBlank := rfl
  rw [htrim, htrim, List.dropWhile_append]
  split
  · next h =>
    rw [List.isEmpty_iff.1 h, List.dropWhile_cons_of_pos hc]
    rfl
  · exact List.rdropWhile_concat_pos _ _ _ hc

theorem trim_dropReturn (line : List Char) : trim (dropReturn line) = trim line := by
  unfold dropReturn
  split
  · next h =>
    conv_rhs => rw [← List.dropLast_append_getLast? _ h]
    exact (trim_append_blank (by decide) _).symm
  · rfl

/-- The second line of a text, if it has one. -/
def secondLine (text : List Char) : List Char :=
  (pieces '\n' text)[1]?.getD []

/-- What ends the second line does not show without the blanks at its ends, and an empty last line
has none. -/
theorem trim_lines (text : List Char) :
    trim ((lines text)[1]?.getD []) = trim (secondLine text) := by
  unfold lines secondLine
  rcases pieces '\n' text with _ | ⟨first, _ | ⟨second, _ | ⟨third, more⟩⟩⟩
  · rfl
  · cases first with
    | nil => rfl
    | cons c first => rfl
  · cases second with
    | nil => rfl
    | cons c second => rfl
  · -- There are later lines, so a line feed ends the second one.
    dsimp only
    split <;> exact trim_dropReturn second

end Text

/-! ## Entries -/

namespace Shell

variable {registry : Registry} {name : String} {command : Command}

/-- Whether a text is what the listing of all commands says about one of them: its name in ten
columns, and the second line of its help text. -/
def IsEntry (name : String) (command : Command) (entry : String) : Prop :=
  ∃ core, Text.IsTrimmed (Text.secondLine command.help.toList) core ∧
    entry = name ++ String.ofList (List.replicate (10 - name.length) ' ') ++ " " ++
      String.ofList core ++ "\n"

theorem isEntry_helpEntry (h : registry.find? name = some command) :
    IsEntry name command (helpEntry registry name) := by
  refine ⟨_, Text.isTrimmed_trim (Text.secondLine command.help.toList), ?_⟩
  rw [helpEntry, h, ← Text.trim_lines]
  rfl

/-- The listing of all commands has an entry for every name, in the order of the names. -/
theorem forall₂_helpEntry (registry : Registry) :
    List.Forall₂
      (fun name entry => ∃ command, registry.find? name = some command ∧
        IsEntry name command entry)
      registry.names (registry.names.map (helpEntry registry)) := by
  rw [List.forall₂_map_right_iff, List.forall₂_same]
  intro name hname
  obtain ⟨command, hcommand⟩ := Registry.mem_names_iff.1 hname
  exact ⟨command, hcommand, isEntry_helpEntry hcommand⟩

variable {σ : Type} [Supply σ]

/-- Where nothing that is shown gets lost, a line that asks for help without topics shows the
listing of all commands, and comes to the status 0. -/
theorem exists_runLine_help {shell : Shell σ} {screen : Destination σ}
    (hterminal : shell.terminal.Meets screen.working screen.received Intake.all.lineFeeds)
    {line : String} {session : Session σ} (hwords : words session line = .ok ["help"])
    (hworking : screen.working session.machine.plumbing) :
    ∃ later, shell.runLine line session =
        (.ok .go, ⟨{ session.machine with plumbing := later }, 0⟩) ∧
      screen.working later ∧
      screen.received later = screen.received session.machine.plumbing ++
        Sink.translated (Text.encode (helpText shell.registry []).1) := by
  have hline : shell.runLine line session = shell.runHelp [] session := by
    rw [runLine, hwords]
    rfl
  obtain ⟨hanswer, hlater, hreceived⟩ :=
    hterminal.writeParts [Text.encode (helpText shell.registry []).1] session.machine.plumbing _
      ⟨hworking, rfl⟩
  rw [List.flatten_singleton] at hanswer hreceived
  refine ⟨_, ?_, hlater, hreceived⟩
  rw [hline, runHelp, say, Session.stream, Machine.stream]
  simp only [List.map_cons, List.map_nil, hanswer]
  rfl

/-! ## Registries that find the same commands -/

variable {one other : Registry}

/-- Help says the same if the same commands are found. -/
theorem helpText_congr (h : ∀ name, one.find? name = other.find? name) (topics : List String) :
    helpText one topics = helpText other topics := by
  have hentry : helpEntry one = helpEntry other := by
    funext name
    rw [helpEntry, h]
    rfl
  have htopic : helpTopic one = helpTopic other := by
    funext topic
    rw [helpTopic, h]
    rfl
  simp only [helpText, hentry, htopic, Registry.names_congr h, h]

theorem runLine_congr (h : ∀ name, one.find? name = other.find? name) (shell : Shell σ)
    (line : String) (session : Session σ) :
    ({ shell with registry := one } : Shell σ).runLine line session =
      ({ shell with registry := other } : Shell σ).runLine line session := by
  unfold runLine
  split
  · rfl
  · split
    · rfl
    · rfl
    · unfold runHelp
      rw [helpText_congr h]
      rfl
    · unfold runCommand
      rw [Registry.execute_congr h]
      rfl

theorem turn_congr (h : ∀ name, one.find? name = other.find? name) (shell : Shell σ)
    (session : Session σ) :
    ({ shell with registry := one } : Shell σ).turn session =
      ({ shell with registry := other } : Shell σ).turn session := by
  have hnext : ({ shell with registry := one } : Shell σ).nextLine =
      ({ shell with registry := other } : Shell σ).nextLine := rfl
  unfold turn
  rw [hnext]
  simp only [runLine_congr h]

/-- A session is the same with any registry in which the same commands are found. -/
theorem run_congr (h : ∀ name, one.find? name = other.find? name) (shell : Shell σ)
    (session : Session σ) :
    ({ shell with registry := one } : Shell σ).run session =
      ({ shell with registry := other } : Shell σ).run session := by
  -- Every turn after which the session goes on uses something up.
  induction hleft : remaining session using Nat.strongRecOn generalizing session with
  | _ left ih =>
    subst hleft
    have hlt := ({ shell with registry := other } : Shell σ).remaining_turn_lt session
    rw [run_eq, run_eq, turn_congr h]
    rcases hturn : ({ shell with registry := other } : Shell σ).turn session with
      ⟨_ | _ | status, later⟩
    · rfl
    · rw [hturn] at hlt
      exact ih _ (hlt rfl) later rfl
    · rfl

end Shell

namespace Registry

variable {σ : Type} [Supply σ]

/-- Whether nobody can tell two registries from each other: neither by what they say of themselves,
nor by the help on any topics, nor by a call, nor by a session. -/
structure Interchangeable (one other : Registry) : Prop where
  find? : ∀ name, one.find? name = other.find? name
  names : one.names = other.names
  size : one.size = other.size
  description : one.description = other.description
  helpText : ∀ topics, Shell.helpText one topics = Shell.helpText other topics
  execute : ∀ {σ : Type} [Supply σ] (streams : Streams σ) (observer : Option (Duplex σ))
    (path : String) (args : List String) (machine : Machine σ),
    one.execute streams observer path args machine =
      other.execute streams observer path args machine
  run : ∀ {σ : Type} [Supply σ] (shell : Shell σ) (session : Session σ),
    ({ shell with registry := one } : Shell σ).run session =
      ({ shell with registry := other } : Shell σ).run session

/-- Registries that find the same commands can take each other's place. -/
theorem interchangeable_of_find? {one other : Registry}
    (h : ∀ name, one.find? name = other.find? name) : one.Interchangeable other where
  find? := h
  names := names_congr h
  size := by rw [← length_names, ← length_names, names_congr h]
  description := description_congr (names_congr h)
  helpText := Shell.helpText_congr h
  execute := execute_congr h
  run := Shell.run_congr h

/-- A registry finds the command that was last registered under just the name, and none under a name
that nothing was registered under. Its names ascend, they are those that something was registered
under, and its size is their number. It could as well be the registry of the same registrations with
two neighbours of different names exchanged. Help without topics has one entry for every name, in
the order of the names, which is made from the second line of what the command that is found says of
itself, and this is what a line that asks for it shows. -/
theorem shows_latest (registrations : List (String × Command)) :
    let registry := ofList registrations
    (∀ name command, registry.find? name = some command ↔
      Entries.IsLatest registrations name command) ∧
    (∀ name, registry.find? name = none ↔ ∀ entry ∈ registrations, entry.1 ≠ name) ∧
    (registry.names.Pairwise Text.Precedes ∧
      (∀ name, name ∈ registry.names ↔ ∃ entry ∈ registrations, entry.1 = name) ∧
      registry.size = registry.names.length) ∧
    (∀ before first second after, registrations = before ++ first :: second :: after →
      first.1 ≠ second.1 →
      registry.Interchangeable (ofList (before ++ second :: first :: after))) ∧
    ∃ entries, Shell.helpText registry [] = (String.join entries, 0) ∧
      List.Forall₂
        (fun name entry => ∃ command, registry.find? name = some command ∧
          Shell.IsEntry name command entry)
        registry.names entries ∧
      ∀ {σ : Type} [Supply σ] (shell : Shell σ) (screen : Destination σ) (line : String)
        (session : Session σ), shell.registry = registry →
        shell.terminal.Meets screen.working screen.received Intake.all.lineFeeds →
        Shell.words session line = .ok ["help"] → screen.working session.machine.plumbing →
        ∃ later, shell.runLine line session =
            (.ok .go, ⟨{ session.machine with plumbing := later }, 0⟩) ∧
          screen.received later = screen.received session.machine.plumbing ++
            Sink.translated (Text.encode (String.join entries)) := by
  intro registry
  have hlatest (name : String) (command : Command) : registry.find? name = some command ↔
      Entries.IsLatest registrations name command := Dictionary.find?_ofList_eq_some_iff
  refine ⟨hlatest, fun name => Dictionary.find?_ofList_eq_none_iff,
    ⟨registry.pairwise_names, ?_, registry.length_names.symm⟩, ?_,
    registry.names.map (Shell.helpEntry registry), rfl, Shell.forall₂_helpEntry registry, ?_⟩
  · intro name
    simp only [mem_names_iff, hlatest, Entries.exists_isLatest_iff]
  · -- Two names next to each other may change places, as each finds its own registration.
    rintro before first second after hregistrations hne
    have hswap := Dictionary.find?_ofList_swap hne before after
    rw [← hregistrations] at hswap
    exact interchangeable_of_find? hswap
  · rintro σ _ shell screen line session hregistry hterminal hwords hworking
    obtain ⟨later, hrun, -, hreceived⟩ :=
      Shell.exists_runLine_help hterminal hwords hworking
    rw [hregistry] at hreceived
    exact ⟨later, hrun, hreceived⟩

/-- A command that does nothing, with a text about itself. -/
def idle (help : String) : Command where
  help := help
  program _ := pure 0

/-- Registrations under no name at all, under a name and what it begins with, and under one name
twice. -/
def nested : List (String × Command) :=
  [("ls", idle "ls\n  first"), ("", idle "alone"), ("l", idle "l\r\n\t short \r\n more"),
    ("ls", idle "ls\n second\n")]

theorem shows_latest_of_nested :
    let shell : Shell Wiring := ⟨ofList nested, Wiring.streams, none, "svr04", "root", "/"⟩
    let wiring : Wiring := { output := { script := [.accept 3, .fail .interrupted] } }
    let session : Session Wiring :=
      ⟨⟨⟨"console", "/", ∅, .ofStore .empty, ⟨80, 24⟩, .insertion⟩, wiring, []⟩, 1⟩
    ((ofList nested).find? "ls").map Command.help = some "ls\n second\n" ∧
      (ofList nested).find? "LS" = none ∧
      (ofList nested).names = ["", "l", "ls"] ∧
      (ofList nested).Interchangeable
        (ofList [("ls", idle "ls\n  first"), ("l", idle "l\r\n\t short \r\n more"),
          ("", idle "alone"), ("ls", idle "ls\n second\n")]) ∧
      (shell.runLine "'help'" session).2.machine.plumbing.written .output =
        Text.encode "           \r\nl          short\r\nls         second\r\n" := by
  intro shell wiring session
  obtain ⟨hlatest, hnone, ⟨hascending, hmem, -⟩, hswap, entries, hhelp, -, hshows⟩ :=
    shows_latest nested
  have hls : (ofList nested).find? "ls" = some (idle "ls\n second\n") :=
    (hlatest "ls" _).2 ⟨nested.dropLast, [], rfl, by simp⟩
  have hworking : (Wiring.destination .output).working session.machine.plumbing :=
    ⟨⟨by simp [Wiring.outlet, session, wiring, Reaction.IsPatient], rfl, rfl⟩, rfl⟩
  have hwords : Shell.words session "'help'" = .ok ["help"] := by
    decide +kernel
  obtain ⟨later, hrun, hreceived⟩ := hshows shell (Wiring.destination .output) "'help'" session rfl
    Wiring.delivers.output.lineFeeds hwords hworking
  have hnames : (ofList nested).names = ["", "l", "ls"] := by
    have hsame : (∀ name ∈ nested.map Prod.fst, name ∈ ["", "l", "ls"]) ∧
        ∀ name ∈ ["", "l", "ls"], name ∈ nested.map Prod.fst := by decide
    refine Text.eq_of_pairwise_precedes hascending (by decide) fun name => ?_
    rw [hmem, ← List.mem_map]
    exact ⟨hsame.1 name, hsame.2 name⟩
  refine ⟨by rw [hls]; rfl, (hnone "LS").2 (by decide), hnames,
    hswap [("ls", idle "ls\n  first")] _ _ _ rfl (by decide), ?_⟩
  rw [hrun]
  refine hreceived.trans ?_
  have hjoin : String.join entries =
      String.join ((ofList nested).names.map (Shell.helpEntry (ofList nested))) :=
    (congrArg Prod.fst hhelp).symm
  rw [hjoin, hnames]
  decide +kernel

end Registry

end Honeypot
