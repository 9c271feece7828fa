import Honeypot.Process.Registry
import Honeypot.Shell.Expansion

/-!
# Shells

What a shell is made of, and what it shows: its prompt, its help, its diagnostics.

* `Shell`: the fixed parts of a shell; `Session` is what changes while it runs.
* `Shell.terminal`, `Shell.diagnostics`, `Shell.lines`: where the shell prints and reads, which is
  the recorder if there is one and the session's own streams otherwise.
* `Shell.prompt`, `Shell.helpText`: the texts it prints.

## References

- [SPEC] `SPEC_FULL.md`: §7, Error Handling; §10, Supplementary Features
-/

namespace Honeypot

variable {σ : Type} [Supply σ]

/-- The fixed parts of a shell. -/
structure Shell (σ : Type) [Supply σ] where
  registry : Registry
  /-- The session's own streams. -/
  streams : Streams σ
  /-- The observer to which all traffic goes instead, if there is one. -/
  recorder : Option (Duplex σ)
  hostname : String
  user : String
  /-- The directory that the prompt abbreviates. -/
  home : String

/-- What changes while a shell runs. -/
structure Session (σ : Type) where
  machine : Machine σ
  /-- The status of the last command. -/
  status : Status := 0

namespace Session

/-- The session after an action of a stream. -/
def stream {α : Type} (session : Session σ) (action : σ → α × σ) : α × Session σ :=
  let step := session.machine.stream action
  (step.1, { session with machine := step.2 })

/-- The session with another last status. -/
def ended (session : Session σ) (status : Status) : Session σ := { session with status }

end Session

namespace Shell

/-- A shell for a process, whose home is the directory that the process is in. -/
def ofProcess (registry : Registry) (streams : Streams σ) (recorder : Option (Duplex σ))
    (hostname user : String) (process : Process) : Shell σ :=
  ⟨registry, streams, recorder, hostname, user, process.directory⟩

/-- Where the shell prints. -/
def terminal (shell : Shell σ) : Sink σ :=
  match shell.recorder with
  | some recorder => recorder.sink.lineFeeds
  | none => shell.streams.output.lineFeeds

/-- Where the shell prints its diagnostics. -/
def diagnostics (shell : Shell σ) : Sink σ :=
  match shell.recorder with
  | some recorder => recorder.sink.lineFeeds
  | none => shell.streams.error.sink.lineFeeds

/-- Where the shell reads its lines. -/
def lines (shell : Shell σ) : Source σ :=
  match shell.recorder with
  | some recorder => recorder.source
  | none => shell.streams.input

/-- What is left of a text after another one with which it begins. -/
def after? (start text : List Char) : Option (List Char) :=
  if start.isPrefixOf text then some (text.drop start.length) else none

/-- A directory as the prompt shows it: `~` stands for the home directory at its beginning. -/
def abbreviated (home directory : String) : String :=
  if directory = home then "~"
  else match after? home.toList directory.toList with
    | some ('/' :: rest) => "~/" ++ String.ofList rest
    | _ => directory

/-- The sign that ends a prompt. -/
def sigil (user : String) : String :=
  if user = "root" then "#" else "$"

/-- The prompt in a working directory. -/
def promptIn (shell : Shell σ) (directory : String) : String :=
  shell.user ++ "@" ++ shell.hostname ++ ":" ++ abbreviated shell.home directory ++
    sigil shell.user ++ " "

/-- The prompt of a session. -/
def prompt (shell : Shell σ) (session : Session σ) : String :=
  shell.promptIn session.machine.process.directory

/-- What a help text says that its command is for: the second line, if it has one. -/
def summary (help : String) : String :=
  String.ofList (Text.trim ((Text.lines help.toList)[1]?.getD []))

/-- A text with blanks after it up to a width. -/
def padded (width : Nat) (text : String) : String :=
  text ++ String.ofList (List.replicate (width - text.length) ' ')

/-- The line of a command in the listing of all commands. -/
def helpEntry (registry : Registry) (name : String) : String :=
  let help := (registry.find? name).elim "" Command.help
  padded 10 name ++ " " ++ summary help ++ "\n"

/-- What help says about a topic. -/
def helpTopic (registry : Registry) (topic : String) : String :=
  match registry.find? topic with
  | some command => command.help ++ "\n  Location: " ++ command.location ++ "\n"
  | none => "-bash: help: no help topics match \x60" ++ topic ++ "\x27.\n"

/-- What help says, and its status: all commands when there are no topics. -/
def helpText (registry : Registry) (topics : List String) : String × Status :=
  if topics.isEmpty then (String.join (registry.names.map (helpEntry registry)), 0)
  else
    (String.join (topics.map (helpTopic registry)),
      if topics.all fun topic => (registry.find? topic).isSome then 0 else 1)

end Shell

end Honeypot
