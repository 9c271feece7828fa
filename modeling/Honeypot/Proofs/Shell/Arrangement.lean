import Honeypot.Proofs.Process.Arrangement
import Honeypot.Proofs.Shell.Accord
import Honeypot.Proofs.Shell.Variables
import Honeypot.Proofs.Userland

/-!
# Sessions and the order of the environment

A session of orderly commands goes the same way under all orders in which its environment may be
listed, if that tells the commands nothing new. For the session that settings give this means: as
long as no name in its settings passes for `HOME` or `USER`.

* `Session.Relisted`: a session, and the same one with its environment listed in another order.
* `Shell.run_relisted`, `Shell.reaches_relisted`: whole sessions go alike.
* `Process.Matches`: processes that differ at most in the order of their environments.
* `Console.run_of_process`: sessions of the same settings, each under an order of its own.
-/

namespace Honeypot

variable {σ α : Type}

/-- The session with its environment listed in another order. -/
def Session.relisted (session : Session σ) (order : Arrangement) : Session σ :=
  { session with machine := session.machine.relisted order }

/-- A session, and the same one with its environment listed in an order that tells commands nothing
new. -/
structure Session.Relisted (order : Arrangement) (one other : Session σ) : Prop where
  mayList : one.machine.process.MayList order
  eq : other = one.relisted order

namespace Shell

/-! ## What a shell does, step by step -/

section Steps

variable {order : Arrangement}

/-- What streams do has nothing to do with the environment. -/
theorem stream_relisted (action : σ → α × σ) :
    Alike (Session.Relisted order) (fun session => session.stream action)
      (fun session => session.stream action) := by
  rintro session _ ⟨hmayList, rfl⟩
  exact ⟨rfl, hmayList, rfl⟩

theorem ended_relisted (answer : α) (status : Status) :
    Alike (Session.Relisted order) (fun session : Session σ => (answer, session.ended status))
      (fun session => (answer, session.ended status)) := by
  rintro session _ ⟨hmayList, rfl⟩
  exact ⟨rfl, hmayList, rfl⟩

variable [Supply σ]

/-- What is said before something else goes alike if the rest does. -/
theorem say_then_relisted (sink : Sink σ) (texts : List String)
    {next : Session σ → Except Fault α × Session σ}
    (hnext : Alike (Session.Relisted order) next next) :
    Alike (Session.Relisted order) (andThen (say sink texts) fun _ => next)
      (andThen (say sink texts) fun _ => next) :=
  (stream_relisted _).andThen fun _ => hnext

variable {shell : Shell σ}

/-- A complaint, a help text and a goodbye are said before the rest is done. -/
theorem runUnterminated_eq (quotation : Unterminated) :
    shell.runUnterminated quotation =
      andThen (say shell.diagnostics ("-bash: " :: quotation.parts ++ ["\n"])) fun _ session =>
        (.ok .go, session.ended 2) :=
  say_then_eq _ _ _

theorem runHelp_eq (topics : List String) :
    shell.runHelp topics =
      andThen (say shell.terminal [(helpText shell.registry topics).1]) fun _ session =>
        (.ok .go, session.ended (helpText shell.registry topics).2) :=
  say_then_eq _ _ _

theorem runExit_eq (args : List String) :
    shell.runExit args =
      andThen (say shell.terminal ["logout\n"]) fun _ session =>
        (.ok (.exit (Line.exitStatus session.status args)), session) :=
  say_then_eq _ _ _

theorem showPrompt_relisted :
    Alike (Session.Relisted order) shell.showPrompt shell.showPrompt := by
  rintro session _ ⟨hmayList, rfl⟩
  have hshown := say_then_relisted shell.terminal [shell.prompt session]
    (stream_relisted shell.terminal.flush) session _ ⟨hmayList, rfl⟩
  rw [← say_then_eq] at hshown
  exact hshown

theorem nextLine_relisted : Alike (Session.Relisted order) shell.nextLine shell.nextLine := by
  rw [nextLine_eq]
  exact showPrompt_relisted.andThen fun _ => stream_relisted _

variable (h : shell.registry.IsOrderly)

include h

theorem runCommand_relisted (name : String) (args : List String) :
    Alike (Session.Relisted order) (shell.runCommand name args) (shell.runCommand name args) := by
  rintro session _ ⟨hmayList, rfl⟩
  have hexecute := h.execute_relisted order shell.streams shell.recorder name args
    session.machine _ ⟨hmayList, rfl⟩
  unfold runCommand Session.relisted
  dsimp only
  -- Of the two runs of the command only this is needed: they come to one answer.
  generalize shell.registry.execute _ _ name args session.machine = step at hexecute ⊢
  generalize shell.registry.execute _ _ name args (session.machine.relisted order) = step'
    at hexecute ⊢
  obtain ⟨answer, machine⟩ := step
  obtain ⟨answer', machine'⟩ := step'
  obtain ⟨rfl, hlater, rfl⟩ : answer = answer' ∧ machine.Relisted order machine' := hexecute
  cases answer with
  | ok status => exact ⟨rfl, hlater, rfl⟩
  | error failure =>
    dsimp only
    by_cases hmissing : failure.isNotFound = true
    · rw [if_pos hmissing, if_pos hmissing]
      have hsaid := say_then_relisted shell.diagnostics ["-bash: ", name, ": command not found\n"]
        (ended_relisted (.ok Flow.go) failure.status) { session with machine } _ ⟨hlater, rfl⟩
      rw [← say_then_eq] at hsaid
      exact hsaid
    · rw [if_neg hmissing, if_neg hmissing]
      exact ⟨rfl, hlater, rfl⟩

/-- What a line says is done alike. The shell finds its variables in the environment itself. -/
theorem runLine_relisted (line : String) :
    Alike (Session.Relisted order) (shell.runLine line) (shell.runLine line) := by
  rintro session _ ⟨hmayList, rfl⟩
  have hrelisted : session.Relisted order (session.relisted order) := ⟨hmayList, rfl⟩
  have hwords : words (session.relisted order) line = words session line := rfl
  unfold runLine
  rw [hwords]
  cases words session line with
  | error quotation =>
    dsimp only
    rw [runUnterminated_eq]
    exact say_then_relisted _ _ (ended_relisted _ _) session _ hrelisted
  | ok list =>
    dsimp only
    cases Line.ofWords list with
    | blank => exact ⟨rfl, hrelisted⟩
    | leave args =>
      dsimp only
      rw [runExit_eq]
      refine say_then_relisted _ _ ?_ session _ hrelisted
      rintro later _ ⟨hlater, rfl⟩
      exact ⟨rfl, hlater, rfl⟩
    | help topics =>
      dsimp only
      rw [runHelp_eq]
      exact say_then_relisted _ _ (ended_relisted _ _) session _ hrelisted
    | command name args => exact runCommand_relisted h name args session _ hrelisted

theorem turn_relisted : Alike (Session.Relisted order) shell.turn shell.turn := by
  rw [turn_eq]
  refine nextLine_relisted.andThen fun line => ?_
  cases line with
  | none =>
    rintro later _ ⟨hlater, rfl⟩
    exact ⟨rfl, hlater, rfl⟩
  | some line => exact runLine_relisted h (typedText line)

/-! ## Whole sessions -/

/-- Sessions of orderly commands go alike under all orders that tell them nothing new. -/
theorem run_relisted : Alike (Session.Relisted order) shell.run shell.run := by
  intro session session' hrelisted
  -- Turn by turn: both sessions end, or both go on.
  induction session using Shell.run.induct shell generalizing session' with
  | case1 session fault later hturn =>
    obtain ⟨later', hturn', hlater⟩ := (turn_relisted h).of_eq hrelisted hturn
    rw [run_eq, run_eq, hturn, hturn']
    exact ⟨rfl, hlater⟩
  | case2 session later status hturn =>
    obtain ⟨later', hturn', hlater⟩ := (turn_relisted h).of_eq hrelisted hturn
    rw [run_eq, run_eq, hturn, hturn']
    exact ⟨rfl, hlater⟩
  | case3 session later hturn ih =>
    obtain ⟨later', hturn', hlater⟩ := (turn_relisted h).of_eq hrelisted hturn
    rw [run_eq, run_eq, hturn, hturn']
    exact ih later' hlater

/-- What a session comes to, it comes to under all orders that tell it nothing new. -/
theorem reaches_relisted {session later session' : Session σ}
    (hrelisted : session.Relisted order session') (hreaches : shell.Reaches session later) :
    ∃ later', shell.Reaches session' later' ∧ later.Relisted order later' := by
  induction hreaches with
  | refl => exact ⟨session', .refl, hrelisted⟩
  | tail _ hgoes ih =>
    obtain ⟨middle', hmiddle', hrelisted'⟩ := ih
    obtain ⟨later', hturn', hlater⟩ := (turn_relisted h).of_eq hrelisted' hgoes
    exact ⟨later', hmiddle'.tail hturn', hlater⟩

end Steps

end Shell

/-! ## Sessions of the same settings -/

/-- Processes that differ at most in the order in which their environments are listed. -/
def Process.Matches (one other : Process) : Prop := other = one.relisted other.arrangement

theorem Process.matches_relisted (process : Process) (order : Arrangement) :
    process.Matches (process.relisted order) := rfl

/-- What a process starts as does not depend on the order of its environment otherwise. -/
theorem Process.start_relisted (session home : String) (volume : Volume) (geometry : Geometry)
    (order order' : Arrangement) :
    start session home volume geometry order' =
      (start session home volume geometry order).map (·.relisted order') := by
  unfold start
  by_cases habsolute : Location.isAbsolute home = true
  · rw [if_pos habsolute, if_pos habsolute]
    cases volume.isDirectory home with
    | error failure => rfl
    | ok isDirectory =>
      cases isDirectory with
      | true => rfl
      | false =>
        dsimp only
        rcases volume.mkdir home with ⟨outcome, later⟩
        cases outcome <;> rfl
  · rw [if_neg habsolute, if_neg habsolute]
    rfl

namespace Console

variable {settings : Settings} {volume : Volume} {order order' : Arrangement}
  {process process' : Process}

/-- Processes of the same settings on the same volume differ in the order of their environments
only. -/
theorem eq_relisted_of_process (h : Console.process settings volume order = .ok process)
    (h' : Console.process settings volume order' = .ok process') :
    process' = process.relisted order' := by
  obtain ⟨started, hstart, rfl⟩ := exists_start h
  obtain ⟨started', hstart', rfl⟩ := exists_start h'
  rw [Process.start_relisted _ _ _ _ order order', hstart] at hstart'
  obtain rfl := Except.ok.inj hstart'
  rfl

/-- To list its environment in another order tells the commands of a session nothing new if no name
in its settings passes for one that they look up. -/
theorem mayList_of_process (h : Console.process settings volume order = .ok process)
    (horder : order = order' ∨ Environment.IsHonest settings.environment) :
    process.MayList order' := by
  refine horder.imp (fun heq => ?_) fun hhonest key hkey name hname => ?_
  · obtain ⟨started, hstart, rfl⟩ := exists_start h
    obtain ⟨-, later, -, rfl⟩ := Process.start_eq_ok_iff.1 hstart
    exact heq
  · rcases (mem_keys_of_process h).1 hname with hsettings | hown
    · exact hhonest key hkey name hsettings
    · -- The names that a session adds hold no equals sign.
      have hall : ∀ name ∈ ownNames, '=' ∉ name.toList := by decide
      exact Environment.not_poses (hall name hown) key

variable [Supply σ]

/-- Sessions of the same settings on the same volume, each under an order of its own, go the same
way if that tells their commands nothing new. -/
theorem run_of_process (h : Console.process settings volume order = .ok process)
    (h' : Console.process settings volume order' = .ok process')
    (horder : order = order' ∨ Environment.IsHonest settings.environment) (streams : Streams σ)
    (recorder : Option (Duplex σ)) (plumbing : σ) (reports : List Report) (status : Status) :
    let one := (shell settings (registry settings) streams recorder process).run
      ⟨⟨process, plumbing, reports⟩, status⟩
    (shell settings (registry settings) streams recorder process').run
      ⟨⟨process', plumbing, reports⟩, status⟩ = (one.1, one.2.relisted order') := by
  obtain rfl := eq_relisted_of_process h h'
  let one := shell settings (registry settings) streams recorder process
  have horderly : one.registry.IsOrderly := Userland.isOrderly_commands settings.hostname
  obtain ⟨hanswer, hlater⟩ := Shell.run_relisted horderly
    ⟨⟨process, plumbing, reports⟩, status⟩ _ ⟨mayList_of_process h horder, rfl⟩
  exact Prod.ext hanswer.symm hlater.eq

/-! ## Names that pass for another one -/

/-- Settings with a variable whose name passes for `HOME`, and whose value leads elsewhere. -/
def posingHome : Settings :=
  { Settings.default with environment := .ofList [("HOME=0", "/../../tmp")] }

/-- The filesystem that comes with these settings. -/
def posingVolume : Volume := .ofStore (RootTree.populate posingHome .empty).2

/-- Settings with variables whose names pass for others, but for none that commands look up. -/
def posingOthers : Settings :=
  { Settings.default with environment := .ofList [("A=0", "1"), ("HOMES=", "2")] }

theorem isHonest_posingOthers : Environment.IsHonest posingOthers.environment := by
  unfold Environment.IsHonest
  decide

end Console

end Honeypot
