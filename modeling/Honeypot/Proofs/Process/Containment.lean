import Honeypot.Console
import Honeypot.Proofs.Process.Lockstep
import Honeypot.Proofs.Stream.Arrival

/-!
# Crashes are contained

What a command leaves behind is what its calls leave behind, whether it ends with a status or
crashes after any of them. The session goes on: a crash becomes a status, and one line on the
session's own error channel. So over any sequence of commands that channel gets what the commands
write there themselves, and one such line for each of them that crashes.

* `Program.calls`, `Machine.after`: the calls that a program makes, and the machine after calls.
* `Streams.ErrorWorks`: streams on whose error channel everything arrives.
* `Registry.invoke`, `Registry.stages`: commands run one after the other.
* `Registry.contains_crashes`: one command that crashes, and the crashes in a sequence of commands.

## References

- [SPEC] `SPEC_FULL.md`: §4.5, Dispatcher; §8, Testable Properties
-/

namespace Honeypot

variable {σ α : Type} [Supply σ]

/-! ## The calls of a program -/

/-- The machine after calls, whatever they are answered. -/
def Machine.after (streams : Streams σ) (machine : Machine σ) (calls : List Call) : Machine σ :=
  calls.foldl (fun machine request => (machine.answer streams request).2) machine

theorem Machine.after_cons (streams : Streams σ) (machine : Machine σ) (request : Call)
    (calls : List Call) :
    machine.after streams (request :: calls) =
      (machine.answer streams request).2.after streams calls := rfl

/-- A call with the answer to it. -/
abbrev Reply := (request : Call) × request.Answer

/-- The answers to calls, one after the other. -/
def Machine.replies (streams : Streams σ) : Machine σ → List Call → List Reply
  | _, [] => []
  | machine, request :: calls =>
    let step := machine.answer streams request
    ⟨request, step.1⟩ :: step.2.replies streams calls

/-- The calls that a program makes on a machine, in order, up to its end or its crash. -/
def Program.calls (streams : Streams σ) : Program α → Machine σ → List Call
  | .done _, _ => []
  | .crashed _, _ => []
  | .call request next, machine =>
    let step := machine.answer streams request
    request :: (next step.1).calls streams step.2

/-- A program leaves what its calls leave, whether it comes to a result or crashes. -/
theorem Program.run_snd (streams : Streams σ) (program : Program α) (machine : Machine σ) :
    (program.run streams machine).2 = machine.after streams (program.calls streams machine) := by
  induction program generalizing machine with
  | done result => rfl
  | crashed crash => rfl
  | call request next ih => exact ih _ _

/-! ## What arrives on an error channel -/

/-- The bytes that a call writes to standard error, of a single write as much as was taken. -/
def Reply.errorBytes : Reply → Bytes
  | ⟨.printError bytes, _⟩ => bytes
  | ⟨.offerError bytes, answer⟩ => takenOf bytes answer
  | _ => []

/-- Streams on whose error channel everything arrives, at once or by and by. The other streams may
fail, but they leave alone what arrived there. -/
structure Streams.ErrorWorks (streams : Streams σ) (working : σ → Prop) (received : σ → Bytes) :
    Prop where
  input : streams.input.Spares working received
  output : streams.output.Spares working received
  errorInput : streams.error.source.Spares working received
  error : streams.error.sink.Steady working received Intake.all

namespace Machine

variable {streams : Streams σ} {working : σ → Prop} {received : σ → Bytes}

/-- A call brings to the error channel of its streams what it writes to standard error. -/
theorem shows_answer (h : streams.ErrorWorks working received) (request : Call)
    (hidle : request = .offerError [] → streams.error.sink.Idle working received)
    {machine : Machine σ} (hworking : working machine.plumbing) :
    let step := machine.answer streams request
    Shows working received step.2.plumbing
      (received machine.plumbing ++ Reply.errorBytes ⟨request, step.1⟩) := by
  have hshows : Shows working received machine.plumbing (received machine.plumbing ++ []) :=
    ⟨hworking, (List.append_nil _).symm⟩
  -- Whatever the other streams do, they spare what arrived on the error channel.
  cases request with
  | read most => exact ((h.input.lockstep _).readSome most).kept hshows
  | print bytes => exact ((h.output.lockstep _).lineFeeds.writeAll bytes).kept hshows
  | offer bytes => exact ((h.output.lockstep _).lineFeeds.write bytes).kept hshows
  | flush => exact (h.output.lockstep _).lineFeeds.flush.kept hshows
  | printError bytes => exact (h.error.writeAll bytes _ _ ⟨hworking, rfl⟩).2
  | offerError bytes =>
    by_cases hne : bytes = []
    · -- Nothing was offered, so nothing was taken.
      subst hne
      rw [← takenOf_nil (streams.error.sink.write [] machine.plumbing).1] at hshows
      exact hidle rfl _ _ hshows
    · exact h.error.view_write hne hworking
  | flushError => exact (h.error.flush _ _ hshows).2
  | readError most => exact ((h.errorInput.lockstep _).readSome most).kept hshows
  | _ => exact hshows

/-- Calls bring to the error channel what they write to standard error, one after the other. -/
theorem shows_after (h : streams.ErrorWorks working received) (calls : List Call)
    (hidle : .offerError [] ∈ calls → streams.error.sink.Idle working received)
    {machine : Machine σ} (hworking : working machine.plumbing) :
    Shows working received (machine.after streams calls).plumbing
      (received machine.plumbing ++ (machine.replies streams calls).flatMap Reply.errorBytes) := by
  induction calls generalizing machine with
  | nil => exact ⟨hworking, (List.append_nil _).symm⟩
  | cons request calls ih =>
    obtain ⟨hlater, harrived⟩ := shows_answer h request
      (fun hrequest => hidle (hrequest ▸ List.mem_cons_self)) hworking
    have hrest := ih (fun hmem => hidle (.tail _ hmem)) hlater
    rw [harrived, List.append_assoc] at hrest
    exact hrest

end Machine

/-- Streams that all go to an observer keep what the observer leaves alone. -/
theorem Duplex.Spares.observed_lockstep {V : Type} {ok : σ → Prop} {view : σ → V}
    {observer : Duplex σ} (h : observer.Spares ok view) (v : V) :
    (Streams.observed observer).Lockstep (Kept (Shows ok view · v)) (Streams.observed observer) :=
  ⟨h.source.lockstep v, h.sink.lockstep v, ⟨h.source.lockstep v, h.sink.lockstep v⟩⟩

namespace Program

variable {streams : Streams σ} {working : σ → Prop} {received : σ → Bytes}

/-- What a program writes itself to the error channel of the session: nothing if it is bound to an
observer. -/
def complaint (streams : Streams σ) (observer : Option (Duplex σ)) (program : Program α)
    (machine : Machine σ) : Bytes :=
  match observer with
  | none => (machine.replies streams (program.calls streams machine)).flatMap Reply.errorBytes
  | some _ => []

/-- Whether a program that is bound to no observer makes an empty write to standard error. -/
def OffersNothing (streams : Streams σ) (observer : Option (Duplex σ)) (program : Program α)
    (machine : Machine σ) : Prop :=
  observer = none ∧ .offerError [] ∈ program.calls streams machine

/-- A program that is bound to an observer brings nothing to the error channel of the session. -/
theorem shows_run_observed {observer : Duplex σ} (h : observer.Spares working received)
    (program : Program α) {machine : Machine σ} {arrived : Bytes}
    (hshows : Shows working received machine.plumbing arrived) :
    Shows working received (program.run (Streams.observed observer) machine).2.plumbing
      arrived := by
  exact run_kept (h.observed_lockstep arrived) program hshows

/-- Up to its end or its crash, a program brings to the error channel of the session what it writes
there itself. -/
theorem shows_run (h : streams.ErrorWorks working received) {observer : Option (Duplex σ)}
    (hobserver : ∀ duplex ∈ observer, duplex.Spares working received) (program : Program α)
    {machine : Machine σ} (hworking : working machine.plumbing)
    (hidle : program.OffersNothing streams observer machine →
      streams.error.sink.Idle working received) :
    Shows working received (program.run (streams.boundTo observer) machine).2.plumbing
      (received machine.plumbing ++ program.complaint streams observer machine) := by
  cases observer with
  | none =>
    -- On the session's own streams the calls add up, and a crash comes after the last of them.
    rw [run_snd]
    exact Machine.shows_after h _ (fun hmem => hidle ⟨rfl, hmem⟩) hworking
  | some duplex =>
    apply shows_run_observed (hobserver duplex rfl)
    exact ⟨hworking, (List.append_nil _).symm⟩

end Program

/-! ## Reports of crashes -/

/-- Whether a report is about a crash. -/
def Report.isCrash : Report → Bool
  | .crash .. => true
  | .note _ => false

/-- The number of crashes that were reported about a session. -/
def Machine.crashReports (machine : Machine σ) : Nat :=
  machine.reports.countP Report.isCrash

/-- Programs do not report crashes themselves. -/
theorem Machine.crashReports_answer (streams : Streams σ) (machine : Machine σ) (request : Call) :
    (machine.answer streams request).2.crashReports = machine.crashReports := by
  cases request with
  | note text => exact List.countP_cons_of_neg (by simp [Report.isCrash])
  | _ => rfl

theorem Machine.crashReports_after (streams : Streams σ) (machine : Machine σ)
    (calls : List Call) : (machine.after streams calls).crashReports = machine.crashReports := by
  induction calls generalizing machine with
  | nil => rfl
  | cons request calls ih => rw [after_cons, ih, crashReports_answer]

/-! ## Commands one after the other -/

/-- What is asked of a registry: a path, arguments, and an observer if there is one. -/
structure Invocation (σ : Type) [Supply σ] where
  path : String
  args : List String
  observer : Option (Duplex σ) := none

namespace Registry

variable (registry : Registry) (streams : Streams σ)

/-- Runs the command of an invocation. -/
def invoke (invocation : Invocation σ) (machine : Machine σ) : Except Failure Status × Machine σ :=
  registry.execute streams invocation.observer invocation.path invocation.args machine

/-- The machine after invocations, one after the other. -/
def afterAll (invocations : List (Invocation σ)) (machine : Machine σ) : Machine σ :=
  invocations.foldl (fun machine invocation => (registry.invoke streams invocation machine).2)
    machine

/-- Invocations one after the other, each with the machine that it finds. -/
def stages : List (Invocation σ) → Machine σ → List (Invocation σ × Machine σ)
  | [], _ => []
  | invocation :: later, machine =>
    (invocation, machine) :: stages later (registry.invoke streams invocation machine).2

/-- Whether the command of an invocation crashes. -/
def crashes (stage : Invocation σ × Machine σ) : Bool :=
  match registry.find? (Path.baseName stage.1.path) with
  | none => false
  | some command =>
    !((command.program stage.1.args).run (streams.boundTo stage.1.observer) stage.2).1.isOk

/-- What the command of an invocation writes itself to the error channel of the session. -/
def complaint (stage : Invocation σ × Machine σ) : Bytes :=
  match registry.find? (Path.baseName stage.1.path) with
  | none => []
  | some command => (command.program stage.1.args).complaint streams stage.1.observer stage.2

/-- Whether the command of an invocation makes an empty write to the session's own standard
error. -/
def OffersNothing (stage : Invocation σ × Machine σ) : Prop :=
  ∃ command, registry.find? (Path.baseName stage.1.path) = some command ∧
    (command.program stage.1.args).OffersNothing streams stage.1.observer stage.2

/-- What an invocation brings to the error channel of the session: what its command writes there
itself, and the line about its crash if it crashes. -/
def outcry (stage : Invocation σ × Machine σ) : Bytes :=
  registry.complaint streams stage ++ if registry.crashes streams stage then crashLine else []

/-- The machine after a crash at a path: the crash is reported, and the line about it is written to
the session's own error channel, whatever comes of that. -/
def crashed (path : String) (crash : Crash) (machine : Machine σ) : Machine σ where
  process := machine.process
  plumbing := (streams.error.sink.writeAll crashLine machine.plumbing).2
  reports := .crash machine.process.session path crash.text :: machine.reports

/-- What an invocation can come to: its command does not exist, ends or crashes. -/
theorem invoke_cases (stage : Invocation σ × Machine σ) :
    (registry.find? (Path.baseName stage.1.path) = none ∧
      registry.crashes streams stage = false ∧ registry.complaint streams stage = [] ∧
      registry.invoke streams stage.1 stage.2 =
        (.error (.notFound Failure.execution stage.1.path), stage.2)) ∨
    ∃ command answer left, registry.find? (Path.baseName stage.1.path) = some command ∧
      (command.program stage.1.args).run (streams.boundTo stage.1.observer) stage.2 =
        (answer, left) ∧
      ((∃ status, answer = .ok status ∧ registry.crashes streams stage = false ∧
          registry.invoke streams stage.1 stage.2 = (.ok status, left)) ∨
        ∃ crash, answer = .error crash ∧ registry.crashes streams stage = true ∧
          registry.invoke streams stage.1 stage.2 =
            (.ok .crashed, crashed streams stage.1.path crash left)) := by
  cases hcommand : registry.find? (Path.baseName stage.1.path) with
  | none =>
    refine .inl ⟨rfl, ?_, ?_, ?_⟩
    · rw [crashes, hcommand]
    · rw [complaint, hcommand]
    · exact execute_of_find?_eq_none hcommand streams _ _ _
  | some command =>
    -- The run of the command decides between a status and a crash, from the machine as it is.
    rcases hrun : (command.program stage.1.args).run (streams.boundTo stage.1.observer) stage.2 with
      ⟨answer, left⟩
    refine .inr ⟨command, answer, left, rfl, hrun, ?_⟩
    rw [crashes, hcommand, invoke, execute_of_find? hcommand]
    dsimp only
    rw [hrun]
    cases answer with
    | ok status => exact .inl ⟨status, rfl, rfl, rfl⟩
    | error crash => exact .inr ⟨crash, rfl, rfl, rfl⟩

variable {streams} {working : σ → Prop} {received : σ → Bytes}

/-- An invocation brings its outcry to a working error channel of the session. -/
theorem shows_invoke (h : streams.ErrorWorks working received) (stage : Invocation σ × Machine σ)
    (hobserver : ∀ observer ∈ stage.1.observer, observer.Spares working received)
    (hidle : registry.OffersNothing streams stage → streams.error.sink.Idle working received)
    (hworking : working stage.2.plumbing) :
    Shows working received (registry.invoke streams stage.1 stage.2).2.plumbing
      (received stage.2.plumbing ++ registry.outcry streams stage) := by
  unfold outcry
  rcases registry.invoke_cases streams stage with
    ⟨-, hcrashes, hcomplaint, hinvoke⟩ | ⟨command, answer, left, hcommand, hrun, hcases⟩
  · rw [hinvoke, hcrashes, hcomplaint]
    exact ⟨hworking, (List.append_nil _).symm⟩
  · have hleft := (command.program stage.1.args).shows_run h hobserver hworking
      fun hoffers => hidle ⟨command, hcommand, hoffers⟩
    rw [hrun] at hleft
    rw [complaint, hcommand]
    rcases hcases with ⟨status, -, hcrashes, hinvoke⟩ | ⟨crash, -, hcrashes, hinvoke⟩
    · rw [hinvoke, hcrashes, if_neg (by simp), List.append_nil]
      exact hleft
    · -- The line about the crash comes after all that the command wrote.
      have hline := h.error.writeAll crashLine left.plumbing _ ⟨hleft.1, rfl⟩
      rw [hleft.2] at hline
      rw [hinvoke, hcrashes, if_pos rfl, ← List.append_assoc]
      exact hline.2

variable (streams) in
/-- An invocation adds a report of a crash if its command crashes, and none if it does not. -/
theorem crashReports_invoke (stage : Invocation σ × Machine σ) :
    (registry.invoke streams stage.1 stage.2).2.crashReports =
      stage.2.crashReports + if registry.crashes streams stage then 1 else 0 := by
  rcases registry.invoke_cases streams stage with
    ⟨-, hcrashes, -, hinvoke⟩ | ⟨command, answer, left, hcommand, hrun, hcases⟩
  · rw [hinvoke, hcrashes]
    rfl
  · -- The calls of the command report no crash, up to its own.
    have hleft : left.crashReports = stage.2.crashReports := by
      rw [← Machine.crashReports_after (streams.boundTo stage.1.observer) stage.2,
        ← Program.run_snd, hrun]
    rcases hcases with ⟨status, -, hcrashes, hinvoke⟩ | ⟨crash, -, hcrashes, hinvoke⟩
    · rw [hinvoke, hcrashes]
      exact hleft
    · rw [hinvoke, hcrashes, if_pos rfl, ← hleft]
      exact List.countP_cons_of_pos rfl

/-- Invocations bring their outcries to a working error channel of the session, one after the
other. -/
theorem shows_afterAll (h : streams.ErrorWorks working received)
    (invocations : List (Invocation σ))
    (hobservers : ∀ invocation ∈ invocations, ∀ observer ∈ invocation.observer,
      observer.Spares working received)
    {machine : Machine σ} (hworking : working machine.plumbing)
    (hidle : ∀ stage ∈ registry.stages streams invocations machine,
      registry.OffersNothing streams stage → streams.error.sink.Idle working received) :
    Shows working received (registry.afterAll streams invocations machine).plumbing
      (received machine.plumbing ++
        (registry.stages streams invocations machine).flatMap (registry.outcry streams)) := by
  induction invocations generalizing machine with
  | nil => exact ⟨hworking, (List.append_nil _).symm⟩
  | cons invocation later ih =>
    rw [List.forall_mem_cons] at hobservers
    obtain ⟨hobserver, hothers⟩ := hobservers
    obtain ⟨hnext, hreceived⟩ := registry.shows_invoke h ⟨invocation, machine⟩ hobserver
      (hidle _ List.mem_cons_self) hworking
    -- The others start on the machine that the first one leaves, with its outcry received.
    have hrest := ih hothers hnext fun stage hmem => hidle stage (.tail _ hmem)
    rw [hreceived, List.append_assoc] at hrest
    exact hrest

variable (streams) in
/-- Invocations add a report for every command that crashes. -/
theorem crashReports_afterAll (invocations : List (Invocation σ)) (machine : Machine σ) :
    (registry.afterAll streams invocations machine).crashReports =
      machine.crashReports +
        (registry.stages streams invocations machine).countP (registry.crashes streams) := by
  induction invocations generalizing machine with
  | nil => rfl
  | cons invocation later ih =>
    have hinvoke := registry.crashReports_invoke streams ⟨invocation, machine⟩
    rw [stages, List.countP_cons, Nat.add_comm (List.countP _ _), ← Nat.add_assoc, ← hinvoke]
    exact ih _

/-- Where commands write nothing to the error channel of the session themselves, only the lines
about their crashes arrive there. -/
theorem flatMap_outcry_of_complaint_eq_nil {stages : List (Invocation σ × Machine σ)}
    (h : ∀ stage ∈ stages, registry.complaint streams stage = []) :
    stages.flatMap (registry.outcry streams) =
      (List.replicate (stages.countP (registry.crashes streams)) crashLine).flatten := by
  induction stages with
  | nil => rfl
  | cons stage later ih =>
    rw [List.forall_mem_cons] at h
    rw [List.flatMap_cons, ih h.2, outcry, h.1, List.nil_append, List.countP_cons]
    cases registry.crashes streams stage with
    | false => rfl
    | true => rfl

end Registry

/-! ## Sessions on a wiring -/

namespace Wiring

/-- On a wiring everything arrives at the error channel as long as its end never fails, whatever
becomes of the other ends. -/
theorem errorWorks_streams : streams.ErrorWorks (Working .error) (·.written .error) where
  input := spares_source .input .error
  output := spares_sink (by decide)
  errorInput := spares_source .error .error
  error := steady_sink_of_neverFails .error

theorem spares_observerDuplex :
    observerDuplex.Spares (Working .error) (·.written .error) where
  source := spares_source .observer .error
  sink := spares_sink (by decide)

end Wiring

/-! ## Crashes -/

namespace Registry

/-- A path without a command gives a failure and leaves everything as it is. Otherwise the command
of that name runs once, with the arguments as they are: it leaves what its calls leave, and if it
crashes after them, the session's own error channel is written one line, which concerns nothing that
this channel spares, and the status says so. Over any sequence of commands a working error channel
receives what the commands write to it themselves, and one such line for every crash. For an empty
write of theirs, the channel has to take nothing for nothing. -/
theorem contains_crashes (registry : Registry) (streams : Streams σ) :
    (∀ path, registry.find? (Path.baseName path) = none → ∀ observer args machine,
      registry.execute streams observer path args machine =
          (.error (.notFound "exec" path), machine) ∧
        (Failure.notFound "exec" path).status = 127) ∧
    (∀ path command, registry.find? (Path.baseName path) = some command →
      ∀ observer args machine,
        let bound := streams.boundTo observer
        let program := command.program args
        let left := machine.after bound (program.calls bound machine)
        let later := registry.execute streams observer path args machine
        (later = match (program.run bound machine).1 with
          | .ok status => (.ok status, left)
          | .error crash => (.ok 139,
            { process := left.process
              plumbing :=
                (streams.error.sink.writeAll (Text.encode "Segmentation fault\n") left.plumbing).2
              reports := .crash left.process.session path crash.text :: left.reports })) ∧
        ∀ {V : Type} (ok : σ → Prop) (view : σ → V) (v : V), streams.error.sink.Spares ok view →
          Shows ok view left.plumbing v → Shows ok view later.2.plumbing v) ∧
    ∀ working received, streams.ErrorWorks working received → ∀ invocations : List (Invocation σ),
      (∀ invocation ∈ invocations, ∀ observer ∈ invocation.observer,
        observer.Spares working received) →
      ∀ machine, working machine.plumbing →
        let stages := registry.stages streams invocations machine
        let final := registry.afterAll streams invocations machine
        let crashes := stages.countP (registry.crashes streams)
        (∀ stage ∈ stages, registry.OffersNothing streams stage →
          streams.error.sink.Idle working received) →
        working final.plumbing ∧
        received final.plumbing = received machine.plumbing ++ stages.flatMap (fun stage =>
          registry.complaint streams stage ++
            if registry.crashes streams stage then crashLine else []) ∧
        final.crashReports = machine.crashReports + crashes ∧
        ((∀ stage ∈ stages, registry.complaint streams stage = []) →
          received final.plumbing =
            received machine.plumbing ++ (List.replicate crashes crashLine).flatten) := by
  refine ⟨?_, ?_, ?_⟩
  · intro path hcommand observer args machine
    exact ⟨execute_of_find?_eq_none hcommand streams observer args machine, rfl⟩
  · intro path command hcommand observer args machine bound program left later
    have hleft : (program.run bound machine).2 = left := Program.run_snd bound program machine
    have hlater : later = _ := execute_of_find? hcommand streams observer args machine
    rcases hrun : program.run bound machine with ⟨answer, machine'⟩
    rw [hrun] at hlater hleft
    obtain rfl : machine' = left := hleft
    cases answer with
    | ok status =>
      refine ⟨hlater, fun ok view v _ hshows => ?_⟩
      rw [hlater]
      exact hshows
    | error crash =>
      refine ⟨hlater, fun ok view v hspares hshows => ?_⟩
      rw [hlater]
      -- Only the error channel is written, so what it spares stays as the command left it.
      exact ((hspares.lockstep v).writeAll crashLine).kept hshows
  · intro working received hstreams invocations hobservers machine hworking stages final crashes
      hidle
    obtain ⟨hfinal, hreceived⟩ :=
      registry.shows_afterAll hstreams invocations hobservers hworking hidle
    refine ⟨hfinal, hreceived, registry.crashReports_afterAll streams invocations machine, ?_⟩
    intro hsilent
    rw [hreceived, registry.flatMap_outcry_of_complaint_eq_nil hsilent]

/-- A command that sets a variable, complains and crashes. -/
def halfway : Command where
  help := "crash halfway"
  program _ := do
    Program.assign "STAGE" "1"
    let _ ← Program.printError (Text.encode "stage two\n")
    let _ ← Program.ask (.offerError [])
    let _ ← Program.ask .flushError
    .crashed (.message "stage two failed")

/-- A session whose standard output is closed, and whose error channel takes bytes by and by. -/
def strained : Machine Wiring where
  process := ⟨"test", "/root", ∅, .ofStore .empty, ⟨80, 24⟩, .insertion⟩
  plumbing :=
    { output := { room := some 0 }, error := { script := [.accept 3, .fail .interrupted] } }

/-- A command that crashes twice, the second time bound to an observer: each crash shows on the
error channel of the session, and its own complaint goes where it is bound to. -/
theorem contains_crashes_of_halfway :
    let registry := ofList [("half", halfway)]
    let invocations : List (Invocation Wiring) :=
      [⟨"/bin/half", [], none⟩, ⟨"half", ["again"], some Wiring.observerDuplex⟩, ⟨"gone", [], none⟩]
    let final := registry.afterAll Wiring.streams invocations strained
    registry.execute Wiring.streams none "gone" [] strained =
        (.error (.notFound "exec" "gone"), strained) ∧
      (registry.execute Wiring.streams none "/bin/half" [] strained).1 = .ok 139 ∧
      (registry.execute Wiring.streams none "/bin/half" [] strained).2.process.valueOf? "STAGE" =
        some "1" ∧
      final.plumbing.written .error =
        Text.encode "stage two\nSegmentation fault\nSegmentation fault\n" ∧
      final.crashReports = 2 := by
  intro registry invocations final
  obtain ⟨hmissing, hpresent, hsequence⟩ := contains_crashes registry Wiring.streams
  have hworking : Wiring.Working .error strained.plumbing := by
    refine ⟨⟨?_, rfl, rfl⟩, rfl⟩
    simp [strained, Wiring.outlet, Reaction.IsPatient]
  have hobservers : ∀ invocation ∈ invocations, ∀ observer ∈ invocation.observer,
      observer.Spares (Wiring.Working .error) (·.written .error) := by
    simp [invocations, Wiring.spares_observerDuplex]
  obtain ⟨-, hreceived, hreports, -⟩ :=
    hsequence _ _ Wiring.errorWorks_streams invocations hobservers strained hworking
      fun _ _ _ => Wiring.idle_sink .error
  have hcrash : ((halfway.program []).run (Wiring.streams.boundTo none) strained).1 =
      .error (.message "stage two failed") := rfl
  have hcrashed := (hpresent "/bin/half" halfway (by rfl) none [] strained).1
  rw [hcrash] at hcrashed
  rw [hcrashed]
  refine ⟨(hmissing "gone" (by decide +kernel) none [] strained).1, rfl, rfl, ?_, ?_⟩
  · refine hreceived.trans ?_
    decide +kernel
  · refine hreports.trans ?_
    decide +kernel

end Registry

end Honeypot
