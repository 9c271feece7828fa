import Honeypot.Proofs.Process.Environment
import Honeypot.Proofs.Process.Lockstep
import Honeypot.Proofs.Stream.Accord

/-!
# Orderly programs

An orderly program does not crash. It reads and writes whole inputs and whole buffers only, and when
it cannot print it does nothing more. Of its streams it notices only what whole buffers come to, and
when its output breaks off, what crossed until then is the beginning of what it would have been. Nor
does it notice in which order its environment is listed, if no name there passes for another one.

* `Program.Orderly`: orderly programs, and what they may end with when they cannot print.
* `Program.Orderly.bind`: orderly programs one after the other.
* `Streams.Accord`: streams on which whole buffers and inputs come to the same, until the standard
  output of the one side breaks off.
* `Program.Orderly.run_until`, `Registry.execute_until`: orderly programs and commands go alike on
  such streams, until the output breaks off.
-/

namespace Honeypot

variable {α β : Type}

/-! ## Orderly programs -/

/-- Whether a call reads everything, writes a whole buffer to standard error, or has to do neither
with streams nor with variables. -/
def Call.IsQuiet : Call → Prop
  | .read none | .printError _ => True
  | .environ | .assign _ _ => False
  | request => request.IsAside

namespace Program

/-- A program that does not crash, makes calls on whole buffers and inputs only, and is done, with a
result for that case, when it cannot print. It goes on in one way for all orders in which an honest
environment is listed, and sets only variables whose names hold no equals sign. -/
inductive Orderly (stopped : α → Prop) : Program α → Prop
  | done (result : α) : Orderly stopped (.done result)
  | print {bytes : Bytes} {next : Except Fault Unit → Program α}
      (hfault : ∀ fault, ∃ result, next (.error fault) = .done result ∧ stopped result)
      (hnext : Orderly stopped (next (.ok ()))) : Orderly stopped (.call (.print bytes) next)
  | environ {next : List String → Program α} (hstable : Environment.IsStable next)
    (hnext : ∀ order, Orderly stopped (next order)) : Orderly stopped (.call .environ next)
  | assign {key value : String} {next : Unit → Program α} (hkey : '=' ∉ key.toList)
    (hnext : Orderly stopped (next ())) : Orderly stopped (.call (.assign key value) next)
  | quiet {request : Call} {next : request.Answer → Program α} (hquiet : request.IsQuiet)
      (hnext : ∀ answer, Orderly stopped (next answer)) : Orderly stopped (.call request next)

namespace Orderly

variable {stopped : α → Prop} {stopped' : β → Prop}

/-- An orderly program followed by orderly ones is orderly, if it is done when its first part
cannot print. -/
theorem bind {program : Program α} {next : α → Program β} (h : program.Orderly stopped)
    (hstopped : ∀ result, stopped result → ∃ final, next result = .done final ∧ stopped' final)
    (hnext : ∀ result, (next result).Orderly stopped') : (program >>= next).Orderly stopped' := by
  induction h with
  | done result => exact hnext result
  | print hfault _ ih =>
    refine .print (fun fault => ?_) ih
    obtain ⟨result, hresult, hresult'⟩ := hfault fault
    obtain ⟨final, hfinal, hfinal'⟩ := hstopped result hresult'
    refine ⟨final, ?_, hfinal'⟩
    rw [hresult]
    exact hfinal
  | environ hstable _ ih =>
    refine .environ (fun environment hhonest order order' horder horder' => ?_) ih
    exact congrArg (·.bind next) (hstable environment hhonest order order' horder horder')
  | assign hkey _ ih => exact .assign hkey ih
  | quiet hquiet _ ih => exact .quiet hquiet ih

/-- A program is orderly that goes on after what is seen in the environment under every order. -/
theorem environ_bind {view : List String → β} (hview : Environment.IsStable view)
    {next : β → Program α} (hnext : ∀ seen, (next seen).Orderly stopped) :
    (Program.environ >>= fun order => next (view order)).Orderly stopped :=
  .environ (fun environment hhonest order order' horder horder' =>
    congrArg next (hview environment hhonest order order' horder horder')) fun _ => hnext _

end Orderly

/-! ## Programs that print -/

/-- What a program is told when it cannot print. -/
def Failed (answer : Except Fault Unit) : Prop := ∃ fault, answer = .error fault

theorem orderly_print (bytes : Bytes) : (print bytes).Orderly Failed :=
  .print (fun fault => ⟨.error fault, rfl, fault, rfl⟩) (.done _)

/-- A program that prints is orderly if it is done when it is told that it cannot. -/
theorem Orderly.bind_of_failed {stopped : α → Prop} {program : Program (Except Fault Unit)}
    (h : program.Orderly Failed) {next : Except Fault Unit → Program α}
    (hfault : ∀ fault, ∃ result, next (.error fault) = .done result ∧ stopped result)
    (hnext : (next (.ok ())).Orderly stopped) : (program >>= next).Orderly stopped := by
  apply h.bind
  · rintro _ ⟨fault, rfl⟩
    exact hfault fault
  · intro answer
    cases answer with
    | ok _ => exact hnext
    | error fault =>
      obtain ⟨result, hresult, -⟩ := hfault fault
      rw [hresult]
      exact .done result

theorem orderly_printParts (parts : List Bytes) : (printParts parts).Orderly Failed := by
  induction parts with
  | nil => exact .done _
  | cons part parts ih =>
    exact (orderly_print part).bind_of_failed (fun fault => ⟨.error fault, rfl, fault, rfl⟩) ih

/-- Printing to standard error never stops a program. -/
theorem orderly_printErrorParts (stopped : Except Fault Unit → Prop) (parts : List Bytes) :
    (printErrorParts parts).Orderly stopped := by
  induction parts with
  | nil => exact .done _
  | cons part parts ih =>
    refine .quiet trivial fun answer => ?_
    cases answer with
    | ok _ => exact ih
    | error fault => exact .done _

/-- A program that complains before it goes on is orderly if it is so without. -/
theorem Orderly.printErrorTexts_bind {stopped : α → Prop} (texts : List String)
    {next : Except Fault Unit → Program α} (hnext : ∀ answer, (next answer).Orderly stopped) :
    (printErrorTexts texts >>= next).Orderly stopped :=
  (orderly_printErrorParts (fun _ => False) _).bind (fun _ hfalse => hfalse.elim) hnext

end Program

/-- A program that prints goes on with what the whole buffer came to. -/
theorem Program.run_print {σ : Type} [Supply σ] (streams : Streams σ) (bytes : Bytes)
    (next : Except Fault Unit → Program α) (machine : Machine σ) :
    (Program.call (.print bytes) next).run streams machine =
      (next (machine.stream (streams.output.lineFeeds.writeAll bytes)).1).run streams
        (machine.stream (streams.output.lineFeeds.writeAll bytes)).2 := rfl

/-- An orderly program comes to a result. -/
theorem Program.Orderly.exists_run_eq {σ : Type} [Supply σ] {stopped : α → Prop}
    {program : Program α} (h : program.Orderly stopped) (streams : Streams σ)
    (machine : Machine σ) :
    ∃ result later, program.run streams machine = (.ok result, later) := by
  induction h generalizing machine with
  | done result => exact ⟨result, machine, rfl⟩
  | @print bytes next hfault _ ih =>
    rw [run_print]
    rcases machine.stream (streams.output.lineFeeds.writeAll bytes) with ⟨answer, later⟩
    cases answer with
    | ok _ => exact ih later
    -- An orderly program goes on from a fault to a result without another call.
    | error fault =>
      obtain ⟨result, hresult, -⟩ := hfault fault
      dsimp only
      rw [hresult]
      exact ⟨result, later, rfl⟩
  | environ _ _ ih => exact ih _ _
  | assign _ _ ih => exact ih _
  | quiet hquiet _ ih =>
    rw [run]
    exact ih _ _

/-! ## Streams in accord -/

variable {σ ρ : Type} [Supply σ] [Supply ρ]

/-- Streams on which whole buffers, whole lines and whole inputs come to the same, until the
standard output of the one side breaks off with a fault. From then on it fails, and nothing that is
done on the other side brings the two together again. -/
structure Streams.Accord (R C : σ → ρ → Prop) (fault : Fault) (one : Streams σ)
    (other : Streams ρ) : Prop where
  readAll : Alike R one.input.readAll other.input.readAll
  readLine : Alike R one.input.readLine other.input.readLine
  print : ∀ bytes, AlikeUntil R C (· = .error fault) (one.output.lineFeeds.writeAll bytes)
    (other.output.lineFeeds.writeAll bytes)
  flush : Alike R one.output.flush other.output.flush
  printError : ∀ bytes, Alike R (one.error.sink.writeAll bytes) (other.error.sink.writeAll bytes)
  diagnose : ∀ bytes, Alike R (one.error.sink.lineFeeds.writeAll bytes)
    (other.error.sink.lineFeeds.writeAll bytes)
  stuck : ∀ s t, C s t → ∀ bytes ≠ [], (one.output.lineFeeds.writeAll bytes s).1 = .error fault ∧
    C (one.output.lineFeeds.writeAll bytes s).2 t
  keeps : ∀ s, other.Lockstep (Kept (C s)) other

namespace Streams.Accord

variable {R C : σ → ρ → Prop} {fault : Fault} {one : Streams σ} {other : Streams ρ}

/-- Quiet calls get the same answers. -/
theorem answer (h : one.Accord R C fault other) {request : Call} (hquiet : request.IsQuiet) :
    Alike (Machine.Related R) (fun machine => machine.answer one request)
      (fun machine => machine.answer other request) := by
  cases request with
  | read most =>
    cases most with
    | none => exact Machine.stream_lockstep h.readAll
    | some most => exact hquiet.elim
  | printError bytes => exact Machine.stream_lockstep (h.printError bytes)
  | environ | assign => exact hquiet.elim
  | _ => exact Machine.answer_alike_of_isAside R one other hquiet

/-- What the other side does keeps the two apart. -/
theorem apart_run (h : one.Accord R C fault other) (program : Program α) {machine : Machine σ}
    {machine' : Machine ρ} (hapart : Machine.Apart C machine machine') :
    Machine.Apart C machine (program.run other machine').2 :=
  Program.run_kept (h.keeps machine.plumbing) program hapart

end Streams.Accord

/-- Orderly programs go alike on streams in accord, until the standard output of the one side breaks
off. Then the program on that side is done. -/
theorem Program.Orderly.run_until {R C : σ → ρ → Prop} {fault : Fault} {one : Streams σ}
    {other : Streams ρ} (hstreams : one.Accord R C fault other) {stopped : α → Prop}
    {program : Program α} (h : program.Orderly stopped) :
    AlikeUntil (Machine.Related R) (Machine.Apart C)
      (fun answer => ∃ result, answer = .ok result ∧ stopped result)
      (program.run one) (program.run other) := by
  induction h with
  | done result => exact fun _ _ hrelated => .inl ⟨rfl, hrelated⟩
  | @print bytes next hfault _ ih =>
    intro machine machine' hrelated
    have hprint := Machine.stream_until (hstreams.print bytes) machine machine' hrelated
    rw [run_print, run_print]
    dsimp only at hprint
    -- Nothing is known of the two prints but what they have in common.
    generalize machine.stream (one.output.lineFeeds.writeAll bytes) = step at hprint ⊢
    generalize machine'.stream (other.output.lineFeeds.writeAll bytes) = step' at hprint ⊢
    obtain ⟨answer, later⟩ := step
    obtain ⟨answer', later'⟩ := step'
    rcases hprint with ⟨hanswer, hlater⟩ | ⟨hanswer, hapart⟩
    · obtain rfl : answer = answer' := hanswer
      cases answer with
      | ok _ => exact ih later later' hlater
      | error fault =>
        obtain ⟨result, hresult, -⟩ := hfault fault
        dsimp only
        rw [hresult]
        exact .inl ⟨rfl, hlater⟩
    · -- The one side is done. The other may go on, but stays apart.
      obtain rfl : answer = .error fault := hanswer
      obtain ⟨result, hresult, hstopped⟩ := hfault fault
      dsimp only
      rw [hresult]
      exact .inr ⟨⟨result, rfl, hstopped⟩, hstreams.apart_run (next answer') hapart⟩
  | environ _ _ ih =>
    rintro ⟨process, plumbing, reports⟩ ⟨_, plumbing', _⟩ ⟨rfl, hplumbing, rfl⟩
    exact ih _ _ _ ⟨rfl, hplumbing, rfl⟩
  | assign _ _ ih =>
    rintro ⟨process, plumbing, reports⟩ ⟨_, plumbing', _⟩ ⟨rfl, hplumbing, rfl⟩
    exact ih _ _ ⟨rfl, hplumbing, rfl⟩
  | quiet hquiet _ ih =>
    intro machine machine' hrelated
    obtain ⟨hanswer, hlater⟩ := hstreams.answer hquiet machine machine' hrelated
    dsimp only at hanswer hlater
    rw [run, run, ← hanswer]
    exact ih _ _ _ hlater

/-! ## Orderly commands -/

/-- A registry all of whose commands are orderly, with any arguments. -/
def Registry.IsOrderly (registry : Registry) : Prop :=
  ∀ name command, registry.find? name = some command →
    ∀ args, (command.program args).Orderly fun _ => True

/-- A command that does not crash sees the streams that it is bound to and no others. -/
theorem Registry.IsOrderly.execute_boundTo {registry : Registry} (h : registry.IsOrderly)
    (streams : Streams σ) (observer : Option (Duplex σ)) (path : String) (args : List String) :
    registry.execute streams observer path args =
      registry.execute (streams.boundTo observer) none path args := by
  funext machine
  cases hcommand : registry.find? (Path.baseName path) with
  | none =>
    rw [execute_of_find?_eq_none hcommand, execute_of_find?_eq_none hcommand]
  | some command =>
    obtain ⟨status, later, hrun⟩ :=
      (h _ command hcommand args).exists_run_eq (streams.boundTo observer) machine
    have hbound : (streams.boundTo observer).boundTo none = streams.boundTo observer := rfl
    rw [execute_of_find? hcommand, execute_of_find? hcommand, hbound, hrun]

/-- Orderly commands go alike on streams in accord, until the standard output of the one side breaks
off. The command on that side then ends with some status. -/
theorem Registry.IsOrderly.execute_until {registry : Registry} (h : registry.IsOrderly)
    {R C : σ → ρ → Prop} {fault : Fault} {one : Streams σ} {other : Streams ρ}
    (hstreams : one.Accord R C fault other) (path : String) (args : List String) :
    AlikeUntil (Machine.Related R) (Machine.Apart C) (fun answer => ∃ status, answer = .ok status)
      (registry.execute one none path args) (registry.execute other none path args) := by
  intro machine machine' hrelated
  cases hcommand : registry.find? (Path.baseName path) with
  | none =>
    rw [execute_of_find?_eq_none hcommand, execute_of_find?_eq_none hcommand]
    exact .inl ⟨rfl, hrelated⟩
  | some command =>
    have horderly := h _ command hcommand args
    have hrun := horderly.run_until hstreams machine machine' hrelated
    -- Without these two the runs could end in a crash, which the registry would report.
    obtain ⟨status, later, hone⟩ := horderly.exists_run_eq one machine
    obtain ⟨status', later', hother⟩ := horderly.exists_run_eq other machine'
    rw [hone, hother] at hrun
    rw [execute_of_find? hcommand, execute_of_find? hcommand]
    show _ ∨ _
    have hbound : one.boundTo none = one := rfl
    have hbound' : other.boundTo none = other := rfl
    rw [hbound, hbound', hone, hother]
    rcases hrun with ⟨hanswer, hlater⟩ | ⟨_, hapart⟩
    · exact .inl ⟨congrArg Except.ok (Except.ok.inj hanswer), hlater⟩
    · exact .inr ⟨⟨status, rfl⟩, hapart⟩

end Honeypot
