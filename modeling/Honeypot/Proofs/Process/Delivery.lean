import Honeypot.Console
import Honeypot.Proofs.Stream.Arrival
import Honeypot.Proofs.Text.Utf8
import Honeypot.Proofs.Userland.Effects

/-!
# What programs deliver

Where neither the output of a program nor its error channel fails, what the program prints arrives
with its line feeds translated, and its complaints arrive as they are. Neither gets into the other,
and the rest of the session is not touched.

* `Destination`, `Arrived`: where the bytes of a stream end up, and what has got to two such places.
* `Streams.Delivers`: streams that lose nothing on the way to them.
* `Streams.Delivers.run_print`, `Streams.Delivers.run_printErrorTexts`: what one call delivers.
* `Wiring.delivers`: the streams of a wiring whose ends never fail.
* `Process.nodeAt?`, `Program.run_readFile`, `Program.run_stat`, `Program.run_readdir`: what is at a
  path, read from the working directory.
-/

namespace Honeypot

/-- A place where the bytes of a stream end up. -/
structure Destination (σ : Type) where
  /-- Whether it takes everything that is still to come. -/
  working : σ → Prop
  /-- What it got so far. -/
  received : σ → Bytes

/-- Whether two destinations are working, and got certain bytes so far. -/
def Arrived {σ : Type} (screen errors : Destination σ) (printed complained : Bytes) (s : σ) :
    Prop :=
  Shows screen.working screen.received s printed ∧ Shows errors.working errors.received s complained

@[simp]
theorem Sink.translated_nil : translated [] = [] := rfl

@[simp]
theorem Text.encode_empty : encode "" = [] := rfl

variable {σ : Type} [Supply σ]

/-! ## Streams that lose nothing -/

/-- Streams that lose nothing: what is offered to the output arrives on the screen, at once or by
and by, what is offered to the error channel arrives among the errors, and neither is mixed up with
the other. -/
structure Streams.Delivers (streams : Streams σ) (screen errors : Destination σ) : Prop where
  output : streams.output.Meets screen.working screen.received Intake.all
  error : streams.error.sink.Meets errors.working errors.received Intake.all
  output_spares : streams.output.Spares errors.working errors.received
  error_spares : streams.error.sink.Spares screen.working screen.received

namespace Streams.Delivers

variable {streams : Streams σ} {screen errors : Destination σ} {machine : Machine σ}
  {printed complained : Bytes}

/-- What is printed arrives on the screen with its line feeds translated. -/
theorem run_print (h : streams.Delivers screen errors)
    (harrived : Arrived screen errors printed complained machine.plumbing) (bytes : Bytes) :
    ∃ later, (Program.print bytes).run streams machine =
        (.ok (.ok ()), { machine with plumbing := later }) ∧
      Arrived screen errors (printed ++ Sink.translated bytes) complained later := by
  obtain ⟨hscreen, herrors⟩ := harrived
  obtain ⟨hanswer, hshows⟩ := h.output.lineFeeds.writeAll bytes machine.plumbing _ hscreen
  -- Nothing gets among the errors, since the output spares them.
  have hspared := ((h.output_spares.lockstep complained).lineFeeds.writeAll bytes).kept herrors
  refine ⟨_, ?_, hshows, hspared⟩
  have hrun : (Program.print bytes).run streams machine =
      (.ok (machine.stream (streams.output.lineFeeds.writeAll bytes)).1,
        (machine.stream (streams.output.lineFeeds.writeAll bytes)).2) := rfl
  rw [hrun]
  simp only [Machine.stream, hanswer]
  rfl

/-- A complaint arrives among the errors, its texts one after the other. -/
theorem run_printErrorTexts (h : streams.Delivers screen errors)
    (harrived : Arrived screen errors printed complained machine.plumbing) (texts : List String) :
    ∃ later, (Program.printErrorTexts texts).run streams machine =
        (.ok (.ok ()), { machine with plumbing := later }) ∧
      Arrived screen errors printed (complained ++ Text.encode (String.join texts)) later := by
  obtain ⟨hscreen, herrors⟩ := harrived
  obtain ⟨hanswer, hshows⟩ :=
    h.error.writeParts (texts.map Text.encode) machine.plumbing _ herrors
  -- Nothing gets on the screen, since the error channel spares it.
  have hspared :=
    ((h.error_spares.lockstep printed).writeParts (texts.map Text.encode)).kept hscreen
  rw [← Text.encode_join] at hshows
  refine ⟨_, ?_, hspared, hshows⟩
  rw [Program.printErrorTexts, Program.run_printErrorParts]
  simp only [Machine.stream, hanswer]
  rfl

end Streams.Delivers

/-! ## The streams of a wiring -/

namespace Wiring

/-- An end of a wiring that never fails. -/
def destination (channel : Outgoing) : Destination Wiring := ⟨Working channel, (·.written channel)⟩

/-- Where the output and the error channel of a wiring never fail, they lose nothing. -/
theorem delivers : Wiring.streams.Delivers (destination .output) (destination .error) where
  output := (steady_sink_of_neverFails .output).meets
  error := (steady_sink_of_neverFails .error).meets
  output_spares := spares_sink (by decide)
  error_spares := spares_sink (by decide)

end Wiring

/-! ## What is read -/

/-- The node at a path, read from the working directory of a process. -/
def Process.nodeAt? (process : Process) (path : String) : Option Node :=
  process.volume.store.find? (Location.ofText (Location.resolve process.directory path))

/-- Where nothing is denied, an operation comes to what it comes to on the store. -/
theorem Volume.guarded_of_denials_eq_nil {α : Type} {volume : Volume} (h : volume.denials = [])
    (operation : Operation) (path : String) (outcome : Except Failure α) :
    volume.guarded operation path outcome = outcome := by
  rw [guarded, denies, h]
  rfl

section Read

variable (streams : Streams σ) {machine : Machine σ}
  (hdenials : machine.process.volume.denials = []) (path : String)

include hdenials

/-- Where nothing is denied, a program reads what is in the store. -/
theorem Program.run_readFile :
    (readFile path).run streams machine =
      (.ok (machine.process.volume.store.read path), machine) := by
  rw [← Volume.guarded_of_denials_eq_nil hdenials .read path
    (machine.process.volume.store.read path)]
  rfl

/-- Where nothing is denied, a program is told of what is in the store. -/
theorem Program.run_stat :
    (stat path).run streams machine =
      (.ok (machine.process.volume.store.stat path), machine) := by
  rw [← Volume.guarded_of_denials_eq_nil hdenials .stat path
    (machine.process.volume.store.stat path)]
  rfl

/-- Where nothing is denied, a program gets the listings of the store. -/
theorem Program.run_readdir :
    (readdir path).run streams machine =
      (.ok (machine.process.volume.store.readdir path), machine) := by
  rw [← Volume.guarded_of_denials_eq_nil hdenials .readdir path
    (machine.process.volume.store.readdir path)]
  rfl

end Read

end Honeypot
