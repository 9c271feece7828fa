import Honeypot.Recording
import Honeypot.Stream.Wiring
import Honeypot.Proofs.Shell.Lockstep
import Honeypot.Proofs.Stream.Calls

/-!
# What a recording leaves alone

A recorded terminal gets the calls that are made, whatever happens to the recording. Its replies
get through too, with one exception: a flush of the recording that fails is reported in the place
of a flush of the terminal that succeeded.

* `Duplex.recordedBeside`: a terminal whose recording goes to a plumbing of its own.
* `Duplex.FlushesPass`: no flush of the recording fails where the terminal's succeeds.
* `Duplex.replies_recordedBeside`: the terminal always sees the same, and the replies are the same
  exactly if the flushes pass.
* `Shell.recordedBeside_lockstep`: a shell goes through the same session if flushes never fail.
* `Duplex.recordedBeside_transparent`: both together.

## References

- [SPEC] `SPEC_FULL.md`: §10, Supplementary Features
-/

namespace Honeypot

open Recording (record)

variable {σ τ : Type}

/-! ## Sessions with a recording beside them -/

/-- The plumbing of a terminal with that of a calm recording, beside the terminal's alone. -/
def Beside (calm : τ → Prop) (pair : σ × τ) (s : σ) : Prop :=
  pair.1 = s ∧ calm pair.2

/-- The session with the plumbing of a recording beside its own. -/
def Session.beside (session : Session σ) (t : τ) : Session (σ × τ) where
  machine := ⟨session.machine.process, (session.machine.plumbing, t), session.machine.reports⟩
  status := session.status

/-- A session beside a related one is that one with a further plumbing. -/
theorem Session.Related.eq_beside {calm : τ → Prop} {one : Session (σ × τ)} {other : Session σ}
    (h : one.Related (Beside calm) other) : one = other.beside one.machine.plumbing.2 := by
  obtain ⟨⟨process, ⟨s, t⟩, reports⟩, status⟩ := one
  obtain ⟨⟨process', s', reports'⟩, status'⟩ := other
  obtain ⟨⟨rfl, ⟨rfl, _⟩, rfl⟩, rfl⟩ := h
  rfl

variable [Supply σ] [Supply τ]

/-- A terminal whose traffic is recorded, the recording going to a plumbing of its own. -/
def Duplex.recordedBeside (terminal : Duplex σ) (clock : σ × τ → String) (cast : Sink τ) :
    Duplex (σ × τ) :=
  terminal.first.recorded clock cast.second

/-- An event that is written beside a terminal leaves the terminal alone. -/
theorem Recording.record_second (clock : σ × τ → String) (cast : Sink τ)
    (direction : Recording.Direction) (moved : Bytes) (s : σ) (t : τ) :
    record clock cast.second direction moved (s, t) =
      (s, record (fun t => clock (s, t)) cast direction moved t) := by
  unfold record
  by_cases hmoved : moved = []
  · rw [if_pos hmoved, if_pos hmoved]
  · rw [if_neg hmoved, if_neg hmoved]
    exact ((cast.second_lockstep s).writeParts _ (s, t) t rfl).2

namespace Duplex

variable (terminal : Duplex σ) (clock : σ × τ → String) (cast : Sink τ)

/-! ## One call -/

/-- A read gives what the terminal gives. -/
theorem read_recordedBeside (most : Nat) (s : σ) (t : τ) :
    (terminal.recordedBeside clock cast).source.read most (s, t) =
      match terminal.source.read most s with
      | (.ok bytes, s') => (.ok bytes, (s', record (fun t => clock (s', t)) cast .input bytes t))
      | (.error fault, s') => (.error fault, (s', t)) := by
  simp only [recordedBeside, recorded, Source.recorded, first, Source.first]
  rcases terminal.source.read most s with ⟨answer, s'⟩
  cases answer with
  | ok bytes => simp only [Recording.record_second]
  | error fault => rfl

/-- A write takes what the terminal takes. -/
theorem write_recordedBeside (bytes : Bytes) (s : σ) (t : τ) :
    (terminal.recordedBeside clock cast).sink.write bytes (s, t) =
      match terminal.sink.write bytes s with
      | (.ok n, s') =>
        (.ok n, (s', record (fun t => clock (s', t)) cast .output (bytes.take n) t))
      | (.error fault, s') => (.error fault, (s', t)) := by
  simp only [recordedBeside, recorded, Sink.recorded, first, Sink.first]
  rcases terminal.sink.write bytes s with ⟨answer, s'⟩
  cases answer with
  | ok n => simp only [Recording.record_second]
  | error fault => rfl

/-- A flush goes to the terminal, and then to the recording. -/
theorem flush_recordedBeside (s : σ) (t : τ) :
    (terminal.recordedBeside clock cast).sink.flush (s, t) =
      match terminal.sink.flush s with
      | (.ok (), s') => ((cast.flush t).1, (s', (cast.flush t).2))
      | (.error fault, s') => (.error fault, (s', t)) := by
  simp only [recordedBeside, recorded, Sink.recorded, first, Sink.first]
  rcases terminal.sink.flush s with ⟨answer, s'⟩
  cases answer <;> rfl

/-- A call leaves the terminal as it does without recording. -/
theorem reply_recordedBeside_snd (call : StreamCall) (s : σ) (t : τ) :
    ((terminal.recordedBeside clock cast).reply call (s, t)).2.1 = (terminal.reply call s).2 := by
  cases call with
  | read most =>
    rw [reply, reply, read_recordedBeside]
    rcases terminal.source.read most s with ⟨answer, s'⟩
    cases answer <;> rfl
  | write bytes =>
    rw [reply, reply, write_recordedBeside]
    rcases terminal.sink.write bytes s with ⟨answer, s'⟩
    cases answer <;> rfl
  | flush =>
    rw [reply, reply, flush_recordedBeside]
    rcases terminal.sink.flush s with ⟨answer, s'⟩
    cases answer <;> rfl

/-- A call passes if it is not a flush that succeeds at the terminal and fails at the recording. -/
def Passes (call : StreamCall) (s : σ) (t : τ) : Prop :=
  call = .flush → (terminal.sink.flush s).1 = .ok () → (cast.flush t).1 = .ok ()

/-- The reply to a call is that of the terminal exactly if the call passes. -/
theorem reply_recordedBeside_fst (call : StreamCall) (s : σ) (t : τ) :
    ((terminal.recordedBeside clock cast).reply call (s, t)).1 = (terminal.reply call s).1 ↔
      terminal.Passes cast call s t := by
  cases call with
  | read most =>
    refine iff_of_true ?_ (by simp [Passes])
    rw [reply, reply, read_recordedBeside]
    rcases terminal.source.read most s with ⟨answer, s'⟩
    cases answer <;> rfl
  | write bytes =>
    refine iff_of_true ?_ (by simp [Passes])
    rw [reply, reply, write_recordedBeside]
    rcases terminal.sink.write bytes s with ⟨answer, s'⟩
    cases answer <;> rfl
  -- The only call whose answer depends on the cast.
  | flush =>
    rw [reply, reply, flush_recordedBeside]
    simp only [Passes, true_implies, StreamReply.flush.injEq]
    rcases terminal.sink.flush s with ⟨answer, s'⟩
    cases answer with
    | ok _ => simp
    | error fault => simp

/-! ## All calls -/

/-- Along a list of calls, no flush of the recording fails where the terminal's succeeds. -/
def FlushesPass : List StreamCall → σ × τ → Prop
  | [], _ => True
  | call :: calls, s =>
    terminal.Passes cast call s.1 s.2 ∧
      FlushesPass calls ((terminal.recordedBeside clock cast).reply call s).2

/-- Whatever calls are made, the terminal is left as without recording. The replies are those of
the terminal exactly if the flushes of the recording pass. -/
theorem replies_recordedBeside (calls : List StreamCall) (s : σ) (t : τ) :
    ((terminal.recordedBeside clock cast).replies calls (s, t)).2.1 =
        (terminal.replies calls s).2 ∧
      (((terminal.recordedBeside clock cast).replies calls (s, t)).1 =
          (terminal.replies calls s).1 ↔
        terminal.FlushesPass clock cast calls (s, t)) := by
  induction calls generalizing s t with
  | nil => exact ⟨rfl, iff_of_true rfl trivial⟩
  | cons call calls ih =>
    -- The state of the terminal never depends on the recording, so the later replies can be
    -- compared from one state whether or not this one differs.
    have hstate := terminal.reply_recordedBeside_snd clock cast call s t
    have hreply := terminal.reply_recordedBeside_fst clock cast call s t
    rw [replies, replies, FlushesPass]
    rcases hnext : (terminal.recordedBeside clock cast).reply call (s, t) with ⟨answer, s', t'⟩
    rw [hnext] at hstate hreply
    obtain ⟨hlater, hreplies⟩ := ih s' t'
    dsimp only at hstate hreply ⊢
    rw [← hstate, List.cons.injEq, hreply, hreplies]
    exact ⟨hlater, Iff.rfl⟩

end Duplex

/-! ## Sessions -/

/-- A condition under which flushes of a sink succeed, and which calls on the sink keep. -/
structure Sink.Calm (sink : Sink τ) (calm : τ → Prop) : Prop where
  write : ∀ bytes t, calm t → calm (sink.write bytes t).2
  flush : ∀ t, calm t → (sink.flush t).1 = .ok () ∧ calm (sink.flush t).2

/-- Events are written calmly: what every call keeps is kept by whole buffers. -/
theorem Sink.Calm.record {cast : Sink τ} {calm : τ → Prop} (h : cast.Calm calm)
    (clock : τ → String) (direction : Recording.Direction) (moved : Bytes) {t : τ} (ht : calm t) :
    calm (record clock cast direction moved t) := by
  -- A calm sink is in lockstep with itself, which carries over to whole buffers.
  have hself : cast.Lockstep (fun t t' => t = t' ∧ calm t) cast := by
    constructor
    · rintro bytes t _ ⟨rfl, ht⟩
      exact ⟨rfl, rfl, h.write bytes t ht⟩
    · rintro t _ ⟨rfl, ht⟩
      exact ⟨rfl, rfl, (h.flush t ht).2⟩
  unfold Recording.record
  by_cases hmoved : moved = []
  · rwa [if_pos hmoved]
  · rw [if_neg hmoved]
    exact (hself.writeParts _ t t ⟨rfl, ht⟩).2.2

variable {calm : τ → Prop}

/-- A terminal with a calm recording is in lockstep with the terminal alone. -/
theorem Duplex.recordedBeside_lockstep (terminal : Duplex σ) (clock : σ × τ → String)
    {cast : Sink τ} (h : cast.Calm calm) :
    (terminal.recordedBeside clock cast).Lockstep (Beside calm) terminal where
  source.read := by
    rintro most ⟨_, t⟩ s ⟨rfl, ht⟩
    rw [read_recordedBeside]
    rcases terminal.source.read most _ with ⟨answer, s'⟩
    cases answer with
    | ok bytes => exact ⟨rfl, rfl, h.record (fun t => clock (s', t)) .input bytes ht⟩
    | error fault => exact ⟨rfl, rfl, ht⟩
  sink.write := by
    rintro bytes ⟨_, t⟩ s ⟨rfl, ht⟩
    rw [write_recordedBeside]
    rcases terminal.sink.write bytes _ with ⟨answer, s'⟩
    cases answer with
    | ok n => exact ⟨rfl, rfl, h.record (fun t => clock (s', t)) .output _ ht⟩
    | error fault => exact ⟨rfl, rfl, ht⟩
  sink.flush := by
    rintro ⟨_, t⟩ s ⟨rfl, ht⟩
    rw [flush_recordedBeside]
    rcases terminal.sink.flush _ with ⟨answer, s'⟩
    cases answer with
    | ok _ => exact ⟨(h.flush t ht).1, rfl, (h.flush t ht).2⟩
    | error fault => exact ⟨rfl, rfl, ht⟩

/-- The streams on the first plumbing of a pair. -/
def Streams.first (streams : Streams σ) : Streams (σ × τ) :=
  ⟨streams.input.first, streams.output.first, streams.error.first⟩

/-- Streams go on the first plumbing of a pair as on their own. -/
theorem Streams.first_lockstep (streams : Streams σ) :
    (streams.first : Streams (σ × τ)).Lockstep (Beside calm) streams := by
  have hsource (source : Source σ) :
      (source.first : Source (σ × τ)).Lockstep (Beside calm) source := by
    constructor
    rintro most ⟨_, t⟩ s ⟨rfl, ht⟩
    exact ⟨rfl, rfl, ht⟩
  have hsink (sink : Sink σ) : (sink.first : Sink (σ × τ)).Lockstep (Beside calm) sink := by
    constructor
    · rintro bytes ⟨_, t⟩ s ⟨rfl, ht⟩
      exact ⟨rfl, rfl, ht⟩
    · rintro ⟨_, t⟩ s ⟨rfl, ht⟩
      exact ⟨rfl, rfl, ht⟩
  exact ⟨hsource _, hsink _, hsource _, hsink _⟩

/-- The shell whose terminal is recorded, the recording going to a plumbing of its own. -/
def Shell.recordedBeside (shell : Shell σ) (terminal : Duplex σ) (clock : σ × τ → String)
    (cast : Sink τ) : Shell (σ × τ) where
  registry := shell.registry
  streams := shell.streams.first
  recorder := some (terminal.recordedBeside clock cast)
  hostname := shell.hostname
  user := shell.user
  home := shell.home

/-- A shell whose terminal is recorded calmly goes through the same session as one that has the
terminal itself as its recorder. -/
theorem Shell.run_recordedBeside (shell : Shell σ) (terminal : Duplex σ) (clock : σ × τ → String)
    {cast : Sink τ} (h : cast.Calm calm) (session : Session σ) {t : τ} (ht : calm t) :
    ∃ t', (shell.recordedBeside terminal clock cast).run (session.beside t) =
      (({ shell with recorder := some terminal }.run session).1,
        ({ shell with recorder := some terminal }.run session).2.beside t') := by
  have hlockstep : (shell.recordedBeside terminal clock cast).Lockstep (Beside calm)
      { shell with recorder := some terminal } :=
    ⟨rfl, shell.streams.first_lockstep, .some (terminal.recordedBeside_lockstep clock h), rfl, rfl,
      rfl⟩
  have hrelated : (session.beside t).Related (Beside calm) session :=
    ⟨⟨rfl, ⟨rfl, ht⟩, rfl⟩, rfl⟩
  obtain ⟨hanswer, hlater⟩ := Shell.run_lockstep hlockstep _ _ hrelated
  exact ⟨_, Prod.ext hanswer hlater.eq_beside⟩

/-- Recording leaves a terminal alone, whatever the clock shows: it gets the calls that are made and
no others, and is left as without recording. The replies to the calls are its own exactly if no
flush of the recording fails where the terminal's succeeds. Where flushes of the recording never
fail, a shell goes through the session that it has with the terminal itself as its recorder. -/
theorem Duplex.recordedBeside_transparent (terminal : Duplex σ) (clock : σ × τ → String)
    (cast : Sink τ) :
    (∀ calls s t,
      ((terminal.traced.recordedBeside (fun pair => clock (pair.1.1, pair.2)) cast).replies calls
            ((s, []), t)).2.1 = ((terminal.replies calls s).2, calls) ∧
        (((terminal.recordedBeside clock cast).replies calls (s, t)).1 =
            (terminal.replies calls s).1 ↔
          terminal.FlushesPass clock cast calls (s, t))) ∧
    ∀ calm, cast.Calm calm → ∀ (shell : Shell σ) (session : Session σ) (t : τ), calm t →
      ∃ t', (shell.recordedBeside terminal clock cast).run (session.beside t) =
        (({ shell with recorder := some terminal }.run session).1,
          ({ shell with recorder := some terminal }.run session).2.beside t') := by
  constructor
  · intro calls s t
    obtain ⟨htraced, -⟩ := terminal.traced.replies_recordedBeside
      (fun pair => clock (pair.1.1, pair.2)) cast calls (s, []) t
    rw [terminal.replies_traced, List.nil_append] at htraced
    exact ⟨htraced, (terminal.replies_recordedBeside clock cast calls s t).2⟩
  · intro calm hcalm shell session t ht
    exact shell.run_recordedBeside terminal clock hcalm session ht

/-- Whether flushing an end of a wiring fails does not change by writing. -/
theorem Outlet.flushFails_write (outlet : Outlet) (offered : Bytes) :
    (outlet.write offered).2.flushFails = outlet.flushFails := by
  unfold write
  split
  · rfl
  · dsimp only
    split <;> rfl
  · split <;> rfl

/-- A recording whose flushes succeed is calm, even if it takes nothing. -/
theorem Wiring.calm_cast :
    (Wiring.sink .cast).Calm fun wiring => wiring.cast.flushFails = false where
  write bytes wiring h := by
    have hcast : ((Wiring.sink .cast).write bytes wiring).2.cast = (wiring.cast.write bytes).2 := by
      simp only [Wiring.sink, Wiring.write, Wiring.outlet]
      rcases wiring.cast.write bytes with ⟨answer, outlet⟩
      cases answer with
      | ok taken => by_cases htaken : taken = [] <;> simp [htaken, setOutlet, logged]
      | error fault => rfl
    rw [hcast, Outlet.flushFails_write, h]
  flush wiring h := by
    simp [Wiring.sink, Wiring.flush, Wiring.outlet, h]

/-- A session of the user `root` in an empty filesystem, who types one line. -/
def oneLine : Session Wiring where
  machine :=
    { process := ⟨"console", "/", Dictionary.empty, .ofStore .empty, ⟨80, 24⟩, .insertion⟩
      plumbing := { observerInput := (Text.encode "exit 3\n").map .byte } }

/-- A shell without commands. -/
def bareShell : Shell Wiring :=
  ⟨Registry.ofList [], ⟨Wiring.source .input, Wiring.sink .output, Wiring.observerDuplex⟩, none,
    "host", "root", "/"⟩

/-- A recording that takes no byte goes unnoticed as long as flushing it succeeds. -/
theorem transparent_beside_full_recording :
    ((Wiring.sink .cast).Calm fun wiring => wiring.cast.flushFails = false) ∧
      ∃ later, (bareShell.recordedBeside Wiring.observerDuplex (fun _ => "0.5")
            (Wiring.sink .cast)).run (oneLine.beside { cast := { room := some 0 } }) =
        (({ bareShell with recorder := some Wiring.observerDuplex }.run oneLine).1,
          ({ bareShell with recorder := some Wiring.observerDuplex }.run oneLine).2.beside
            later) := by
  refine ⟨Wiring.calm_cast, ?_⟩
  exact (Duplex.recordedBeside_transparent Wiring.observerDuplex (fun _ => "0.5")
    (Wiring.sink .cast)).2 _ Wiring.calm_cast bareShell oneLine { cast := { room := some 0 } } rfl

/-- A recording that cannot be flushed makes a flush of the terminal fail. -/
theorem flush_beside_failing_recording :
    (Wiring.observerDuplex.replies [.flush] {}).1 = [.flush (.ok ())] ∧
      ((Wiring.observerDuplex.recordedBeside (fun _ => "0.5") (Wiring.sink .cast)).replies [.flush]
        (({} : Wiring), ({ cast := { flushFails := true } } : Wiring))).1 =
          [.flush (.error .brokenPipe)] :=
  ⟨rfl, rfl⟩

end Honeypot
