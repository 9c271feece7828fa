import Honeypot.Proofs.Stream.Patience

/-!
# What arrives at an end

An end that never fails takes whatever is written at it, at once or by and by. What arrives there
is what was written, in order. Streams at other ends leave it alone, whatever becomes of them.

* `Intake.all`: buffers that arrive whole, one after the other.
* `takenOf`, `Sink.Steady.view_write`: what a single write brings.
* `Sink.Spares`, `Source.Spares`: streams that leave a view of the plumbing alone; so do whole
  buffers and whole inputs over them.
* `Wiring.steady_sink_of_neverFails`, `Wiring.spares_sink`, `Wiring.spares_source`: what was written
  at an end of a wiring that never fails.
-/

namespace Honeypot

variable {σ V : Type}

/-- Buffers that arrive whole, one after the other. -/
def Intake.all : Intake Bytes where
  put bytes arrived := (.ok (), arrived ++ bytes)
  put_nil arrived := by rw [List.append_nil]
  put_append first more arrived := by
    show (_, _) = (_, _)
    rw [List.append_assoc]
  put_of_error h := by simp at h

/-- An end that never fails still does not after it was offered something. -/
theorem Outlet.NeverFails.write {outlet : Outlet} (h : outlet.NeverFails) (offered : Bytes) :
    (outlet.write offered).2.NeverFails := by
  have hafter {later : Outlet} (hlater : later.NeverFails) (taken : Bytes) :
      (later.after taken).NeverFails :=
    ⟨hlater.toIsPatient.after taken, by rw [Outlet.after, hlater.room]; rfl⟩
  have hlater {reaction : Reaction} {later : List Reaction}
      (hscript : outlet.script = reaction :: later) :
      ({ outlet with script := later } : Outlet).NeverFails :=
    ⟨h.toIsPatient.withScript fun other hmem => h.script other (hscript ▸ .tail _ hmem), h.room⟩
  unfold Outlet.write
  split
  · next hscript => exact hlater hscript
  · next hscript =>
    dsimp only
    split
    · exact hafter (hlater hscript) _
    · exact hlater hscript
  · split
    · exact hafter h _
    · exact h

variable [Supply σ]

/-- The bytes of an offer that were taken, as the answer to it tells. -/
def takenOf (bytes : Bytes) : Except Fault Nat → Bytes
  | .ok n => bytes.take n
  | .error _ => []

theorem takenOf_nil (answer : Except Fault Nat) : takenOf [] answer = [] := by
  cases answer <;> simp [takenOf]

/-- Where buffers arrive whole, what arrives of an offer is what was taken of it. -/
theorem Sink.Steady.view_write {sink : Sink σ} {ok : σ → Prop} {view : σ → Bytes}
    (h : sink.Steady ok view Intake.all) {bytes : Bytes} (hne : bytes ≠ []) {s : σ} (hs : ok s) :
    Shows ok view (sink.write bytes s).2 (view s ++ takenOf bytes (sink.write bytes s).1) := by
  obtain ⟨hlater, hmeets⟩ := h.write bytes s hne hs
  refine ⟨hlater, ?_⟩
  cases hanswer : (sink.write bytes s).1 with
  | ok n =>
    -- What is left of the buffer arrives after what was taken.
    rw [hanswer] at hmeets
    have hput : view (sink.write bytes s).2 ++ bytes.drop n = view s ++ bytes :=
      congrArg Prod.snd hmeets.2
    have hparts : view s ++ bytes = view s ++ bytes.take n ++ bytes.drop n := by
      rw [List.append_assoc, List.take_append_drop]
    exact List.append_cancel_right (hput.trans hparts)
  | error fault =>
    rw [hanswer, Intake.Meets] at hmeets
    rw [takenOf, List.append_nil]
    split at hmeets
    · exact List.append_cancel_right (congrArg Prod.snd hmeets)
    · exact absurd (congrArg Prod.fst hmeets) (by simp [Intake.all])

/-- A sink at which an empty offer leaves a view of the plumbing alone. -/
def Sink.Idle (sink : Sink σ) (ok : σ → Prop) (view : σ → V) : Prop :=
  ∀ s v, Shows ok view s v → Shows ok view (sink.write [] s).2 v

/-- Buffers that are written one after the other do to the view what one buffer with all of them
comes to. -/
theorem Sink.Meets.writeParts {sink : Sink σ} {ok : σ → Prop} {view : σ → V} {intake : Intake V}
    (h : sink.Meets ok view intake) (parts : List Bytes) :
    Alike (Shows ok view) (sink.writeParts parts) (intake.put parts.flatten) := by
  induction parts with
  | nil =>
    rintro s _ ⟨hs, rfl⟩
    rw [List.flatten_nil, intake.put_nil]
    exact ⟨rfl, hs, rfl⟩
  | cons part parts ih =>
    rintro s _ ⟨hs, rfl⟩
    have hpart := h.writeAll part s _ ⟨hs, rfl⟩
    rw [List.flatten_cons, intake.put_append, Sink.writeParts, andThen]
    generalize sink.writeAll part s = step at hpart ⊢
    generalize intake.put part (view s) = ideal at hpart ⊢
    obtain ⟨answer, s'⟩ := step
    obtain ⟨answer', v⟩ := ideal
    obtain ⟨hanswer, hs', hview⟩ := hpart
    obtain rfl : answer = answer' := hanswer
    obtain rfl : _ = v := hview
    -- The parts that follow are written only after the first has been taken in full.
    cases answer with
    | ok _ => exact ih s' _ ⟨hs', rfl⟩
    | error fault => exact ⟨rfl, hs', rfl⟩

/-- So do buffers that a steady sink takes. -/
theorem Sink.Steady.writeParts {sink : Sink σ} {ok : σ → Prop} {view : σ → V} {intake : Intake V}
    (h : sink.Steady ok view intake) (parts : List Bytes) :
    Alike (Shows ok view) (sink.writeParts parts) (intake.put parts.flatten) :=
  h.meets.writeParts parts

/-! ## Streams that leave a view alone -/

/-- A sink that leaves a view of the plumbing alone. -/
structure Sink.Spares (sink : Sink σ) (ok : σ → Prop) (view : σ → V) : Prop where
  write : ∀ bytes s v, Shows ok view s v → Shows ok view (sink.write bytes s).2 v
  flush : ∀ s v, Shows ok view s v → Shows ok view (sink.flush s).2 v

/-- A source that leaves a view of the plumbing alone. -/
structure Source.Spares (source : Source σ) (ok : σ → Prop) (view : σ → V) : Prop where
  read : ∀ most s v, Shows ok view s v → Shows ok view (source.read most s).2 v

/-- Streams that leave a view of the plumbing alone, both ways. -/
structure Duplex.Spares (duplex : Duplex σ) (ok : σ → Prop) (view : σ → V) : Prop where
  source : duplex.source.Spares ok view
  sink : duplex.sink.Spares ok view

theorem Sink.Spares.lockstep {sink : Sink σ} {ok : σ → Prop} {view : σ → V}
    (h : sink.Spares ok view) (v : V) : sink.Lockstep (Kept (Shows ok view · v)) sink where
  write bytes := by
    rintro s _ ⟨rfl, hs⟩
    exact ⟨rfl, rfl, h.write bytes s v hs⟩
  flush := by
    rintro s _ ⟨rfl, hs⟩
    exact ⟨rfl, rfl, h.flush s v hs⟩

theorem Source.Spares.lockstep {source : Source σ} {ok : σ → Prop} {view : σ → V}
    (h : source.Spares ok view) (v : V) :
    source.Lockstep (Kept (Shows ok view · v)) source where
  read most := by
    rintro s _ ⟨rfl, hs⟩
    exact ⟨rfl, rfl, h.read most s v hs⟩

/-! ## Ends of a wiring -/

namespace Wiring

/-! ### What a call leaves of the ends -/

/-- A read changes its end, and nothing else but the log. -/
theorem exists_read_eq (wiring : Wiring) (channel : Incoming) (most : Nat) :
    ∃ log, (wiring.read channel most).2 =
      { wiring.setInlet ((wiring.inlet channel).read most).2 channel with log } := by
  unfold read
  dsimp only
  split
  · split
    · exact ⟨_, rfl⟩
    · exact ⟨_, rfl⟩
  · exact ⟨_, rfl⟩

/-- A write changes its end, and nothing else but the log. -/
theorem exists_write_eq (wiring : Wiring) (channel : Outgoing) (offered : Bytes) :
    ∃ log, (wiring.write channel offered).2 =
      { wiring.setOutlet ((wiring.outlet channel).write offered).2 channel with log } := by
  unfold write
  dsimp only
  split
  · split
    · exact ⟨_, rfl⟩
    · exact ⟨_, rfl⟩
  · exact ⟨_, rfl⟩

theorem inlet_read (wiring : Wiring) (channel : Incoming) (most : Nat) :
    (wiring.read channel most).2.inlet =
      Function.update wiring.inlet channel ((wiring.inlet channel).read most).2 := by
  obtain ⟨log, hread⟩ := wiring.exists_read_eq channel most
  rw [hread]
  exact inlet_setInlet _ _ _

theorem outlet_read (wiring : Wiring) (channel : Incoming) (most : Nat) :
    (wiring.read channel most).2.outlet = wiring.outlet := by
  obtain ⟨log, hread⟩ := wiring.exists_read_eq channel most
  rw [hread]
  exact outlet_setInlet _ _ _

theorem inlet_write (wiring : Wiring) (channel : Outgoing) (offered : Bytes) :
    (wiring.write channel offered).2.inlet = wiring.inlet := by
  obtain ⟨log, hwrite⟩ := wiring.exists_write_eq channel offered
  rw [hwrite]
  exact inlet_setOutlet _ _ _

theorem outlet_write (wiring : Wiring) (channel : Outgoing) (offered : Bytes) :
    (wiring.write channel offered).2.outlet =
      Function.update wiring.outlet channel ((wiring.outlet channel).write offered).2 := by
  obtain ⟨log, hwrite⟩ := wiring.exists_write_eq channel offered
  rw [hwrite]
  exact outlet_setOutlet _ _ _

/-! ### What arrives -/

@[simp] theorem written_setInlet (wiring : Wiring) (inlet : Inlet) (place : Incoming)
    (channel : Outgoing) :
    (wiring.setInlet inlet place).written channel = wiring.written channel := by
  cases place <;> rfl

@[simp] theorem written_setOutlet (wiring : Wiring) (outlet : Outlet) (place channel : Outgoing) :
    (wiring.setOutlet outlet place).written channel = wiring.written channel := by
  cases place <;> rfl

theorem written_logged (wiring : Wiring) (crossing : Crossing) (channel : Outgoing) :
    (wiring.logged crossing).written channel =
      wiring.written channel ++ crossing.written channel := by
  simp [written, logged]

/-- Whether an end of a wiring never fails. -/
def Working (channel : Outgoing) (wiring : Wiring) : Prop :=
  (wiring.outlet channel).NeverFails

theorem working_setOutlet (wiring : Wiring) {outlet : Outlet} (h : outlet.NeverFails)
    (channel : Outgoing) : Working channel (wiring.setOutlet outlet channel) := by
  unfold Working
  rw [outlet_setOutlet, Function.update_self]
  exact h

/-- At an end that never fails everything arrives. -/
theorem steady_sink_of_neverFails (channel : Outgoing) :
    (sink channel).Steady (Working channel) (·.written channel) Intake.all where
  write bytes wiring hne hwiring := by
    obtain ⟨outlet, houtlet, hsame, hcases⟩ := write_of_isPatient hwiring.toIsPatient hne
    have hroom : outlet.room = none := hsame.trans hwiring.room
    show Working channel (wiring.write channel bytes).2 ∧ Intake.Meets _ bytes
      (wiring.written channel) ((wiring.write channel bytes).2.written channel)
      (wiring.write channel bytes).1
    -- A write is interrupted, finds no room, or takes some bytes.
    rcases hcases with hwrite | ⟨hfull, -⟩ | ⟨n, hpos, -, -, hwrite⟩
    · rw [hwrite]
      refine ⟨wiring.working_setOutlet ⟨houtlet, hroom⟩ channel, ?_⟩
      dsimp only
      rw [written_setOutlet, Intake.Meets, if_pos rfl]
    · -- An end that never fails does not run out of room.
      rw [hroom] at hfull
      exact absurd hfull (by simp)
    · have hafter : (outlet.after (bytes.take n)).room = none := by
        rw [Outlet.after, hroom]
        rfl
      rw [hwrite]
      refine ⟨wiring.working_setOutlet ⟨houtlet.after _, hafter⟩ channel, hpos, ?_⟩
      dsimp only
      rw [written_logged, written_setOutlet, Crossing.written, if_pos rfl]
      show (_, _) = (_, _)
      rw [List.append_assoc, List.take_append_drop]
  flush := by
    rintro wiring _ ⟨hwiring, rfl⟩
    refine ⟨?_, hwiring, rfl⟩
    show (if _ then _ else _) = _
    rw [hwiring.flushes]
    rfl

/-- An empty offer to an end brings nothing there. -/
theorem idle_sink (channel : Outgoing) :
    (sink channel).Idle (Working channel) (·.written channel) := by
  rintro wiring _ ⟨hworking, rfl⟩
  refine ⟨?_, ?_⟩
  · show ((wiring.write channel []).2.outlet channel).NeverFails
    rw [outlet_write, Function.update_self]
    exact Outlet.NeverFails.write hworking []
  · show (wiring.write channel []).2.written channel = wiring.written channel
    unfold Wiring.write
    rcases hwrite : (wiring.outlet channel).write [] with ⟨answer, outlet⟩
    cases answer with
    | error fault => exact written_setOutlet ..
    | ok taken =>
      have htaken : taken = [] := List.prefix_nil.1 (Outlet.write_prefix (congrArg Prod.fst hwrite))
      dsimp only
      rw [if_pos htaken, written_setOutlet]

/-- Writing at another end leaves alone what arrived at an end. -/
theorem spares_sink {place channel : Outgoing} (hne : channel ≠ place) :
    (sink place).Spares (Working channel) (·.written channel) where
  write bytes := by
    rintro wiring _ ⟨hworking, rfl⟩
    have hlater (outlet : Outlet) : Working channel (wiring.setOutlet outlet place) := by
      unfold Working
      rw [outlet_setOutlet, Function.update_of_ne hne]
      exact hworking
    simp only [sink, Wiring.write]
    rcases (wiring.outlet place).write bytes with ⟨answer, outlet⟩
    cases answer with
    | error fault => exact ⟨hlater outlet, written_setOutlet ..⟩
    | ok taken =>
      dsimp only
      split
      · exact ⟨hlater outlet, written_setOutlet ..⟩
      -- The crossing that is logged belongs to the place, and so not to the channel.
      · refine ⟨hlater outlet, ?_⟩
        dsimp only
        rw [written_logged, written_setOutlet, Crossing.written, if_neg hne.symm, List.append_nil]
  flush _ _ hshows := hshows

/-- Reading leaves alone what arrived at an end. -/
theorem spares_source (place : Incoming) (channel : Outgoing) :
    (source place).Spares (Working channel) (·.written channel) where
  read most := by
    rintro wiring _ ⟨hworking, rfl⟩
    have hlater (inlet : Inlet) : Working channel (wiring.setInlet inlet place) := by
      unfold Working
      rw [outlet_setInlet]
      exact hworking
    simp only [source, Wiring.read]
    rcases (wiring.inlet place).read most with ⟨answer, inlet⟩
    cases answer with
    | error fault => exact ⟨hlater inlet, written_setInlet ..⟩
    | ok bytes =>
      dsimp only
      split
      · exact ⟨hlater inlet, written_setInlet ..⟩
      · refine ⟨hlater inlet, ?_⟩
        dsimp only
        rw [written_logged, written_setInlet, Crossing.written, List.append_nil]

end Wiring

end Honeypot
