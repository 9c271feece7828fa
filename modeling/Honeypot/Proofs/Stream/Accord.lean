import Honeypot.Proofs.Stream.Lockstep

/-!
# Streams in accord

Two streams need not answer every call alike for the same to come of them: one may take a buffer
in portions where the other takes it whole. What counts is what whole buffers, whole lines and
whole inputs come to. That is said here by a view of the plumbing in which neither the size of the
calls nor a disturbance shows, and by what a whole buffer does to that view.

* `Shows`, `Through`: a plumbing under its view, and two plumbings whose views are related.
* `Intake`, `Sink.Meets`, `Sink.Steady`: what whole buffers do to a view, and sinks that work
  towards it call by call; `Sink.Meets.writeAll`, `Sink.Meets.lineFeeds` are what follows.
* `Reserve`, `Source.Steady`: the bytes still to come in a view, and sources that give them;
  `Source.Steady.readAll`, `Source.Steady.readLine` are what follows.
-/

namespace Honeypot

variable {σ ρ V W α : Type}

/-! ## Views of a plumbing -/

/-- A plumbing in order, under its view. -/
def Shows (ok : σ → Prop) (view : σ → V) (s : σ) (v : V) : Prop :=
  ok s ∧ view s = v

/-- Two plumbings in order whose views are related. -/
def Through (ok : σ → Prop) (view : σ → V) (ok' : ρ → Prop) (view' : ρ → W) (R : V → W → Prop)
    (s : σ) (t : ρ) : Prop :=
  ok s ∧ ok' t ∧ R (view s) (view' t)

/-- Actions go alike as far as what they do to the views does. -/
theorem AlikeUntil.through {ok : σ → Prop} {view : σ → V} {ok' : ρ → Prop} {view' : ρ → W}
    {R C : V → W → Prop} {broken : α → Prop} {one : σ → α × σ} {other : ρ → α × ρ}
    {ideal : V → α × V} {ideal' : W → α × W} (h : AlikeUntil R C broken ideal ideal')
    (hone : Alike (Shows ok view) one ideal) (hother : Alike (Shows ok' view') other ideal') :
    AlikeUntil (Through ok view ok' view' R) (Through ok view ok' view' C) broken one other := by
  rintro s t ⟨hs, ht, hviews⟩
  obtain ⟨hanswer, hok, hview⟩ := hone s _ ⟨hs, rfl⟩
  obtain ⟨hanswer', hok', hview'⟩ := hother t _ ⟨ht, rfl⟩
  unfold Through
  rw [hanswer, hanswer', hview, hview']
  exact (h _ _ hviews).imp (fun h => ⟨h.1, hok, hok', h.2⟩) fun h => ⟨h.1, hok, hok', h.2⟩

theorem Alike.through {ok : σ → Prop} {view : σ → V} {ok' : ρ → Prop} {view' : ρ → W}
    {R : V → W → Prop} {one : σ → α × σ} {other : ρ → α × ρ} {ideal : V → α × V}
    {ideal' : W → α × W} (h : Alike R ideal ideal') (hone : Alike (Shows ok view) one ideal)
    (hother : Alike (Shows ok' view') other ideal') :
    Alike (Through ok view ok' view' R) one other := by
  have huntil := AlikeUntil.through (h.until Never fun _ => True) hone hother
  exact huntil.alike fun _ _ hapart => hapart.2.2

/-! ## Sinks -/

/-- What whole buffers do to the view of an end that takes bytes. -/
structure Intake (V : Type) where
  put : Bytes → V → Except Fault Unit × V
  put_nil : ∀ v, put [] v = (.ok (), v)
  /-- A buffer is put in part by part. -/
  put_append : ∀ first more v, put (first ++ more) v = andThen (put first) (fun _ => put more) v
  /-- An end that is broken stays so. -/
  put_of_error : ∀ {bytes v fault v'}, put bytes v = (.error fault, v') →
    ∀ more ≠ [], put more v' = (.error fault, v')

namespace Intake

variable (intake : Intake V)

theorem put_append_of_ok {first : Bytes} {v v' : V} (h : intake.put first v = (.ok (), v'))
    (more : Bytes) : intake.put (first ++ more) v = intake.put more v' := by
  rw [put_append, andThen, h]

theorem put_append_of_error {first : Bytes} {v v' : V} {fault : Fault}
    (h : intake.put first v = (.error fault, v')) (more : Bytes) :
    intake.put (first ++ more) v = (.error fault, v') := by
  rw [put_append, andThen, h]

/-- Buffers that come to the same come to the same with more after them. -/
theorem put_append_congr {first first' : Bytes} {v v' : V}
    (h : intake.put first v = intake.put first' v') (more : Bytes) :
    intake.put (first ++ more) v = intake.put (first' ++ more) v' := by
  rw [put_append, put_append, andThen, andThen, h]

end Intake

/-- What an answer to an offer of bytes says about the view before and after it: what is still to be
done does to the view what all of it would have done before, and a fault other than a disturbance
is what all of it comes to. -/
def Intake.Meets (intake : Intake V) (bytes : Bytes) (v v' : V) : Except Fault Nat → Prop
  | .ok n => 0 < n ∧ intake.put (bytes.drop n) v' = intake.put bytes v
  | .error fault =>
    if fault = .interrupted then intake.put bytes v' = intake.put bytes v
    else intake.put bytes v = (.error fault, v')

variable [Supply σ]

/-- A sink whose writes work call by call towards what a whole buffer comes to. -/
def Sink.Meets (sink : Sink σ) (ok : σ → Prop) (view : σ → V) (intake : Intake V) : Prop :=
  ∀ bytes s, bytes ≠ [] → ok s → ok (sink.write bytes s).2 ∧
    intake.Meets bytes (view s) (view (sink.write bytes s).2) (sink.write bytes s).1

/-- A sink that works call by call towards what a whole buffer comes to, and whose flushes change
nothing of it. -/
structure Sink.Steady (sink : Sink σ) (ok : σ → Prop) (view : σ → V) (intake : Intake V) :
    Prop where
  write : ∀ bytes s, bytes ≠ [] → ok s → ok (sink.write bytes s).2 ∧
    intake.Meets bytes (view s) (view (sink.write bytes s).2) (sink.write bytes s).1
  flush : Alike (Shows ok view) sink.flush fun v => (.ok (), v)

namespace Sink

/-- The bytes that a terminal gets for a buffer: every line feed becomes a line end. -/
def translated (bytes : Bytes) : Bytes :=
  bytes.flatMap fun byte => if byte = Source.lineFeed then lineEnd else [byte]

@[simp] theorem translated_append (bytes more : Bytes) :
    translated (bytes ++ more) = translated bytes ++ translated more :=
  List.flatMap_append

theorem translated_lineFeed_cons (rest : Bytes) :
    translated (Source.lineFeed :: rest) = lineEnd ++ translated rest := by
  rw [translated, List.flatMap_cons, if_pos rfl]
  rfl

theorem translated_cons_of_ne {byte : UInt8} (h : byte ≠ Source.lineFeed) (rest : Bytes) :
    translated (byte :: rest) = byte :: translated rest := by
  rw [translated, List.flatMap_cons, if_neg h]
  rfl

/-- Bytes without a line feed go through as they are. -/
theorem translated_of_forall_ne {bytes : Bytes} (h : ∀ byte ∈ bytes, byte ≠ Source.lineFeed) :
    translated bytes = bytes := by
  induction bytes with
  | nil => rfl
  | cons byte rest ih =>
    rw [List.forall_mem_cons] at h
    rw [translated_cons_of_ne h.1, ih h.2]

theorem translated_ne_nil {bytes : Bytes} (h : bytes ≠ []) : translated bytes ≠ [] := by
  cases bytes with
  | nil => exact absurd rfl h
  | cons byte rest =>
    rw [translated, List.flatMap_cons]
    split <;> simp [lineEnd]

theorem ne_of_mem_untilLineFeed {bytes : Bytes} {byte : UInt8} (h : byte ∈ untilLineFeed bytes) :
    byte ≠ Source.lineFeed := by
  simpa using List.all_eq_true.1 List.all_takeWhile byte h

/-- A buffer some of whose first bytes are gone is what is left of those before its first line
feed, and then the others. -/
theorem translated_drop {bytes : Bytes} {n : Nat} (h : n ≤ (untilLineFeed bytes).length) :
    translated (bytes.drop n) =
      (untilLineFeed bytes).drop n ++ translated (bytes.drop (untilLineFeed bytes).length) := by
  have hbytes : untilLineFeed bytes ++ bytes.drop (untilLineFeed bytes).length = bytes :=
    List.prefix_iff_eq_append.1 (List.takeWhile_prefix _)
  have hplain : translated ((untilLineFeed bytes).drop n) = (untilLineFeed bytes).drop n := by
    apply translated_of_forall_ne
    intro byte hbyte
    exact ne_of_mem_untilLineFeed (List.mem_of_mem_drop hbyte)
  calc translated (bytes.drop n)
      = translated ((untilLineFeed bytes ++ bytes.drop (untilLineFeed bytes).length).drop n) := by
        rw [hbytes]
    _ = _ := by rw [List.drop_append_of_le_length h, translated_append, hplain]

theorem untilLineFeed_ne_nil {byte : UInt8} (h : byte ≠ Source.lineFeed) (rest : Bytes) :
    untilLineFeed (byte :: rest) ≠ [] := by
  simp [untilLineFeed, h]

end Sink

/-- What whole buffers do when their line feeds are translated on the way. -/
def Intake.lineFeeds (intake : Intake V) : Intake V where
  put bytes v := intake.put (Sink.translated bytes) v
  put_nil v := intake.put_nil v
  put_append first more v := by
    rw [Sink.translated_append, intake.put_append]
  put_of_error h more hmore := intake.put_of_error h _ (Sink.translated_ne_nil hmore)

namespace Sink.Meets

variable {sink : Sink σ} {ok : σ → Prop} {view : σ → V} {intake : Intake V}

/-- A whole buffer does to the view what it comes to. -/
theorem writeAll (h : sink.Meets ok view intake) (bytes : Bytes) :
    Alike (Shows ok view) (sink.writeAll bytes) (intake.put bytes) := by
  rintro s _ ⟨hs, rfl⟩
  fun_induction sink.writeAll bytes s with
  | case1 s => exact ⟨by rw [intake.put_nil], hs, by rw [intake.put_nil]⟩
  | case2 bytes s hne s' hw =>
    -- An offer of which nothing is taken leads nowhere.
    have hwrite := h bytes s hne hs
    rw [hw] at hwrite
    exact absurd hwrite.2.1 (Nat.lt_irrefl 0)
  | case3 bytes s hne n s' hw ih =>
    have hwrite := h bytes s hne hs
    rw [hw] at hwrite
    obtain ⟨hok, -, hput⟩ := hwrite
    rw [← hput]
    exact ih hok
  | case4 bytes s hne s' hw ih =>
    have hwrite := h bytes s hne hs
    rw [hw] at hwrite
    obtain ⟨hok, hput⟩ := hwrite
    rw [Intake.Meets, if_pos rfl] at hput
    rw [← hput]
    exact ih hok
  | case5 bytes s hne fault s' hw hfault =>
    have hwrite := h bytes s hne hs
    rw [hw] at hwrite
    obtain ⟨hok, hput⟩ := hwrite
    rw [Intake.Meets, if_neg hfault] at hput
    rw [hput]
    exact ⟨rfl, hok, rfl⟩

/-- What a translated buffer does to the view: the rest does what all of it would have done, and a
fault other than a disturbance is what all of it comes to. -/
theorem translate (h : sink.Meets ok view intake) (bytes : Bytes) {s : σ} (hs : ok s) :
    ok (sink.translate bytes s).2 ∧
      intake.lineFeeds.put (bytes.drop (sink.translate bytes s).1.1)
          (view (sink.translate bytes s).2) = intake.lineFeeds.put bytes (view s) ∧
      ((sink.translate bytes s).1.2 = none → (sink.translate bytes s).1.1 = bytes.length) ∧
      ∀ fault ≠ .interrupted, (sink.translate bytes s).1.2 = some fault →
        intake.lineFeeds.put bytes (view s) = (.error fault, view (sink.translate bytes s).2) := by
  fun_induction sink.translate bytes s with
  | case1 s => exact ⟨hs, rfl, fun _ => rfl, fun _ _ hnone => by simp at hnone⟩
  | case2 s rest s' hw through ih =>
    -- A whole line end got through, and the rest of the buffer is translated after it.
    obtain ⟨v, hput, hok, rfl⟩ := (h.writeAll lineEnd).of_eq ⟨hs, rfl⟩ hw
    obtain ⟨hlater, hrest, hlength, hstop⟩ := ih hok
    have hline : intake.lineFeeds.put (Source.lineFeed :: rest) (view s) =
        intake.lineFeeds.put rest (view s') := by
      show intake.put _ _ = _
      rw [translated_lineFeed_cons, intake.put_append_of_ok hput]
      rfl
    rw [hline]
    exact ⟨hlater, hrest, fun hnone => congrArg (· + 1) (hlength hnone), hstop⟩
  | case3 s rest fault s' hw =>
    obtain ⟨v, hput, hok, rfl⟩ := (h.writeAll lineEnd).of_eq ⟨hs, rfl⟩ hw
    have hline : intake.lineFeeds.put (Source.lineFeed :: rest) (view s) =
        (.error fault, view s') := by
      show intake.put _ _ = _
      rw [translated_lineFeed_cons, intake.put_append_of_error hput]
    refine ⟨hok, ?_, fun hnone => by simp at hnone, fun fault' _ hsome => ?_⟩
    · rw [hline]
      exact intake.lineFeeds.put_of_error hline _ (List.cons_ne_nil _ _)
    · obtain rfl := Option.some.inj hsome
      exact hline
  | case4 s byte rest hbyte s' hw =>
    have hwrite := h _ s (untilLineFeed_ne_nil hbyte rest) hs
    rw [hw] at hwrite
    exact absurd hwrite.2.1 (Nat.lt_irrefl 0)
  | case5 s byte rest hbyte n s' hw through ih =>
    have hwrite := h _ s (untilLineFeed_ne_nil hbyte rest) hs
    have hle := sink.write_le (congrArg Prod.fst hw)
    rw [hw] at hwrite
    obtain ⟨hok, -, hput⟩ := hwrite
    obtain ⟨hlater, hrest, hlength, hstop⟩ := ih hok
    -- What is left of the bytes up to the line feed comes to the same, and so does the rest.
    have hline : intake.lineFeeds.put (rest.drop n) (view s') =
        intake.lineFeeds.put (byte :: rest) (view s) := by
      show intake.put (translated ((byte :: rest).drop (n + 1))) _ =
        intake.put (translated ((byte :: rest).drop 0)) _
      rw [translated_drop hle, translated_drop (Nat.zero_le _)]
      exact intake.put_append_congr hput _
    refine ⟨hlater, ?_, fun hnone => ?_, ?_⟩
    · rw [← hline, ← hrest, List.drop_drop]
      dsimp only [through]
      rw [Nat.add_comm _ (n + 1), Nat.add_right_comm, List.drop_succ_cons]
    · have := hlength hnone
      rw [List.length_drop] at this
      have := length_untilLineFeed_le (byte :: rest)
      simp only [List.length_cons, through] at *
      omega
    · rw [← hline]
      exact hstop
  | case6 s byte rest hbyte fault s' hw =>
    have hwrite := h _ s (untilLineFeed_ne_nil hbyte rest) hs
    rw [hw] at hwrite
    obtain ⟨hok, hput⟩ := hwrite
    have hall (v : V) : intake.lineFeeds.put (byte :: rest) v =
        intake.put (untilLineFeed (byte :: rest) ++
          translated ((byte :: rest).drop (untilLineFeed (byte :: rest)).length)) v := by
      show intake.put (translated ((byte :: rest).drop 0)) v = _
      rw [translated_drop (Nat.zero_le _)]
      rfl
    rw [Intake.Meets] at hput
    split at hput
    · next hfault =>
      refine ⟨hok, ?_, fun hnone => by simp at hnone, fun fault' hfault' hsome => ?_⟩
      · rw [List.drop_zero, hall, hall]
        exact intake.put_append_congr hput _
      · exact absurd (Option.some.inj hsome ▸ hfault) hfault'
    · have hline := (hall (view s)).trans (intake.put_append_of_error hput _)
      refine ⟨hok, ?_, fun hnone => by simp at hnone, fun fault' _ hsome => ?_⟩
      · rw [hline]
        exact intake.lineFeeds.put_of_error hline _ (List.cons_ne_nil _ _)
      · obtain rfl := Option.some.inj hsome
        exact hline

/-- A sink that translates line feeds on the way to another one works towards its translation. -/
theorem lineFeeds (h : sink.Meets ok view intake) :
    sink.lineFeeds.Meets ok view intake.lineFeeds := by
  intro bytes s hne hs
  obtain ⟨hok, hrest, hlength, hstop⟩ := h.translate bytes hs
  rw [lineFeeds_write]
  rcases hthrough : sink.translate bytes s with ⟨⟨n, stop⟩, s'⟩
  rw [hthrough] at hok hrest hlength hstop
  refine ⟨hok, ?_⟩
  dsimp only at hrest hlength hstop ⊢
  cases n with
  | zero =>
    cases stop with
    -- Nothing taken and no fault is how the empty text alone is answered.
    | none => exact absurd (List.length_eq_zero_iff.1 (hlength rfl).symm) hne
    | some fault =>
      rw [reported, Intake.Meets]
      split
      · exact hrest
      · next hfault => exact hstop fault hfault rfl
  | succ n => exact ⟨Nat.succ_pos n, hrest⟩

end Sink.Meets

namespace Sink.Steady

variable {sink : Sink σ} {ok : σ → Prop} {view : σ → V} {intake : Intake V}

/-- The writes of a steady sink work towards what a whole buffer comes to. -/
theorem meets (h : sink.Steady ok view intake) : sink.Meets ok view intake :=
  h.write

/-- A whole buffer does to the view what it comes to. -/
theorem writeAll (h : sink.Steady ok view intake) (bytes : Bytes) :
    Alike (Shows ok view) (sink.writeAll bytes) (intake.put bytes) :=
  h.meets.writeAll bytes

/-- A sink that translates line feeds on the way to a steady one is steady. -/
theorem lineFeeds (h : sink.Steady ok view intake) :
    sink.lineFeeds.Steady ok view intake.lineFeeds where
  write := h.meets.lineFeeds
  flush := h.flush

end Sink.Steady

/-! ## Sources -/

/-- The bytes that are still to come at an end, in a view, and how the view goes on when some of
them are read. -/
structure Reserve (V : Type) where
  pending : V → Bytes
  consume : Nat → V → V
  consume_zero : ∀ v, consume 0 v = v
  consume_add : ∀ n more v, consume (n + more) v = consume more (consume n v)
  pending_consume : ∀ n v, pending (consume n v) = (pending v).drop n

namespace Reserve

variable (reserve : Reserve V)

/-- Everything that is still to come. -/
def everything (v : V) : Except Fault Bytes × V :=
  (.ok (reserve.pending v), reserve.consume (reserve.pending v).length v)

/-- The line that is still to come after bytes that were typed already, the last of them first. -/
def lineAfter (typed : Bytes) (v : V) : Except Fault (Option Bytes) × V :=
  let line := Sink.untilLineFeed (reserve.pending v)
  (.ok (if reserve.pending v = [] ∧ typed = [] then none else some (typed.reverse ++ line)),
    reserve.consume (min (line.length + 1) (reserve.pending v).length) v)

/-- The next line, with the line feed after it gone. -/
def line (v : V) : Except Fault (Option Bytes) × V := reserve.lineAfter [] v

variable {reserve} {reserve' : Reserve W} {R : V → W → Prop}

/-- Where the same is to come, everything goes alike. -/
theorem alike_everything (hpending : ∀ v w, R v w → reserve.pending v = reserve'.pending w)
    (hconsume : ∀ v w, R v w → ∀ n, R (reserve.consume n v) (reserve'.consume n w)) :
    Alike R reserve.everything reserve'.everything := by
  intro v w h
  rw [everything, everything, hpending v w h]
  exact ⟨rfl, hconsume v w h _⟩

/-- Where the same is to come, lines go alike. -/
theorem alike_line (hpending : ∀ v w, R v w → reserve.pending v = reserve'.pending w)
    (hconsume : ∀ v w, R v w → ∀ n, R (reserve.consume n v) (reserve'.consume n w)) :
    Alike R reserve.line reserve'.line := by
  intro v w h
  rw [line, line, lineAfter, lineAfter, hpending v w h]
  exact ⟨rfl, hconsume v w h _⟩

end Reserve

/-- A source that gives what is to come in portions, and nothing only at the end; it may be
disturbed between them. -/
structure Source.Steady (source : Source σ) (ok : σ → Prop) (view : σ → V) (reserve : Reserve V) :
    Prop where
  read : ∀ most s, 0 < most → ok s →
    ok (source.read most s).2 ∧
      match (source.read most s).1 with
      | .ok bytes => (bytes = [] → reserve.pending (view s) = []) ∧
        bytes = (reserve.pending (view s)).take bytes.length ∧
        view (source.read most s).2 = reserve.consume bytes.length (view s)
      | .error fault => fault = .interrupted ∧ view (source.read most s).2 = view s

namespace Source.Steady

variable {source : Source σ} {ok : σ → Prop} {view : σ → V} {reserve : Reserve V}

/-- Reading to the end gives everything that is still to come. -/
theorem readAll (h : source.Steady ok view reserve) :
    Alike (Shows ok view) source.readAll reserve.everything := by
  rintro s _ ⟨hs, rfl⟩
  fun_induction source.readAll s with
  | case1 s s' hr =>
    have hread := h.read bufferSize s (by decide) hs
    rw [hr] at hread
    obtain ⟨hok, hend, -, hview⟩ := hread
    unfold Reserve.everything
    rw [hend rfl]
    exact ⟨rfl, hok, hview⟩
  | case2 s byte bytes s' hr more s'' ha ih =>
    have hread := h.read bufferSize s (by decide) hs
    rw [hr] at hread
    obtain ⟨hok, -, htake, hview⟩ := hread
    rw [ha] at ih
    obtain ⟨hmore, hok', hview'⟩ := ih hok
    -- What came first and what came later are the two parts of what was to come.
    have hparts : byte :: bytes ++ more = reserve.pending (view s) := by
      rw [Except.ok.inj hmore, hview, reserve.pending_consume]
      conv => lhs; arg 1; rw [htake]
      exact List.take_append_drop _ _
    refine ⟨congrArg Except.ok hparts, hok', ?_⟩
    show view s'' = reserve.consume (reserve.pending (view s)).length (view s)
    rw [hview', Reserve.everything, ← Except.ok.inj hmore, hview, ← reserve.consume_add, ← hparts,
      List.length_append]
  | case3 s byte bytes s' hr fault s'' ha ih =>
    have hread := h.read bufferSize s (by decide) hs
    rw [hr] at hread
    rw [ha] at ih
    have hanswer := (ih hread.1).1
    simp [Reserve.everything] at hanswer
  | case4 s s' hr ih =>
    have hread := h.read bufferSize s (by decide) hs
    rw [hr] at hread
    obtain ⟨hok, -, hview⟩ := hread
    rw [← hview]
    exact ih hok
  | case5 s fault s' hr hfault =>
    have hread := h.read bufferSize s (by decide) hs
    rw [hr] at hread
    exact absurd hread.2.1 hfault

/-- A read of one byte gives the next one. -/
theorem read_one (h : source.Steady ok view reserve) {s s' : σ} {byte : UInt8} {bytes : Bytes}
    (hs : ok s) (hr : source.read 1 s = (.ok (byte :: bytes), s')) :
    ok s' ∧ view s' = reserve.consume 1 (view s) ∧
      ∃ rest, reserve.pending (view s) = byte :: rest ∧ reserve.pending (view s') = rest := by
  have hread := h.read 1 s Nat.one_pos hs
  have hle := source.read_le (congrArg Prod.fst hr)
  rw [hr] at hread
  obtain ⟨hok, -, htake, hview⟩ := hread
  obtain rfl : bytes = [] := by simpa using hle
  refine ⟨hok, hview, ?_⟩
  cases hpending : reserve.pending (view s) with
  | nil => simp [hpending] at htake
  | cons first rest =>
    obtain rfl : byte = first := by simpa [hpending] using htake
    refine ⟨rest, rfl, ?_⟩
    rw [hview, reserve.pending_consume, hpending]
    rfl

/-- Reading on in a line gives the line that is still to come. -/
theorem readLineAfter (h : source.Steady ok view reserve) (typed : Bytes) :
    Alike (Shows ok view) (source.readLineAfter typed) (reserve.lineAfter typed) := by
  rintro s _ ⟨hs, rfl⟩
  fun_induction source.readLineAfter typed s with
  | case1 typed s s' hr =>
    have hread := h.read 1 s Nat.one_pos hs
    rw [hr] at hread
    obtain ⟨hok, hend, -, hview⟩ := hread
    unfold Reserve.lineAfter
    rw [hend rfl]
    exact ⟨by simp [Sink.untilLineFeed], hok, hview⟩
  | case2 typed s bytes s' hr =>
    obtain ⟨hok, hview, rest, hpending, -⟩ := h.read_one hs hr
    unfold Reserve.lineAfter
    rw [hpending]
    refine ⟨by simp [Sink.untilLineFeed], hok, ?_⟩
    rw [hview]
    simp [Sink.untilLineFeed]
  | case3 typed s byte bytes s' hr hbyte ih =>
    obtain ⟨hok, hview, rest, hpending, hrest⟩ := h.read_one hs hr
    obtain ⟨hanswer, hok', hview'⟩ := ih hok
    have hline : Sink.untilLineFeed (byte :: rest) = byte :: Sink.untilLineFeed rest := by
      simp [Sink.untilLineFeed, hbyte]
    -- The byte is now the last one typed, and the line goes on after it.
    unfold Reserve.lineAfter at hanswer hview' ⊢
    rw [hrest] at hanswer hview'
    rw [hpending, hline]
    refine ⟨hanswer.trans (by simp), hok', hview'.trans ?_⟩
    dsimp only
    rw [hview, ← reserve.consume_add, List.length_cons, List.length_cons, Nat.add_min_add_right,
      Nat.add_comm 1]
  | case4 typed s s' hr ih =>
    have hread := h.read 1 s Nat.one_pos hs
    rw [hr] at hread
    obtain ⟨hok, -, hview⟩ := hread
    rw [← hview]
    exact ih hok
  | case5 typed s fault s' hr hfault =>
    have hread := h.read 1 s Nat.one_pos hs
    rw [hr] at hread
    exact absurd hread.2.1 hfault

/-- Reading a line gives the next line. -/
theorem readLine (h : source.Steady ok view reserve) :
    Alike (Shows ok view) source.readLine reserve.line :=
  h.readLineAfter []

end Source.Steady

end Honeypot
