import Honeypot.Stream.Wiring
import Honeypot.Proofs.Recording.Reading
import Honeypot.Proofs.Recording.Transparency
import Honeypot.Proofs.Text.Chunks

/-!
# What a recording says

Every read and every write that moves bytes becomes an event of its own, and its bytes are decoded
by themselves. So the recorded text is the one that passed only if no call ends inside a
character.

* `Sink.Reliable`: a sink that takes what it gets, be it in portions, and never fails.
* `Duplex.traffic`: the bytes that calls move at a terminal, call by call.
* `Recording.events_replies`: the events of a recording are the traffic, decoded call by call.
* `Recording.recordedText_eq_iff`: when the recorded text is the one that passed.

## References

- [SPEC] `SPEC_FULL.md`: §10, Supplementary Features
-/

namespace Honeypot

open Text (encode decode)
open Recording (Direction Event Header Log record start ended)

variable {σ τ : Type}

/-! ## Sinks that never fail -/

/-- A sink that never fails while it is working. It may take what it is offered in portions, and
has received what it took. -/
structure Sink.Reliable [Supply τ] (sink : Sink τ) (received : τ → Bytes) (working : τ → Prop) :
    Prop where
  write : ∀ bytes t, working t → bytes ≠ [] →
    ∃ n, 0 < n ∧ (sink.write bytes t).1 = .ok n ∧
      received (sink.write bytes t).2 = received t ++ bytes.take n ∧
      working (sink.write bytes t).2
  flush : ∀ t, working t → (sink.flush t).1 = .ok () ∧
    received (sink.flush t).2 = received t ∧ working (sink.flush t).2

namespace Sink.Reliable

variable [Supply τ] {sink : Sink τ} {received : τ → Bytes} {working : τ → Prop}

/-- A whole buffer is received. -/
theorem writeAll (h : sink.Reliable received working) (bytes : Bytes) {t : τ} (ht : working t) :
    (sink.writeAll bytes t).1 = .ok () ∧
      received (sink.writeAll bytes t).2 = received t ++ bytes ∧
      working (sink.writeAll bytes t).2 := by
  -- Every call takes something, so the buffer gets shorter.
  induction hlength : bytes.length using Nat.strongRecOn generalizing bytes t with
  | ind length ih =>
    by_cases hne : bytes = []
    · subst hne
      rw [writeAll_nil, List.append_nil]
      exact ⟨rfl, rfl, ht⟩
    · obtain ⟨n, hpos, hanswer, hreceived, hworking⟩ := h.write bytes t ht hne
      rcases hw : sink.write bytes t with ⟨answer, t'⟩
      rw [hw] at hanswer hreceived hworking
      dsimp only at hanswer hreceived hworking
      subst hanswer
      obtain ⟨n, rfl⟩ := Nat.exists_eq_add_one.2 hpos
      rw [sink.writeAll_of_ne_nil hne, hw]
      have hshorter : (bytes.drop (n + 1)).length < length := by
        have hbytes := List.length_pos_iff.2 hne
        rw [List.length_drop]
        omega
      have hrest := ih _ hshorter (bytes.drop (n + 1)) hworking rfl
      rw [hreceived, List.append_assoc, List.take_append_drop] at hrest
      exact hrest

/-- Buffers are received one after the other. -/
theorem writeParts (h : sink.Reliable received working) (parts : List Bytes) {t : τ}
    (ht : working t) :
    (sink.writeParts parts t).1 = .ok () ∧
      received (sink.writeParts parts t).2 = received t ++ parts.flatten ∧
      working (sink.writeParts parts t).2 := by
  induction parts generalizing t with
  | nil => exact ⟨rfl, (List.append_nil _).symm, ht⟩
  | cons part parts ih =>
    obtain ⟨hanswer, hreceived, hworking⟩ := h.writeAll part ht
    rcases hw : sink.writeAll part t with ⟨answer, t'⟩
    rw [hw] at hanswer hreceived hworking
    dsimp only at hanswer hreceived hworking
    subst hanswer
    rw [Sink.writeParts, hw, List.flatten_cons, ← List.append_assoc, ← hreceived]
    exact ih hworking

end Sink.Reliable

/-! ## Events that are written -/

namespace Recording

/-- The bytes of parts that end a line are those of the line with its line feed. -/
theorem flatten_map_encode_body (body : List String) :
    ((body ++ ["\n"]).map encode).flatten = encode (ended [body]) := by
  rw [← Text.encode_join, ended, List.flatMap_singleton]

theorem ended_append (bodies more : List (List String)) :
    ended (bodies ++ more) = ended bodies ++ ended more := by
  rw [ended, List.flatMap_append, String.join_append]
  rfl

/-- Bytes that moved in a direction, if there are any. -/
def movement (direction : Direction) (bytes : Bytes) : Option (Direction × Bytes) :=
  if bytes = [] then none else some (direction, bytes)

/-- The event of bytes that moved. -/
def Event.ofMoved (moved : Direction × Bytes) : Event :=
  ⟨moved.1, decode moved.2⟩

/-- The lines of a log as bytes. -/
def Log.written (log : Log) : Bytes := encode (ended log.bodies)

theorem Log.written_append (log more : Log) :
    Log.written (log ++ more) = log.written ++ more.written := by
  rw [written, bodies, List.map_append, ended_append, Text.encode_append]
  rfl

/-- A log has events at times that a clock shows. -/
def Log.Shows (log : Log) (clock : σ → String) (events : List Event) : Prop :=
  log.map Prod.snd = events ∧ ∀ line ∈ log, ∃ s, clock s = line.1

theorem Log.Shows.append {clock : σ → String} {log more : Log} {events later : List Event}
    (h : log.Shows clock events) (hmore : more.Shows clock later) :
    Log.Shows (log ++ more) clock (events ++ later) := by
  refine ⟨?_, ?_⟩
  · rw [List.map_append, h.1, hmore.1]
  · rw [List.forall_mem_append]
    exact ⟨h.2, hmore.2⟩

/-- Times that a clock shows are numbers if all that it shows are. -/
theorem Log.Shows.isNumber {clock : σ → String} {log : Log} {events : List Event}
    (h : log.Shows clock events) (hclock : ∀ s, Json.IsNumber (clock s)) :
    ∀ line ∈ log, Json.IsNumber line.1 := by
  intro line hline
  obtain ⟨s, hs⟩ := h.2 line hline
  exact hs ▸ hclock s

variable [Supply τ] {cast : Sink τ} {received : τ → Bytes} {working : τ → Prop}

/-- A reliable recording receives its header. -/
theorem received_start (h : cast.Reliable received working) (header : Header) {t : τ}
    (ht : working t) :
    received (start cast header t).2 = received t ++ encode (ended [header.body]) ∧
      working (start cast header t).2 := by
  obtain ⟨-, hreceived, hworking⟩ := h.writeParts (header.parts.map encode) ht
  rw [← flatten_map_encode_body]
  exact ⟨hreceived, hworking⟩

/-- A reliable recording receives the line of every event. -/
theorem received_record (h : cast.Reliable received working) (clock : τ → String)
    (direction : Direction) (bytes : Bytes) {t : τ} (ht : working t) :
    (∃ log : Log, log.Shows clock ((movement direction bytes).toList.map Event.ofMoved) ∧
        received (record clock cast direction bytes t) = received t ++ log.written) ∧
      working (record clock cast direction bytes t) := by
  unfold record movement
  by_cases hbytes : bytes = []
  · -- Where nothing moved, no line is written.
    rw [if_pos hbytes, if_pos hbytes]
    exact ⟨⟨[], ⟨rfl, by simp⟩, (List.append_nil _).symm⟩, ht⟩
  · rw [if_neg hbytes, if_neg hbytes]
    let event : Event := ⟨direction, decode bytes⟩
    obtain ⟨-, hreceived, hworking⟩ := h.writeParts ((event.parts (clock t)).map encode) ht
    refine ⟨⟨[(clock t, event)], ⟨rfl, ?_⟩, hreceived.trans ?_⟩, hworking⟩
    · exact List.forall_mem_singleton.2 ⟨t, rfl⟩
    · exact congrArg _ (flatten_map_encode_body (event.body (clock t)))

end Recording

/-! ## Traffic -/

open Recording (movement)

/-- The bytes that a call moved, as its reply tells. -/
def StreamCall.moved : StreamCall → StreamReply → Option (Direction × Bytes)
  | .read _, .read (.ok bytes) => movement .input bytes
  | .write bytes, .write (.ok n) => movement .output (bytes.take n)
  | _, _ => none

/-- The bytes that calls move at a terminal, call by call, with the direction they take. -/
def Duplex.traffic [Supply σ] (terminal : Duplex σ) :
    List StreamCall → σ → List (Direction × Bytes)
  | [], _ => []
  | call :: calls, s =>
    (call.moved (terminal.reply call s).1).toList ++
      terminal.traffic calls (terminal.reply call s).2

namespace Recording

variable [Supply σ] [Supply τ] {cast : Sink τ} {received : τ → Bytes} {working : τ → Prop}

/-- A reliable recording receives what a call moves at the terminal. -/
theorem received_reply (h : cast.Reliable received working) (terminal : Duplex σ)
    (clock : σ × τ → String) (call : StreamCall) (s : σ) {t : τ} (ht : working t) :
    (∃ log : Log,
        log.Shows clock ((call.moved (terminal.reply call s).1).toList.map Event.ofMoved) ∧
        received ((terminal.recordedBeside clock cast).reply call (s, t)).2.2 =
          received t ++ log.written) ∧
      working ((terminal.recordedBeside clock cast).reply call (s, t)).2.2 := by
  -- A call that moves nothing leaves no line.
  have hnothing {t' : τ} (h : received t' = received t) :
      ∃ log : Log, log.Shows clock [] ∧ received t' = received t ++ log.written :=
    ⟨[], ⟨rfl, by simp⟩, h.trans (List.append_nil _).symm⟩
  -- What moved is written at the time that the clock shows where the call has left the terminal.
  have hmoved (direction : Direction) (bytes : Bytes) (s' : σ) :
      (∃ log : Log, log.Shows clock ((movement direction bytes).toList.map Event.ofMoved) ∧
          received (record (fun t => clock (s', t)) cast direction bytes t) =
            received t ++ log.written) ∧
        working (record (fun t => clock (s', t)) cast direction bytes t) := by
    obtain ⟨⟨log, ⟨hevents, htimes⟩, hreceived⟩, hworking⟩ :=
      received_record h (fun t => clock (s', t)) direction bytes ht
    refine ⟨⟨log, ⟨hevents, fun line hline => ?_⟩, hreceived⟩, hworking⟩
    obtain ⟨t', ht'⟩ := htimes line hline
    exact ⟨_, ht'⟩
  cases call with
  | read most =>
    rw [Duplex.reply, Duplex.reply, Duplex.read_recordedBeside]
    rcases terminal.source.read most s with ⟨answer, s'⟩
    cases answer with
    | ok bytes => exact hmoved .input bytes s'
    | error fault => exact ⟨hnothing rfl, ht⟩
  | write bytes =>
    rw [Duplex.reply, Duplex.reply, Duplex.write_recordedBeside]
    rcases terminal.sink.write bytes s with ⟨answer, s'⟩
    cases answer with
    | ok n => exact hmoved .output (bytes.take n) s'
    | error fault => exact ⟨hnothing rfl, ht⟩
  | flush =>
    rw [Duplex.reply, Duplex.reply, Duplex.flush_recordedBeside]
    rcases terminal.sink.flush s with ⟨answer, s'⟩
    cases answer with
    | ok _ =>
      obtain ⟨-, hreceived, hworking⟩ := h.flush t ht
      exact ⟨hnothing hreceived, hworking⟩
    | error fault => exact ⟨hnothing rfl, ht⟩

/-- A reliable recording receives the traffic of the terminal. -/
theorem received_replies (h : cast.Reliable received working) (terminal : Duplex σ)
    (clock : σ × τ → String) (calls : List StreamCall) (s : σ) {t : τ} (ht : working t) :
    ∃ log : Log, log.Shows clock ((terminal.traffic calls s).map Event.ofMoved) ∧
      received ((terminal.recordedBeside clock cast).replies calls (s, t)).2.2 =
        received t ++ log.written := by
  induction calls generalizing s t with
  | nil => exact ⟨[], ⟨rfl, by simp⟩, (List.append_nil _).symm⟩
  | cons call calls ih =>
    obtain ⟨⟨log, hlog, hreceived⟩, hworking⟩ := received_reply h terminal clock call s ht
    have hstate := terminal.reply_recordedBeside_snd clock cast call s t
    rw [Duplex.replies, Duplex.traffic]
    rcases hnext : (terminal.recordedBeside clock cast).reply call (s, t) with ⟨answer, s', t'⟩
    rw [hnext] at hreceived hworking hstate
    dsimp only at hreceived hworking hstate ⊢
    -- The other calls find the terminal as it would be without the recording.
    obtain ⟨more, hmore, hlater⟩ := ih s' hworking
    refine ⟨log ++ more, ?_, ?_⟩
    · rw [List.map_append, ← hstate]
      exact hlog.append hmore
    · rw [hlater, hreceived, Log.written_append, List.append_assoc]

/-- A reliable recording that is started receives its header and the traffic of the terminal. -/
theorem received_recording (h : cast.Reliable received working) (terminal : Duplex σ)
    (clock : σ × τ → String) (header : Header) (calls : List StreamCall) (s : σ) {t : τ}
    (ht : working t) :
    ∃ log : Log, log.Shows clock ((terminal.traffic calls s).map Event.ofMoved) ∧
      received ((terminal.recordedBeside clock cast).replies calls
          (s, (start cast header t).2)).2.2 =
        received t ++ encode (ended (header.body :: log.bodies)) := by
  obtain ⟨hstart, hworking⟩ := received_start h header ht
  obtain ⟨log, hlog, hreceived⟩ := received_replies h terminal clock calls s hworking
  refine ⟨log, hlog, ?_⟩
  rw [hreceived, hstart, List.append_assoc, Log.written, ← Text.encode_append, ← ended_append,
    List.singleton_append]

/-- The events of a reliable recording are the traffic of the terminal, decoded call by call. -/
theorem events_replies (h : cast.Reliable received working) (terminal : Duplex σ)
    {clock : σ × τ → String} (hclock : ∀ pair, Json.IsNumber (clock pair)) (header : Header)
    (calls : List StreamCall) (s : σ) {t : τ} (ht : working t) (hempty : received t = []) :
    events (received ((terminal.recordedBeside clock cast).replies calls
        (s, (start cast header t).2)).2.2) =
      (terminal.traffic calls s).map Event.ofMoved := by
  obtain ⟨log, hlog, hreceived⟩ := received_recording h terminal clock header calls s ht
  rw [hreceived, hempty, List.nil_append, events_encode header (hlog.isNumber hclock), hlog.1]

/-! ## Recorded text -/

/-- The bytes that moved in a direction, call by call. -/
def chunks (direction : Direction) (traffic : List (Direction × Bytes)) : List Bytes :=
  (traffic.filter fun moved => moved.1 = direction).map Prod.snd

/-- The text that a recording has for a direction. -/
def recordedText (direction : Direction) (bytes : Bytes) : String :=
  String.join (((events bytes).filter fun event => event.direction = direction).map Event.text)

/-- The recorded text is the traffic, decoded call by call. -/
theorem recordedText_replies (h : cast.Reliable received working) (terminal : Duplex σ)
    {clock : σ × τ → String} (hclock : ∀ pair, Json.IsNumber (clock pair)) (header : Header)
    (calls : List StreamCall) (s : σ) {t : τ} (ht : working t) (hempty : received t = [])
    (direction : Direction) :
    recordedText direction (received ((terminal.recordedBeside clock cast).replies calls
        (s, (start cast header t).2)).2.2) =
      String.join ((chunks direction (terminal.traffic calls s)).map decode) := by
  rw [recordedText, events_replies h terminal hclock header calls s ht hempty, List.filter_map,
    chunks, List.map_map, List.map_map]
  rfl

/-- Reads of one byte move single bytes. -/
theorem length_of_mem_traffic (terminal : Duplex σ) {calls : List StreamCall}
    (hcalls : ∀ call ∈ calls, call = .read 1) (s : σ) :
    ∀ moved ∈ terminal.traffic calls s, moved.2.length = 1 := by
  induction calls generalizing s with
  | nil => simp [Duplex.traffic]
  | cons call calls ih =>
    rw [List.forall_mem_cons] at hcalls
    obtain ⟨rfl, hcalls⟩ := hcalls
    intro moved hmoved
    rw [Duplex.traffic, List.mem_append] at hmoved
    rcases hmoved with hmoved | hmoved
    · rw [Option.mem_toList, Duplex.reply] at hmoved
      cases hread : (terminal.source.read 1 s).1 with
      | error fault => simp [hread, StreamCall.moved] at hmoved
      | ok bytes =>
        rw [hread, StreamCall.moved, movement] at hmoved
        by_cases hbytes : bytes = []
        · simp [hbytes] at hmoved
        · rw [if_neg hbytes, Option.some.injEq] at hmoved
          subst hmoved
          -- A read of one byte gives at most one, and what moved is not empty.
          have hle := terminal.source.read_le hread
          have hpos := List.length_pos_iff.2 hbytes
          dsimp only
          omega
    · exact ih hcalls _ moved hmoved

/-- Reading a line is a list of reads of one byte each. -/
theorem exists_replies_readLineAfter (terminal : Duplex σ) (typed : Bytes) (s : σ) :
    ∃ count, (terminal.source.readLineAfter typed s).2 =
      (terminal.replies (List.replicate count (.read 1)) s).2 := by
  have hread {s s' : σ} {answer : Except Fault Bytes}
      (h : terminal.source.read 1 s = (answer, s')) : (terminal.reply (.read 1) s).2 = s' := by
    rw [Duplex.reply, h]
  -- One read of one byte for each turn of the loop, also for one that is interrupted.
  fun_induction terminal.source.readLineAfter typed s with
  | case1 typed s s' hr => exact ⟨1, (hread hr).symm⟩
  | case2 typed s bytes s' hr => exact ⟨1, (hread hr).symm⟩
  | case3 typed s byte bytes s' hr hbyte ih =>
    obtain ⟨count, hcount⟩ := ih
    refine ⟨count + 1, ?_⟩
    rw [hcount, List.replicate_succ, Duplex.replies, hread hr]
  | case4 typed s s' hr ih =>
    obtain ⟨count, hcount⟩ := ih
    refine ⟨count + 1, ?_⟩
    rw [hcount, List.replicate_succ, Duplex.replies, hread hr]
  | case5 typed s fault s' hr hfault => exact ⟨1, (hread hr).symm⟩

/-- Of the bytes that pass a recorded terminal in one direction, the recording has the text exactly
if every call moves whole characters. Where each call reads one byte, as it is done for a line,
that is the text in which every character takes one byte. The clock shows numbers. -/
theorem recordedText_eq_iff (h : cast.Reliable received working) (terminal : Duplex σ)
    {clock : σ × τ → String} (hclock : ∀ pair, Json.IsNumber (clock pair)) (header : Header)
    (calls : List StreamCall) (s : σ) {t : τ} (ht : working t) (hempty : received t = [])
    (direction : Direction) {text : String}
    (htext : (chunks direction (terminal.traffic calls s)).flatten = encode text) :
    (recordedText direction (received ((terminal.recordedBeside clock cast).replies calls
          (s, (start cast header t).2)).2.2) = text ↔
        ∀ chunk ∈ chunks direction (terminal.traffic calls s), ∃ part, chunk = encode part) ∧
      ((∀ call ∈ calls, call = .read 1) →
        (recordedText direction (received ((terminal.recordedBeside clock cast).replies calls
            (s, (start cast header t).2)).2.2) = text ↔ ∀ c ∈ text.toList, c.utf8Size = 1)) ∧
      ∃ count,
        ((terminal.recordedBeside clock cast).source.readLine (s, (start cast header t).2)).2 =
          ((terminal.recordedBeside clock cast).replies (List.replicate count (.read 1))
            (s, (start cast header t).2)).2 := by
  have hiff : recordedText direction (received ((terminal.recordedBeside clock cast).replies calls
        (s, (start cast header t).2)).2.2) = text ↔
      ∀ chunk ∈ chunks direction (terminal.traffic calls s), ∃ part, chunk = encode part := by
    rw [recordedText_replies h terminal hclock header calls s ht hempty]
    exact Text.join_decode_eq_iff htext
  refine ⟨hiff, fun hcalls => ?_, exists_replies_readLineAfter _ [] _⟩
  rw [hiff]
  refine Text.forall_exists_iff_of_length_eq_one htext fun chunk hchunk => ?_
  obtain ⟨moved, hmoved, rfl⟩ := List.mem_map.1 hchunk
  exact length_of_mem_traffic terminal hcalls s moved (List.mem_of_mem_filter hmoved)

end Recording

/-! ## A recording in memory -/

/-- Bytes that are kept in memory. -/
structure Tape where
  bytes : Bytes := []

instance : Supply Tape where
  left _ := 0

/-- The sink that keeps what it gets. -/
def Tape.sink : Sink Tape where
  write bytes tape := (.ok bytes.length, ⟨tape.bytes ++ bytes⟩)
  flush tape := (.ok (), tape)
  write_le h := Nat.le_of_eq (Except.ok.inj h).symm
  left_write_le _ _ := Nat.le_refl _
  left_write_lt _ _ h := by simp at h
  left_flush_le _ := Nat.le_refl _

theorem Tape.reliable_sink : Tape.sink.Reliable Tape.bytes fun _ => True where
  write bytes tape _ hne := by
    refine ⟨bytes.length, List.length_pos_iff.2 hne, rfl, ?_, trivial⟩
    rw [List.take_length]
    rfl
  flush _ _ := ⟨rfl, rfl, trivial⟩

namespace Recording

/-- A terminal where a line with a character of two bytes was typed. -/
def typedLine : Wiring :=
  { observerInput := (encode "é\n").map .byte }

/-- A header of a recording. -/
def plainHeader : Header := ⟨80, 24, 0, "xterm"⟩

/-- A clock that shows some microseconds until bytes have moved at the terminal, and then
seconds. -/
def coarseClock (pair : Wiring × Tape) : String :=
  if pair.1.log.length ≤ 1 then "4.2e-5" else "1.5"

theorem isNumber_coarseClock (pair : Wiring × Tape) : Json.IsNumber (coarseClock pair) := by
  unfold coarseClock
  split
  · have hwhole : Json.IsWhole ['4'] := by simp [Json.IsWhole, Json.IsDigits]
    have hplaces : Json.Places ['.', '2'] ['2'] := .some (by simp [Json.IsDigits])
    have hpower : Json.Power ['e', '-', '5'] (-5) := .negative (.inl rfl) (by simp [Json.IsDigits])
    exact ⟨_, _, .positive (.mk hwhole hplaces hpower)⟩
  · have hwhole : Json.IsWhole ['1'] := by simp [Json.IsWhole, Json.IsDigits]
    have hplaces : Json.Places ['.', '5'] ['5'] := .some (by simp [Json.IsDigits])
    exact ⟨_, _, .positive (.mk hwhole hplaces .none)⟩

/-- A line that is read in whole characters is recorded as it was typed. -/
theorem recordedText_of_whole_characters :
    (chunks .input (Wiring.observerDuplex.traffic [.read 2, .read 1] typedLine)).flatten =
        encode "é\n" ∧
      recordedText .input ((Wiring.observerDuplex.recordedBeside coarseClock Tape.sink).replies
        [.read 2, .read 1] (typedLine, (start Tape.sink plainHeader {}).2)).2.2.bytes = "é\n" := by
  have htext : (chunks .input
      (Wiring.observerDuplex.traffic [.read 2, .read 1] typedLine)).flatten = encode "é\n" := by
    decide
  refine ⟨htext, ?_⟩
  refine ((recordedText_eq_iff Tape.reliable_sink Wiring.observerDuplex isNumber_coarseClock
    plainHeader [.read 2, .read 1] typedLine trivial rfl .input htext).1).2 ?_
  have hchunks : chunks .input (Wiring.observerDuplex.traffic [.read 2, .read 1] typedLine) =
      [encode "é", encode "\n"] := by decide
  rw [hchunks]
  simp only [List.forall_mem_cons, List.not_mem_nil, false_imp_iff, implies_true, and_true]
  exact ⟨⟨_, rfl⟩, ⟨_, rfl⟩⟩

/-- A line that is read byte by byte is recorded as another one. -/
theorem recordedText_of_single_bytes :
    (chunks .input (Wiring.observerDuplex.traffic [.read 1, .read 1, .read 1] typedLine)).flatten =
        encode "é\n" ∧
      recordedText .input ((Wiring.observerDuplex.recordedBeside coarseClock Tape.sink).replies
        [.read 1, .read 1, .read 1] (typedLine, (start Tape.sink plainHeader {}).2)).2.2.bytes =
          "\uFFFD\uFFFD\n" := by
  refine ⟨by decide, ?_⟩
  rw [recordedText_replies Tape.reliable_sink Wiring.observerDuplex isNumber_coarseClock
    plainHeader [.read 1, .read 1, .read 1] typedLine trivial rfl .input]
  decide +kernel

end Recording

end Honeypot
