import Honeypot.Proofs.Recording.Events
import Honeypot.Proofs.Text.Json

/-!
# A recording is a faithful log

The lines of a recording are JSON texts. Read as JSON they give back the header and the events that
were written, whatever the bytes of the events are. And the events of a terminal that is recorded
are the movements of bytes at that terminal, one line each: calls that fail or move nothing leave no
line.

* `Recording.Says`: parts of a line that are the text of a JSON value.
* `Header.says_body`, `Event.says_body`: the values of the lines.
* `Recording.read`: the header and the events of a recording.
* `Recording.read_encode`: what was written is read back.
* `Recording.faithful`: the log of a terminal.

## References

- [SPEC] `SPEC_FULL.md`: §10, Supplementary Features
-/

namespace Honeypot.Recording

open Text (encode decode)
open Json (Reads valueWithin)

/-! ## Lines as JSON texts -/

/-- Whether parts are the text of a value, in which arrays and objects stand in each other to at
most a depth. -/
def Says (depth : Nat) (parts : List String) (value : Json) : Prop :=
  Reads (valueWithin depth) (String.join parts).toList value

variable {depth : Nat}

theorem says_string (text : String) : Says depth (string text) (.string text) := by
  rw [Says, toList_join_string]
  exact Json.reads_string text depth

theorem says_number (n : Nat) : Says depth (number n) (.number n 0) := by
  have hnumber : String.join (number n) = toString n := by simp [number]
  rw [Says, hnumber]
  exact Json.reads_numeral (Json.numeral_natural n) depth

/-- Parts with commas between them are the texts of the parts with commas between them. -/
theorem toList_join_intercalate (lists : List (List String)) :
    (String.join (List.intercalate [","] lists)).toList =
      List.intercalate [','] (lists.map fun parts => (String.join parts).toList) := by
  induction lists with
  | nil => rfl
  | cons parts lists ih =>
    -- There is no comma after the last of the parts.
    by_cases hlast : lists = []
    · subst hlast
      rw [List.intercalate_singleton, List.map_singleton, List.intercalate_singleton]
    · have hmore : (lists.map fun parts => (String.join parts).toList) ≠ [] := by simpa using hlast
      rw [List.map_cons, List.intercalate_cons_of_ne_nil hlast,
        List.intercalate_cons_of_ne_nil hmore, ← ih, String.join_append, String.join_append,
        String.toList_append, String.toList_append]
      rfl

theorem says_array {values : List (List String)} {elements : List Json}
    (h : List.Forall₂ (Says depth) values elements) :
    Says (depth + 1) (array values) (.array elements) := by
  have htext : (String.join (array values)).toList =
      '[' :: (List.intercalate [','] (values.map fun parts => (String.join parts).toList) ++
        [']']) := by
    rw [array, String.join_append, String.join_append, String.toList_append, String.toList_append,
      toList_join_intercalate]
    rfl
  rw [Says, htext]
  exact Json.reads_array (List.forall₂_map_left_iff.2 h)

/-- The text of a field is its name with the text of its value. -/
theorem toList_join_field (field : String × List String) :
    (String.join (string field.1 ++ ":" :: field.2)).toList =
      Json.named (field.1, (String.join field.2).toList) := by
  rw [String.join_append, String.toList_append, toList_join_string, String.join_cons,
    String.toList_append]
  rfl

theorem says_object {fields : List (String × List String)} {values : List (String × Json)}
    (h : List.Forall₂ (fun field value => field.1 = value.1 ∧ Says depth field.2 value.2)
      fields values) :
    Says (depth + 1) (object fields) (.object values) := by
  have htext : (String.join (object fields)).toList =
      '\x7b' :: (List.intercalate [','] ((fields.map fun field =>
        (field.1, (String.join field.2).toList)).map Json.named) ++ ['\x7d']) := by
    rw [object, String.join_append, String.join_append, String.toList_append, String.toList_append,
      toList_join_intercalate, List.map_map, List.map_map]
    simp only [Function.comp_def, toList_join_field]
    rfl
  rw [Says, htext]
  exact Json.reads_object (List.forall₂_map_left_iff.2 h)

/-! ## Headers and events -/

/-- The value of a header line. -/
def Header.json (header : Header) : Json :=
  .object [("version", .number 2 0), ("width", .number header.width.toNat 0),
    ("height", .number header.height.toNat 0), ("timestamp", .number header.started 0),
    ("env", .object [("TERM", .string header.term)])]

/-- The value of an event line whose time is the number `mantissa * 10 ^ exponent`. -/
def Event.json (event : Event) (mantissa exponent : Int) : Json :=
  .array [.number mantissa exponent, .string event.direction.letter, .string event.text]

theorem Header.says_body (header : Header) : Says (depth + 2) header.body header.json := by
  have henv : Says (depth + 1) (object [("TERM", string header.term)])
      (.object [("TERM", .string header.term)]) :=
    says_object (.cons ⟨rfl, says_string _⟩ .nil)
  apply says_object
  exact .cons ⟨rfl, says_number 2⟩ (.cons ⟨rfl, says_number _⟩ (.cons ⟨rfl, says_number _⟩
    (.cons ⟨rfl, says_number _⟩ (.cons ⟨rfl, henv⟩ .nil))))

theorem Event.says_body (event : Event) {time : String} {mantissa exponent : Int}
    (h : Json.Numeral time.toList mantissa exponent) :
    Says (depth + 1) (event.body time) (event.json mantissa exponent) := by
  have htime : Says depth [time] (.number mantissa exponent) := by
    have hjoin : String.join [time] = time := by simp
    rw [Says, hjoin]
    exact Json.reads_numeral h depth
  apply says_array
  exact .cons htime (.cons (says_string _) (.cons (says_string _) .nil))

/-- The value of a name in an object. -/
def field? (name : String) : Json → Option Json
  | .object fields => (fields.find? (·.1 = name)).map Prod.snd
  | _ => none

/-- A natural number. -/
def natural? : Json → Option Nat
  | .number (.ofNat n) 0 => some n
  | _ => none

/-- A natural number of 32 bits. -/
def size? (value : Json) : Option UInt32 :=
  (natural? value).bind fun n => if n < UInt32.size then some (.ofNat n) else none

/-- A string. -/
def text? : Json → Option String
  | .string text => some text
  | _ => none

/-- The direction that a letter stands for. -/
def Direction.ofText? (letter : String) : Option Direction :=
  [Direction.input, .output].find? (·.letter = letter)

/-- The header that a value gives, if it is the second version of the format. -/
def Header.ofJson? (value : Json) : Option Header := do
  let version ← (field? "version" value).bind natural?
  let width ← (field? "width" value).bind size?
  let height ← (field? "height" value).bind size?
  let started ← (field? "timestamp" value).bind natural?
  let term ← ((field? "env" value).bind (field? "TERM")).bind text?
  if version = 2 then some ⟨width, height, started, term⟩ else none

/-- The event that a value gives, at any time. -/
def Event.ofJson? : Json → Option Event
  | .array [.number _ _, .string letter, .string text] =>
    (Direction.ofText? letter).map fun direction => ⟨direction, text⟩
  | _ => none

theorem size?_toNat (n : UInt32) : size? (.number n.toNat 0) = some n := by
  have hlt : n.toNat < UInt32.size := n.toNat_lt
  show (if n.toNat < UInt32.size then _ else _) = _
  rw [if_pos hlt, UInt32.ofNat_toNat]

theorem Header.ofJson?_json (header : Header) : ofJson? header.json = some header := by
  have hwidth : (field? "width" header.json).bind size? = some header.width :=
    size?_toNat header.width
  have hheight : (field? "height" header.json).bind size? = some header.height :=
    size?_toNat header.height
  rw [ofJson?, hwidth, hheight]
  rfl

theorem Event.ofJson?_json (event : Event) (mantissa exponent : Int) :
    ofJson? (event.json mantissa exponent) = some event := by
  rcases event with ⟨_ | _, text⟩
  · rfl
  · rfl

/-! ## Whole recordings -/

/-- The header and the events of a recording: every line is a JSON text, the first one that of the
header, and a line feed stands at the end of the last one. -/
def read (bytes : Bytes) : Option (Header × List Event) :=
  match Text.pieces '\n' (decode bytes).toList with
  | [] => none
  | first :: rest =>
    if rest.getLast? = some [] then do
      let header ← (Json.parse first).bind Header.ofJson?
      let events ← rest.dropLast.mapM fun line => (Json.parse line).bind Event.ofJson?
      some (header, events)
    else none

/-- The line of an event is read as the event, at whatever time it happened. -/
theorem Event.parse_body (event : Event) {time : String} (h : Json.IsNumber time) :
    (Json.parse (String.join (event.body time)).toList).bind ofJson? = some event := by
  obtain ⟨mantissa, exponent, hnumeral⟩ := h
  rw [Json.parse_of_reads (event.says_body hnumeral), Option.bind_some, event.ofJson?_json]

/-- The lines of a header and of events are read back as these. -/
theorem read_encode (header : Header) {log : Log} (h : ∀ line ∈ log, Json.IsNumber line.1) :
    read (encode (ended (header.body :: log.bodies))) = some (header, log.map Prod.snd) := by
  have hheader : (Json.parse (String.join header.body).toList).bind Header.ofJson? =
      some header := by
    rw [Json.parse_of_reads header.says_body, Option.bind_some, header.ofJson?_json]
  -- The lines after the header are read one by one, whatever their times.
  have hevents : (log.bodies.map fun body => (String.join body).toList).mapM
      (fun line => (Json.parse line).bind Event.ofJson?) = some (log.map Prod.snd) := by
    clear hheader
    induction log with
    | nil => rfl
    | cons line log ih =>
      rw [List.forall_mem_cons] at h
      rw [Log.bodies, List.map_cons, List.map_cons, List.mapM_cons, ← Log.bodies, ih h.2,
        line.2.parse_body h.1]
      rfl
  -- The text is cut into just these lines, as none of them holds a line feed.
  rw [read, Text.decode_encode, pieces_ended (plain_bodies header h), List.map_cons,
    List.cons_append]
  dsimp only
  rw [List.getLast?_concat, if_pos rfl, List.dropLast_concat, hheader]
  show Option.bind ((log.bodies.map fun body => (String.join body).toList).mapM _) _ = _
  rw [hevents]
  rfl

/-! ## Recorded terminals -/

variable {σ τ : Type} [Supply σ] [Supply τ] {cast : Sink τ} {received : τ → Bytes}
  {working : τ → Prop}

/-- What calls move at a terminal shows in its replies. -/
theorem traffic_eq_filterMap (terminal : Duplex σ) (calls : List StreamCall) (s : σ) :
    terminal.traffic calls s =
      (calls.zip (terminal.replies calls s).1).filterMap fun step => step.1.moved step.2 := by
  induction calls generalizing s with
  | nil => rfl
  | cons call calls ih =>
    rw [Duplex.traffic, Duplex.replies, List.zip_cons_cons, List.filterMap_cons, ih]
    cases call.moved (terminal.reply call s).1 with
    | none => rfl
    | some moved => rfl

/-- A recording that never fails lets all flushes pass. -/
theorem flushesPass_of_reliable (h : cast.Reliable received working) (terminal : Duplex σ)
    (clock : σ × τ → String) (calls : List StreamCall) (s : σ) {t : τ} (ht : working t) :
    terminal.FlushesPass clock cast calls (s, t) := by
  induction calls generalizing s t with
  | nil => trivial
  | cons call calls ih =>
    obtain ⟨-, hlater⟩ := received_reply h terminal clock call s ht
    exact ⟨fun _ _ => (h.flush t ht).1, ih _ hlater⟩

/-- A recording that never fails is a faithful log of the terminal, whatever the terminal does. It
is started, and the calls get the replies of the terminal. Then it has received the line of the
header and, in the order of the calls, one line for every call that moved bytes, with a time that
the clock showed, the direction of the call and the text of just the bytes that it moved. All lines
are JSON texts, from which the header and these events are read back, if what the clock shows are
the texts of JSON numbers. -/
theorem faithful (h : cast.Reliable received working) (terminal : Duplex σ)
    {clock : σ × τ → String} (hclock : ∀ pair, Json.IsNumber (clock pair)) (header : Header)
    (calls : List StreamCall) (s : σ) {t : τ} (ht : working t) :
    let started := start cast header t
    let later := (terminal.recordedBeside clock cast).replies calls (s, started.2)
    let replies := (terminal.replies calls s).1
    let events := ((calls.zip replies).filterMap fun step => step.1.moved step.2).map Event.ofMoved
    started.1 = .ok () ∧ later.1 = replies ∧
      ∃ (log : Log) (recorded : Bytes), received later.2.2 = received t ++ recorded ∧
        (log.map Prod.snd = events ∧ ∀ line ∈ log, ∃ pair, clock pair = line.1) ∧
        recorded = encode (ended (header.body :: log.bodies)) ∧
        read recorded = some (header, events) := by
  intro started later replies events
  obtain ⟨-, hworking⟩ := received_start h header ht
  have hstarted : started.1 = .ok () := (h.writeParts (header.parts.map encode) ht).1
  -- A recording that never fails has no part in the replies.
  have hreplies : later.1 = replies :=
    (terminal.replies_recordedBeside clock cast calls s started.2).2.2
      (flushesPass_of_reliable h terminal clock calls s hworking)
  obtain ⟨log, hlog, hreceived⟩ := received_recording h terminal clock header calls s ht
  -- One line was added for each call that moved bytes, at the time that the clock showed.
  rw [traffic_eq_filterMap] at hlog
  refine ⟨hstarted, hreplies, log, _, hreceived, hlog, rfl, ?_⟩
  rw [read_encode header (hlog.isNumber hclock), hlog.1]

/-- A terminal that takes one byte of a first write and none of a second, and where a line with a
backslash was typed before the input broke. -/
def fickleTerminal : Wiring where
  observerInput := (encode "x\\").map .byte ++ [.fault .brokenPipe]
  observer := { script := [.accept 1, .fail .brokenPipe] }

/-- Of a terminal that takes bytes in part and fails, the recording has what passed. -/
theorem faithful_fickleTerminal :
    let calls : List StreamCall := [.write (encode "\"q"), .read 4, .write [1], .read 4, .flush,
      .write [], .write [0xFF, 0x0A]]
    let later := (Wiring.observerDuplex.recordedBeside coarseClock Tape.sink).replies calls
      (fickleTerminal, (start Tape.sink plainHeader {}).2)
    read later.2.2.bytes = some (plainHeader,
      [⟨.output, "\""⟩, ⟨.input, "x\\"⟩, ⟨.output, "\uFFFD\n"⟩]) := by
  intro calls later
  obtain ⟨-, -, -, recorded, hreceived, -, -, hread⟩ :=
    faithful Tape.reliable_sink Wiring.observerDuplex isNumber_coarseClock plainHeader calls
      fickleTerminal trivial
  have hbytes : later.2.2.bytes = recorded := hreceived
  rw [hbytes, hread]
  decide +kernel

/-- The lines of such a recording have the times at which bytes passed. -/
example :
    let calls : List StreamCall := [.write (encode "\"q"), .read 4]
    let later := (Wiring.observerDuplex.recordedBeside coarseClock Tape.sink).replies calls
      (fickleTerminal, {})
    later.2.2.bytes = encode "[4.2e-5,\"o\",\"\\\"\"]\n[1.5,\"i\",\"x\\\\\"]\n" := by
  decide +kernel

end Honeypot.Recording
