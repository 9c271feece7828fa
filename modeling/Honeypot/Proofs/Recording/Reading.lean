import Honeypot.Recording
import Honeypot.Proofs.Text.Numeral
import Honeypot.Proofs.Text.Quoted
import Honeypot.Proofs.Text.Split
import Honeypot.Proofs.Text.Utf8

/-!
# Recordings read back

A recording is read line by line. The header and whatever is no event are passed over, and so are
the times of the events.

* `Recording.Event.ofLine?`, `Recording.events`: the event of a line, and those of a recording.
* `Recording.Event.ofLine?_body`: the line that is written for an event reads as the event, at
  every time.
* `Recording.events_encode`: a header and the events after it are read back as these events.
-/

namespace Honeypot.Recording

open Text (encode decode)

/-! ## Reading -/

/-- The direction that a letter stands for. -/
def Direction.ofLetter? : Char → Option Direction
  | 'i' => some .input
  | 'o' => some .output
  | _ => none

/-- The event of the text that follows its time. -/
def Event.ofRest? (text : List Char) : Option Event :=
  match text with
  | ',' :: '\x22' :: letter :: '\x22' :: ',' :: '\x22' :: rest =>
    match Direction.ofLetter? letter, Text.Quoted.read rest with
    | some direction, some (text, [']']) => some ⟨direction, String.ofList text⟩
    | _, _ => none
  | _ => none

/-- The event of a line, if it is the line of one. Its time goes up to the first comma. -/
def Event.ofLine? (line : List Char) : Option Event :=
  match line with
  | '[' :: rest => ofRest? (rest.dropWhile (· ≠ ','))
  | _ => none

/-- The events of a recording. -/
def events (bytes : Bytes) : List Event :=
  (Text.pieces '\n' (decode bytes).toList).filterMap Event.ofLine?

/-! ## Lines -/

/-- Parts of a line that hold no control character. -/
def Plain (parts : List String) : Prop :=
  ∀ part ∈ parts, ∀ c ∈ part.toList, 0x20 ≤ c.toNat

theorem Plain.append {parts more : List String} (h : Plain parts) (hmore : Plain more) :
    Plain (parts ++ more) := by
  intro part hpart
  rcases List.mem_append.1 hpart with hpart | hpart
  · exact h part hpart
  · exact hmore part hpart

/-- Parts with plain parts between them are plain. -/
theorem Plain.intercalate {separator : List String} {lists : List (List String)}
    (h : Plain separator) (hlists : ∀ parts ∈ lists, Plain parts) :
    Plain (List.intercalate separator lists) := by
  induction lists with
  | nil => simp [Plain]
  | cons parts lists ih =>
    rw [List.forall_mem_cons] at hlists
    by_cases hnil : lists = []
    · subst hnil
      rw [List.intercalate_singleton]
      exact hlists.1
    · rw [List.intercalate_cons_of_ne_nil hnil]
      exact (hlists.1.append h).append (ih hlists.2)

/-- The text of quoted parts is the quoted text. -/
theorem toList_join_string (text : String) :
    (String.join (string text)).toList = Text.Quoted.encode text.toList := by
  rw [string, String.toList_join, List.flatMap_map, Text.Quoted.encode, List.flatMap]
  simp

theorem plain_string (text : String) : Plain (string text) := by
  intro part hpart c hc
  obtain ⟨chars, hchars, rfl⟩ := List.mem_map.1 hpart
  rw [String.toList_ofList] at hc
  exact Text.Quoted.le_toNat_of_mem_encode (List.mem_flatten.2 ⟨chars, hchars, hc⟩)

theorem plain_of_isNumber {text : String} (h : Json.IsNumber text) : Plain [text] := by
  obtain ⟨mantissa, exponent, hnumeral⟩ := h
  intro part hpart c hc
  rw [List.mem_singleton.1 hpart] at hc
  exact (hnumeral.mem c hc).le_toNat_and_ne.1

theorem plain_number (n : Nat) : Plain (number n) :=
  plain_of_isNumber ⟨n, 0, Json.numeral_natural n⟩

theorem plain_object {fields : List (String × List String)}
    (h : ∀ field ∈ fields, Plain field.2) : Plain (object fields) := by
  have hfields : ∀ parts ∈ fields.map (fun entry => string entry.1 ++ ":" :: entry.2),
      Plain parts := by
    intro parts hparts
    obtain ⟨field, hfield, rfl⟩ := List.mem_map.1 hparts
    have hcolon : Plain [":"] := by simp [Plain]
    exact (plain_string field.1).append (hcolon.append (h field hfield))
  have hopen : Plain ["\x7b"] := by simp [Plain]
  have hclose : Plain ["\x7d"] := by simp [Plain]
  have hcomma : Plain [","] := by simp [Plain]
  exact (hopen.append (hcomma.intercalate hfields)).append hclose

theorem plain_array {values : List (List String)} (h : ∀ value ∈ values, Plain value) :
    Plain (array values) := by
  have hopen : Plain ["["] := by simp [Plain]
  have hclose : Plain ["]"] := by simp [Plain]
  have hcomma : Plain [","] := by simp [Plain]
  exact (hopen.append (hcomma.intercalate h)).append hclose

/-- The parts of a header line before its end. -/
def Header.body (header : Header) : List String :=
  object [("version", number 2), ("width", number header.width.toNat),
    ("height", number header.height.toNat), ("timestamp", number header.started),
    ("env", object [("TERM", string header.term)])]

/-- The parts of an event line before its end. -/
def Event.body (event : Event) (time : String) : List String :=
  array [[time], string event.direction.letter, string event.text]

theorem Header.plain_body (header : Header) : Plain header.body := by
  refine plain_object ?_
  simp only [List.forall_mem_cons, List.not_mem_nil, false_imp_iff, implies_true, and_true]
  refine ⟨plain_number _, plain_number _, plain_number _, plain_number _, plain_object ?_⟩
  simp only [List.forall_mem_cons, List.not_mem_nil, false_imp_iff, implies_true, and_true]
  exact plain_string _

theorem Event.plain_body (event : Event) {time : String} (h : Json.IsNumber time) :
    Plain (event.body time) := by
  refine plain_array ?_
  simp only [List.forall_mem_cons, List.not_mem_nil, false_imp_iff, implies_true, and_true]
  exact ⟨plain_of_isNumber h, plain_string _, plain_string _⟩

/-- Plain parts hold no line feed. -/
theorem Plain.not_mem {parts : List String} (h : Plain parts) :
    '\n' ∉ (String.join parts).toList := by
  rw [String.toList_join, List.mem_flatMap]
  rintro ⟨part, hpart, hc⟩
  exact absurd (h part hpart _ hc) (by decide)

/-- The header line reads as no event. -/
theorem Header.ofLine?_body (header : Header) :
    Event.ofLine? (String.join header.body).toList = none := by
  rw [Header.body, object, String.toList_join]
  rfl

/-- A direction is written as a letter that stands for it. -/
theorem Direction.exists_encode_letter (direction : Direction) :
    ∃ letter, Text.Quoted.encode direction.letter.toList = ['\x22', letter, '\x22'] ∧
      ofLetter? letter = some direction := by
  cases direction with
  | input => exact ⟨'i', by decide, rfl⟩
  | output => exact ⟨'o', by decide, rfl⟩

/-- The line of an event in characters. -/
theorem Event.toList_body (event : Event) (time : String) :
    (String.join (event.body time)).toList =
      '[' :: (time.toList ++ ',' :: (Text.Quoted.encode event.direction.letter.toList ++
        [',', '\x22'] ++ ((Text.Quoted.encode event.text.toList).tail ++ [']']))) := by
  have htext : Text.Quoted.encode event.text.toList =
      '\x22' :: (Text.Quoted.encode event.text.toList).tail := by
    rw [Text.Quoted.encode_eq, List.tail_cons]
  have htime : [time].flatMap String.toList = time.toList := List.flatMap_singleton ..
  rw [body, array, List.intercalate_cons_cons, List.intercalate_cons_cons,
    List.intercalate_singleton]
  have hletter := toList_join_string event.direction.letter
  have hquoted := toList_join_string event.text
  rw [String.toList_join] at hletter hquoted ⊢
  simp only [List.flatMap_append, htime, hletter, hquoted]
  rw [htext]
  simp

/-- The line of an event reads as the event, whatever its time is. -/
theorem Event.ofLine?_body (event : Event) {time : String} (h : Json.IsNumber time) :
    Event.ofLine? (String.join (event.body time)).toList = some event := by
  obtain ⟨letter, hletter, hdirection⟩ := event.direction.exists_encode_letter
  obtain ⟨mantissa, exponent, hnumeral⟩ := h
  -- The time holds no comma, so the first comma is the one after it.
  have htime : ∀ c ∈ time.toList, decide (c ≠ ',') = true :=
    fun c hc => decide_eq_true (hnumeral.mem c hc).le_toNat_and_ne.2
  rw [event.toList_body, hletter, Event.ofLine?, List.dropWhile_append_of_pos htime,
    List.dropWhile_cons_of_neg (by simp)]
  simp only [List.cons_append, List.nil_append]
  rw [Event.ofRest?, Text.Quoted.read_encode, hdirection]
  simp

/-! ## Whole recordings -/

/-- The text of lines, each with a line feed at its end. -/
def ended (bodies : List (List String)) : String :=
  String.join (bodies.flatMap fun body => body ++ ["\n"])

/-- Lines that hold no line feed themselves are read one by one. -/
theorem pieces_ended {bodies : List (List String)} (h : ∀ body ∈ bodies, Plain body) :
    Text.pieces '\n' (ended bodies).toList =
      bodies.map (fun body => (String.join body).toList) ++ [[]] := by
  induction bodies with
  | nil => rfl
  | cons body bodies ih =>
    rw [List.forall_mem_cons] at h
    -- The first line is a piece of its own, as it holds no line feed.
    have hcons : (ended (body :: bodies)).toList =
        (String.join body).toList ++ '\n' :: (ended bodies).toList := by
      simp [ended]
    rw [hcons, Text.pieces_append_cons, Text.pieces_of_not_mem h.1.not_mem, ih h.2]
    rfl

/-- Events with the times of their lines. -/
abbrev Log := List (String × Event)

/-- The lines of a log. -/
def Log.bodies (log : Log) : List (List String) :=
  log.map fun line => line.2.body line.1

/-- The lines of a header and of events hold no control character. -/
theorem plain_bodies (header : Header) {log : Log} (h : ∀ line ∈ log, Json.IsNumber line.1) :
    ∀ body ∈ header.body :: log.bodies, Plain body := by
  rw [List.forall_mem_cons]
  refine ⟨header.plain_body, fun body hbody => ?_⟩
  obtain ⟨line, hline, rfl⟩ := List.mem_map.1 hbody
  exact line.2.plain_body (h line hline)

/-- A header and the events after it are read back as these events. -/
theorem events_encode (header : Header) {log : Log} (h : ∀ line ∈ log, Json.IsNumber line.1) :
    events (encode (ended (header.body :: log.bodies))) = log.map Prod.snd := by
  have hlines : (log.bodies.map fun body => (String.join body).toList).filterMap Event.ofLine? =
      log.map Prod.snd := by
    induction log with
    | nil => rfl
    | cons line log ih =>
      rw [List.forall_mem_cons] at h
      rw [List.map_cons, ← ih h.2]
      exact List.filterMap_cons_some (line.2.ofLine?_body h.1)
  rw [events, Text.decode_encode, pieces_ended (plain_bodies header h), List.map_cons,
    List.cons_append, List.filterMap_cons, header.ofLine?_body, List.filterMap_append, hlines]
  exact List.append_nil _

end Honeypot.Recording
