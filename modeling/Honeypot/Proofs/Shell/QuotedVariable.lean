import Honeypot.Proofs.Shell.Quotation
import Honeypot.Proofs.Shell.References

/-!
# A variable in double quotes

A variable is replaced before the line is cut into words, so the reader of words meets its value as
if that had been typed. In double quotes it takes the value for one word and leaves it as it is, but
only if nothing in the value means anything there: no double quote, and no backslash that escapes
what comes after it, be that the quote at the end.

* `Words.IsVerbatim`: values that stand for themselves in double quotes.
* `Words.length_add_overhead_le`: words are no longer than what was typed for them.
* `Words.splitFrom_enclosed_iff`: a value in double quotes is read as itself just if it is verbatim.
* `Shell.words_enclosedVariable`: what a variable in double quotes comes to in a shell.

## References

- [SPEC] `SPEC_FULL.md`: §10, Supplementary Features
-/

namespace Honeypot

namespace Words

variable {c : Char} {value : List Char} {words : List String}

/-! ## Verbatim values -/

/-- Whether a value stands for itself in double quotes: it holds no such quote, and no backslash in
it comes before a character that is escaped there. After the last character comes the quote that
closes. -/
def IsVerbatim (value : List Char) : Prop :=
  '\x22' ∉ value ∧ ∀ c ∈ escapable, ¬ ['\\', c] <:+: value ++ ['\x22']

theorem isVerbatim_nil : IsVerbatim [] := by
  refine ⟨List.not_mem_nil, fun c _ hinfix => ?_⟩
  have hle := hinfix.length_le
  simp at hle

theorem isVerbatim_cons :
    IsVerbatim (c :: value) ↔ c ≠ '\x22' ∧
      (c = '\\' → ∀ next ∈ (value ++ ['\x22']).head?, next ∉ escapable) ∧ IsVerbatim value := by
  have hfirst (d : Char) : ['\\', d] <+: c :: (value ++ ['\x22']) ↔
      c = '\\' ∧ d ∈ (value ++ ['\x22']).head? := by
    rw [List.cons_prefix_cons, eq_comm, List.singleton_prefix_iff_head?_eq_some]
    rfl
  unfold IsVerbatim
  simp only [List.mem_cons, not_or, List.cons_append, List.infix_cons_iff, hfirst]
  constructor
  · rintro ⟨⟨hquote, hvalue⟩, hescape⟩
    refine ⟨Ne.symm hquote, fun hc next hnext hmem => (hescape next hmem).1 ⟨hc, hnext⟩, hvalue, ?_⟩
    exact fun d hd => (hescape d hd).2
  · rintro ⟨hquote, hescape, hvalue, hlater⟩
    refine ⟨⟨Ne.symm hquote, hvalue⟩, fun d hd => ⟨?_, hlater d hd⟩⟩
    exact fun ⟨hc, hnext⟩ => hescape hc d hnext hd

/-- Whether a value is verbatim shows character by character. -/
instance decidableIsVerbatim : DecidablePred IsVerbatim
  | [] => isTrue isVerbatim_nil
  | _ :: value =>
    have := decidableIsVerbatim value
    -- At most one character comes next, so there is no need to try all that there are.
    have : Decidable (∀ next ∈ (value ++ ['\x22']).head?, next ∉ escapable) :=
      Option.decidableForallMem _
    decidable_of_iff _ isVerbatim_cons.symm

/-- What comes first after a value in double quotes does not depend on what comes after the
quotes. -/
theorem head?_append_quote (value rest : List Char) :
    (value ++ '\x22' :: rest).head? = (value ++ ['\x22']).head? := by
  cases value with
  | nil => rfl
  | cons c value => rfl

/-- In double quotes a verbatim value adds itself to the word. -/
theorem splitFrom_verbatim (h : IsVerbatim value) (word rest : List Char) :
    splitFrom .double (some word) (value ++ '\x22' :: rest) =
      splitFrom .bare (some (value.reverse ++ word)) rest := by
  induction value generalizing word with
  | nil => exact splitFrom_close_double
  | cons c value ih =>
    obtain ⟨hquote, hescape, hvalue⟩ := isVerbatim_cons.1 h
    rw [List.cons_append, splitFrom_double hquote, push_some, ih hvalue, List.reverse_cons,
      List.append_assoc]
    · rfl
    · intro hc next hnext
      rw [head?_append_quote] at hnext
      rw [isEscapable_iff]
      exact hescape hc next hnext

/-! ## What quoting costs -/

/-- How many characters of a text are surely in none of its words: one if a quotation is to be
closed in it, or if it holds a double quote. -/
def overhead (quoting : Quoting) (text : List Char) : Nat :=
  if quoting = .bare ∧ '\x22' ∉ text then 0 else 1

theorem add_overhead_le {n m : Nat} (h : n + 1 ≤ m) (quoting : Quoting) (text : List Char) :
    n + overhead quoting text ≤ m := by
  unfold overhead
  split
  · exact Nat.le_of_succ_le h
  · exact h

theorem overhead_of_ne_bare {quoting : Quoting} (h : quoting ≠ .bare) (text : List Char) :
    overhead quoting text = 1 :=
  if_neg fun hbare => h hbare.1

theorem overhead_quote_mem {text : List Char} (h : '\x22' ∈ text) (quoting : Quoting) :
    overhead quoting text = 1 :=
  if_neg fun hbare => hbare.2 h

theorem overhead_cons_of_ne (h : c ≠ '\x22') (quoting : Quoting) (rest : List Char) :
    overhead quoting (c :: rest) = overhead quoting rest := by
  simp [overhead, Ne.symm h]

theorem length_getD_push (c : Char) (word : Option (List Char)) :
    ((push c word).getD []).length = (word.getD []).length + 1 := rfl

theorem length_getD_begun (word : Option (List Char)) :
    ((begun word).getD []).length = (word.getD []).length := rfl

theorem length_flatMap_finished (word : Option (List Char)) :
    ((finished word).flatMap String.toList).length = (word.getD []).length := by
  cases word with
  | none => rfl
  | some word => simp

/-- The words of a text, with what was begun before it, have no more characters than were typed,
less those that are surely in none of them. -/
theorem length_add_overhead_le {quoting : Quoting} {word : Option (List Char)} {text : List Char}
    (h : splitFrom quoting word text = .ok words) :
    (words.flatMap String.toList).length + overhead quoting text ≤
      (word.getD []).length + text.length := by
  -- The reader puts a character into a word at each step, except at a blank, at a quote that opens
  -- or closes and at a backslash that escapes.
  fun_induction splitFrom quoting word text generalizing words with
  | case1 word =>
    obtain rfl := Except.ok.inj h
    exact Nat.le_of_eq (length_flatMap_finished word)
  | case2 | case3 => simp at h
  | case4 word rest ih | case8 word rest _ ih =>
    have hrest := ih h
    apply add_overhead_le
    rw [List.length_cons]
    omega
  | case5 word c rest _ ih | case7 word c rest _ ih | case9 word c rest _ _ ih =>
    have hrest := ih h
    rw [overhead_of_ne_bare (by decide), length_getD_push] at hrest
    apply add_overhead_le
    rw [List.length_cons]
    omega
  | case6 word c rest _ ih | case10 word c rest ih =>
    have hrest := ih h
    rw [length_getD_push] at hrest
    apply add_overhead_le
    rw [List.length_cons, List.length_cons]
    omega
  | case11 word rest _ ih | case12 word rest _ _ ih =>
    have hrest := ih h
    rw [overhead_of_ne_bare (by decide), length_getD_begun] at hrest
    apply add_overhead_le
    rw [List.length_cons]
    omega
  | case13 word rest _ _ _ ih =>
    have hrest := ih h
    rw [length_getD_begun] at hrest
    apply add_overhead_le
    rw [List.length_cons]
    omega
  | case14 word c rest _ _ _ _ _ ih =>
    -- A blank is in no word, and the words after it are counted by themselves.
    obtain ⟨later, hlater, rfl⟩ : ∃ later, splitFrom .bare none rest = .ok later ∧
        finished word ++ later = words := by
      cases hlater : splitFrom .bare none rest with
      | error quotation => simp [hlater, Functor.map, Except.map] at h
      | ok later => exact ⟨later, rfl, Except.ok.inj (by rwa [hlater] at h)⟩
    have hrest := ih hlater
    rw [Option.getD_none, List.length_nil] at hrest
    apply add_overhead_le
    rw [List.flatMap_append, List.length_append, length_flatMap_finished, List.length_cons]
    omega
  | case15 word c rest _ _ hquote _ _ ih =>
    have hrest := ih h
    rw [length_getD_push] at hrest
    rw [overhead_cons_of_ne hquote, List.length_cons]
    omega

/-! ## Values in double quotes -/

/-- A value in double quotes that has lost nothing was verbatim. -/
theorem isVerbatim_of_splitFrom {word : List Char}
    (h : splitFrom .double (some word) (value ++ ['\x22']) = .ok words)
    (hlength : word.length + value.length ≤ (words.flatMap String.toList).length) :
    IsVerbatim value := by
  induction value generalizing word with
  | nil => exact isVerbatim_nil
  | cons c value ih =>
    rw [List.length_cons] at hlength
    have hquote : c ≠ '\x22' := by
      rintro rfl
      -- The quote closes, and the one at the end is still to be read.
      rw [List.cons_append, splitFrom_close_double] at h
      have hle := length_add_overhead_le h
      rw [overhead_quote_mem (by simp), Option.getD_some, List.length_append] at hle
      simp only [List.length_singleton] at hle
      omega
    have hescape : c = '\\' → ∀ next ∈ (value ++ ['\x22']).head?, next ∉ escapable := by
      rintro rfl next hnext hmem
      -- The backslash is lost, and a quote is to be closed after it.
      obtain ⟨later, hlater⟩ := List.head?_eq_some_iff.1 hnext
      rw [List.cons_append, hlater, (Item.escaped hmem).splitFrom, push_some] at h
      have hle := length_add_overhead_le h
      have hparts := congrArg List.length hlater
      rw [overhead_of_ne_bare (by decide), Option.getD_some, List.length_cons] at hle
      rw [List.length_append, List.length_singleton, List.length_cons] at hparts
      omega
    have hplain : splitFrom .double (some word) (c :: value ++ ['\x22']) =
        splitFrom .double (some (c :: word)) (value ++ ['\x22']) :=
      (Item.plain hquote hescape).splitFrom
    rw [hplain] at h
    refine isVerbatim_cons.2 ⟨hquote, hescape, ih h ?_⟩
    rw [List.length_cons]
    omega

/-- A value in double quotes is one word, equal to the value, just if it is verbatim. -/
theorem splitFrom_enclosed_iff :
    splitFrom .bare none ('\x22' :: (value ++ ['\x22'])) = .ok [String.ofList value] ↔
      IsVerbatim value := by
  rw [splitFrom_open_double, begun_none]
  constructor
  · intro h
    apply isVerbatim_of_splitFrom h
    simp
  · intro h
    rw [splitFrom_verbatim h, List.append_nil, splitFrom, finished_some, List.reverse_reverse]

/-- What is typed for a variable in double quotes. -/
def enclosedVariable (name : String) : String :=
  "\x22$" ++ name ++ "\x22"

theorem toList_enclosedVariable (name : String) :
    (enclosedVariable name).toList = '\x22' :: '$' :: (name.toList ++ ['\x22']) := by
  simp [enclosedVariable]

end Words

/-! ## Variables in double quotes -/

namespace Expansion

open Userland (IsIdentifier IsNameChar)
open Words

variable (status : Status) (lookUp : String → Option String)

/-- Outside single quotes a variable is replaced by its value, or by nothing if it is not set. -/
theorem valueFrom_variable {quoting : Quoting} (h : quoting ≠ .single) {name : String}
    (hname : IsIdentifier name) {rest : List Char}
    (hrest : ∀ next ∈ rest.head?, ¬ IsNameChar next) :
    valueFrom status lookUp quoting ('$' :: (name.toList ++ rest)) =
      ((lookUp name).getD "").toList ++ valueFrom status lookUp quoting rest := by
  have hrefers := Refers.named hname.toList_ne_nil hname.isNameChar hrest
  rw [valueFrom, piecesFrom_reference h (refers_iff.1 hrefers), List.flatMap_cons, Piece.value,
    Reference.value, String.ofList_toList]
  rfl

/-- In double quotes a variable is replaced, and the quotes stay. -/
theorem valueFrom_enclosedVariable {name value : String} (hname : IsIdentifier name)
    (hvalue : lookUp name = some value) :
    valueFrom status lookUp .bare (enclosedVariable name).toList =
      '\x22' :: (value.toList ++ ['\x22']) := by
  have hquote : ∀ next ∈ ['\x22'].head?, ¬ IsNameChar next := by
    intro next hnext
    obtain rfl : '\x22' = next := Option.some.inj hnext
    rw [← isNameChar_iff]
    decide
  rw [toList_enclosedVariable, valueFrom_plain status lookUp (.inr (by decide))]
  show '\x22' :: valueFrom status lookUp .double _ = _
  rw [valueFrom_variable status lookUp (by decide) hname hquote, hvalue,
    valueFrom_plain status lookUp (.inr (by decide)), valueFrom_nil]
  rfl

end Expansion

namespace Shell

open Userland (IsIdentifier)
open Words

variable {σ : Type} {session : Session σ} {name value : String}

/-- Words in single quotes are read before what is typed after them. -/
theorem words_typed_append (session : Session σ) (list : List String) (line : String) :
    words session (typed list ++ " " ++ line) = (list ++ ·) <$> words session line := by
  have hline : (typed list ++ " " ++ line).toList = typedChars list ++ ' ' :: line.toList := by
    simp [typed]
  unfold words
  rw [Expansion.expand_eq_valueFrom, Expansion.expand_eq_valueFrom, split, split,
    String.toList_ofList, String.toList_ofList, hline, Expansion.valueFrom_typed_append,
    Expansion.valueFrom_plain _ _ (.inr (by decide)),
    splitFrom_typed_append list (endsWord_space _), splitFrom_none_space]
  rfl

/-- The words of a variable in double quotes are those of its value in double quotes. -/
theorem words_enclosedVariable_eq (hname : IsIdentifier name)
    (hvalue : session.machine.process.valueOf? name = some value) :
    words session (enclosedVariable name) =
      splitFrom .bare none ('\x22' :: (value.toList ++ ['\x22'])) := by
  rw [words, Expansion.expand_eq_valueFrom, split, String.toList_ofList,
    Expansion.valueFrom_enclosedVariable _ _ hname hvalue]

/-- A variable in double quotes is one word, equal to its value, just if the value is verbatim: it
holds no double quote, and no backslash that comes before a double quote, a backslash or a dollar,
the closing quote included. A command that gets the variable as its last argument then gets the
value itself. -/
theorem words_enclosedVariable (hname : IsIdentifier name)
    (hvalue : session.machine.process.valueOf? name = some value) :
    (words session (enclosedVariable name) = .ok [value] ↔ IsVerbatim value.toList) ∧
      ∀ [Supply σ] (shell : Shell σ) (command : String) (args : List String),
        IsVerbatim value.toList → command ≠ "exit" → command ≠ "logout" → command ≠ "help" →
        shell.runLine (typed (command :: args) ++ " " ++ enclosedVariable name) session =
          shell.runCommand command (args ++ [value]) session := by
  have hiff : words session (enclosedVariable name) = .ok [value] ↔ IsVerbatim value.toList := by
    rw [words_enclosedVariable_eq hname hvalue, ← splitFrom_enclosed_iff, String.ofList_toList]
  refine ⟨hiff, ?_⟩
  intro _ shell command args hverbatim hexit hlogout hhelp
  have hwords : words session (typed (command :: args) ++ " " ++ enclosedVariable name) =
      .ok (command :: (args ++ [value])) := by
    rw [words_typed_append, hiff.2 hverbatim]
    rfl
  have hline : Line.ofWords (command :: (args ++ [value])) =
      .command command (args ++ [value]) := by
    simp [Line.ofWords, hexit, hlogout, hhelp]
  simp only [runLine, hwords, hline]

theorem words_enclosedVariable_of_blanks_and_backslash :
    let name := "_pAth2"
    let value := " it\x27s $HOME\t\x7b C:\\new; "
    let process : Process :=
      ⟨"console", "/", .ofList [(name, value)], .ofStore .empty, ⟨80, 24⟩, .insertion⟩
    let session : Session Wiring := ⟨⟨process, {}, []⟩, 0⟩
    let shell : Shell Wiring :=
      ⟨Console.registry .default, Wiring.streams, none, "svr04", "root", "/root"⟩
    IsIdentifier name ∧ session.machine.process.valueOf? name = some value ∧
      words session (enclosedVariable name) = .ok [value] ∧
      shell.runLine (typed ["echo", "-n"] ++ " " ++ enclosedVariable name) session =
        shell.runCommand "echo" ["-n", value] session := by
  intro name value process session shell
  have hname : IsIdentifier name := Userland.isIdentifier_iff.1 (by decide +kernel)
  have hverbatim : IsVerbatim value.toList := by
    simp only [value, String.reduceToList]
    decide
  have hvalue : session.machine.process.valueOf? name = some value := by decide +kernel
  obtain ⟨hiff, hrun⟩ := words_enclosedVariable hname hvalue
  refine ⟨hname, hvalue, hiff.2 hverbatim, ?_⟩
  exact hrun shell "echo" ["-n"] hverbatim (by decide) (by decide) (by decide)

/-- A double quote in the value closes the quotation, and the one at the end is never closed. -/
theorem words_enclosedVariable_of_double_quote :
    let process : Process :=
      ⟨"console", "/", .ofList [("A", "6\x22 nail")], .ofStore .empty, ⟨80, 24⟩, .insertion⟩
    let session : Session Wiring := ⟨⟨process, {}, []⟩, 0⟩
    IsIdentifier "A" ∧ session.machine.process.valueOf? "A" = some "6\x22 nail" ∧
      words session (enclosedVariable "A") = .error .double := by
  intro process session
  have hname : IsIdentifier "A" := Userland.isIdentifier_iff.1 (by decide +kernel)
  have hvalue : session.machine.process.valueOf? "A" = some "6\x22 nail" := by decide +kernel
  refine ⟨hname, hvalue, ?_⟩
  rw [words_enclosedVariable_eq hname hvalue]
  rfl

end Shell

end Honeypot
