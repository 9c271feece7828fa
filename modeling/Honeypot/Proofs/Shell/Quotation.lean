import Honeypot.Proofs.Shell.Grammar
import Honeypot.Console

/-!
# Every argument vector can be typed

A word in single quotes is taken as it stands, except for single quotes in it. Each of these is
written as four characters: a quote that closes, an escaped quote, and a quote that opens again.
Words written so, with single spaces between them, make a line that holds no reference and that is
cut into just these words.

* `Words.typed`: the line to type for a list of words.
* `Expansion.valueFrom_typed`: no variable is replaced in it.
* `Words.splitFrom_typed`: it is cut into the words that it was made of.
* `Shell.Dispatches`: what becomes of a session in which the registry executes a command.
* `Shell.runLine_typed`: a shell runs the first word with the others as its arguments.

## References

- [SPEC] `SPEC_FULL.md`: §10, Supplementary Features
-/

namespace Honeypot

namespace Words

/-- A character of a word, as it is written in single quotes. -/
def quotedChar (c : Char) : List Char :=
  if c = '\x27' then ['\x27', '\\', '\x27', '\x27'] else [c]

/-- A word in single quotes. -/
def quoted (word : String) : List Char :=
  '\x27' :: word.toList.flatMap quotedChar ++ ['\x27']

/-- The characters to type for a list of words: each in single quotes, with spaces between. -/
def typedChars (words : List String) : List Char :=
  List.intercalate [' '] (words.map quoted)

/-- The line to type for a list of words. -/
def typed (words : List String) : String :=
  String.ofList (typedChars words)

theorem quoted_append (word : String) (rest : List Char) :
    quoted word ++ rest = '\x27' :: (word.toList.flatMap quotedChar ++ '\x27' :: rest) := by
  simp [quoted]

theorem typedChars_singleton (word : String) : typedChars [word] = quoted word := by
  simp [typedChars]

theorem typedChars_cons_cons (word next : String) (words : List String) :
    typedChars (word :: next :: words) = quoted word ++ ' ' :: typedChars (next :: words) := by
  simp [typedChars, List.intercalate_cons_cons]

end Words

namespace Expansion

open Words

/-- The rest of a line with every reference in it replaced. -/
def valueFrom (status : Status) (lookUp : String → Option String) (quoting : Quoting)
    (line : List Char) : List Char :=
  (piecesFrom quoting line).flatMap (Piece.value status lookUp)

variable (status : Status) (lookUp : String → Option String)

theorem expand_eq_valueFrom (line : String) :
    expand line status lookUp = String.ofList (valueFrom status lookUp .bare line.toList) := rfl

theorem valueFrom_nil (quoting : Quoting) : valueFrom status lookUp quoting [] = [] := by
  simp [valueFrom]

theorem valueFrom_plain {quoting : Quoting} {c : Char}
    (h : quoting = .single ∨ c ≠ '\\' ∧ c ≠ '$') (rest : List Char) :
    valueFrom status lookUp quoting (c :: rest) =
      c :: valueFrom status lookUp (quoting.after c) rest := by
  simp [valueFrom, piecesFrom_plain h, Piece.value]

theorem valueFrom_escape {quoting : Quoting} (h : quoting ≠ .single) (c : Char)
    (rest : List Char) :
    valueFrom status lookUp quoting ('\\' :: c :: rest) =
      '\\' :: c :: valueFrom status lookUp quoting rest := by
  simp [valueFrom, piecesFrom_escape h, Piece.value]

/-- A character written for single quotes is kept, and what follows stands in quotes again. -/
theorem valueFrom_quotedChar (c : Char) (rest : List Char) :
    valueFrom status lookUp .single (quotedChar c ++ rest) =
      quotedChar c ++ valueFrom status lookUp .single rest := by
  unfold quotedChar
  split
  · -- The reader leaves the quotes, passes over the escaped quote and is back in quotes.
    show valueFrom status lookUp .single ('\x27' :: '\\' :: '\x27' :: '\x27' :: rest) = _
    rw [valueFrom_plain status lookUp (.inl rfl)]
    show '\x27' :: valueFrom status lookUp .bare ('\\' :: '\x27' :: '\x27' :: rest) = _
    rw [valueFrom_escape status lookUp (by decide),
      valueFrom_plain status lookUp (.inr (by decide))]
    rfl
  · rename_i hc
    have hafter : Quoting.single.after c = .single := by simp [Quoting.after, hc]
    rw [List.singleton_append, valueFrom_plain status lookUp (.inl rfl), hafter]
    rfl

theorem valueFrom_quotedChars (chars rest : List Char) :
    valueFrom status lookUp .single (chars.flatMap quotedChar ++ rest) =
      chars.flatMap quotedChar ++ valueFrom status lookUp .single rest := by
  induction chars with
  | nil => rfl
  | cons c chars ih =>
    rw [List.flatMap_cons, List.append_assoc, valueFrom_quotedChar, ih, List.append_assoc]

/-- A word in single quotes is kept, and what follows stands outside quotes. -/
theorem valueFrom_quoted (word : String) (rest : List Char) :
    valueFrom status lookUp .bare (quoted word ++ rest) =
      quoted word ++ valueFrom status lookUp .bare rest := by
  rw [quoted_append, valueFrom_plain status lookUp (.inr (by decide))]
  show '\x27' :: valueFrom status lookUp .single _ = _
  rw [valueFrom_quotedChars, valueFrom_plain status lookUp (.inl rfl), quoted_append]
  rfl

/-- No variable is replaced in quoted words, and what follows them stands outside quotes. -/
theorem valueFrom_typed_append (words : List String) (rest : List Char) :
    valueFrom status lookUp .bare (typedChars words ++ rest) =
      typedChars words ++ valueFrom status lookUp .bare rest := by
  induction words with
  | nil => rfl
  | cons word words ih =>
    cases words with
    | nil => rw [typedChars_singleton, valueFrom_quoted]
    | cons next words =>
      rw [typedChars_cons_cons, List.append_assoc, valueFrom_quoted, List.cons_append,
        valueFrom_plain status lookUp (.inr (by decide))]
      show quoted word ++ ' ' :: valueFrom status lookUp .bare _ = _
      rw [ih, List.append_assoc, List.cons_append]

/-- No variable is replaced in a line of quoted words. -/
theorem valueFrom_typed (words : List String) :
    valueFrom status lookUp .bare (typedChars words) = typedChars words := by
  have happend := valueFrom_typed_append status lookUp words []
  rwa [List.append_nil, valueFrom_nil, List.append_nil] at happend

theorem expand_typed (words : List String) : expand (typed words) status lookUp = typed words := by
  rw [expand_eq_valueFrom, typed, String.toList_ofList, valueFrom_typed]

end Expansion

namespace Words

/-- A character written for single quotes adds itself to the word. -/
theorem splitFrom_quotedChar (c : Char) (word rest : List Char) :
    splitFrom .single (some word) (quotedChar c ++ rest) =
      splitFrom .single (some (c :: word)) rest := by
  unfold quotedChar
  split
  · rename_i hc
    subst hc
    show splitFrom .single (some word) ('\x27' :: '\\' :: '\x27' :: '\x27' :: rest) = _
    rw [splitFrom_close_single, splitFrom_escape, splitFrom_open_single, push_some, begun_some]
  · rename_i hc
    rw [List.singleton_append, splitFrom_single hc, push_some]

theorem splitFrom_quotedChars (chars word rest : List Char) :
    splitFrom .single (some word) (chars.flatMap quotedChar ++ rest) =
      splitFrom .single (some (chars.reverse ++ word)) rest := by
  -- The characters read so far stand last one first, so the word grows at its head.
  induction chars generalizing word with
  | nil => rfl
  | cons c chars ih =>
    rw [List.flatMap_cons, List.append_assoc, splitFrom_quotedChar, ih, List.reverse_cons,
      List.append_assoc, List.singleton_append]

/-- A word in single quotes is read as that word. -/
theorem splitFrom_quoted (word : String) (rest : List Char) :
    splitFrom .bare none (quoted word ++ rest) =
      splitFrom .bare (some word.toList.reverse) rest := by
  rw [quoted_append, splitFrom_open_single, begun_none, splitFrom_quotedChars, List.append_nil,
    splitFrom_close_single]

/-- A word may end at a space. -/
theorem endsWord_space (rest : List Char) : EndsWord (' ' :: rest) := by
  intro c hc
  obtain rfl : ' ' = c := Option.some.inj hc
  decide

/-- A space before a word is skipped. -/
theorem splitFrom_none_space (rest : List Char) :
    splitFrom .bare none (' ' :: rest) = splitFrom .bare none rest :=
  splitFrom_blanks (List.forall_mem_singleton.2 (by decide)) rest

/-- Quoted words are cut into these words, and what follows them is cut by itself. -/
theorem splitFrom_typed_append (words : List String) {rest : List Char} (h : EndsWord rest) :
    splitFrom .bare none (typedChars words ++ rest) =
      (words ++ ·) <$> splitFrom .bare none rest := by
  induction words with
  | nil => exact (id_map (splitFrom .bare none rest)).symm
  | cons word words ih =>
    have hword : String.ofList word.toList = word := by simp
    -- The last word is ended by the rest, any other by the blank after it.
    cases words with
    | nil =>
      rw [typedChars_singleton, splitFrom_quoted, splitFrom_endsWord h, hword]
      rfl
    | cons next words =>
      rw [typedChars_cons_cons, List.append_assoc, splitFrom_quoted, List.cons_append,
        splitFrom_endsWord (endsWord_space _), splitFrom_none_space, ih, hword]
      cases splitFrom .bare none rest with
      | ok more => rfl
      | error quotation => rfl

/-- A line of quoted words is cut into these words. -/
theorem splitFrom_typed (words : List String) :
    splitFrom .bare none (typedChars words) = .ok words := by
  have hend : EndsWord [] := by simp [EndsWord]
  have happend := splitFrom_typed_append words hend
  rw [List.append_nil] at happend
  rw [happend]
  show Except.ok (words ++ []) = _
  rw [List.append_nil]

theorem split_typed (words : List String) : split (typed words) = .ok words := by
  rw [split, typed, String.toList_ofList, splitFrom_typed]

end Words

namespace Shell

open Words

variable {σ : Type}

theorem words_typed (session : Session σ) (list : List String) :
    words session (typed list) = .ok list := by
  rw [words, Expansion.expand_typed, split_typed]

/-- What becomes of a session in which the registry executes a command by name: the status is kept,
and a name that no command has is worth a word. -/
inductive Dispatches [Supply σ] (shell : Shell σ) (name : String) (args : List String)
    (session : Session σ) : Except Fault Flow × Session σ → Prop
  | ended {status machine} :
      shell.registry.execute shell.streams shell.recorder name args session.machine =
        (.ok status, machine) →
      Dispatches shell name args session (.ok .go, ⟨machine, status⟩)
  | failed {failure machine} :
      shell.registry.execute shell.streams shell.recorder name args session.machine =
        (.error failure, machine) → failure.isNotFound = false →
      Dispatches shell name args session (.ok .go, ⟨machine, failure.status⟩)
  | unknown {failure machine later} :
      shell.registry.execute shell.streams shell.recorder name args session.machine =
        (.error failure, machine) → failure.isNotFound = true →
      say shell.diagnostics ["-bash: ", name, ": command not found\n"] ⟨machine, session.status⟩ =
        (.ok (), later) →
      Dispatches shell name args session (.ok .go, ⟨later.machine, failure.status⟩)
  | unheard {failure machine fault later} :
      shell.registry.execute shell.streams shell.recorder name args session.machine =
        (.error failure, machine) → failure.isNotFound = true →
      say shell.diagnostics ["-bash: ", name, ": command not found\n"] ⟨machine, session.status⟩ =
        (.error fault, later) →
      Dispatches shell name args session (.error fault, later)

/-- To run a command is to have the registry execute it. -/
theorem dispatches_runCommand [Supply σ] (shell : Shell σ) (name : String) (args : List String)
    (session : Session σ) :
    shell.Dispatches name args session (shell.runCommand name args session) := by
  unfold runCommand
  cases hexecute :
      shell.registry.execute shell.streams shell.recorder name args session.machine with
  | mk result machine =>
    cases result with
    | ok status => exact .ended hexecute
    | error failure =>
      dsimp only
      cases hunknown : failure.isNotFound with
      | false => exact .failed hexecute hunknown
      | true =>
        cases hsay : say shell.diagnostics ["-bash: ", name, ": command not found\n"]
            ⟨machine, session.status⟩ with
        | mk said later =>
          cases said with
          | ok _ => exact .unknown hexecute hunknown hsay
          | error fault => exact .unheard hexecute hunknown hsay

/-- Every argument vector can be typed. The line made of its words holds no reference, is cut into
just these words, and makes any shell run the first word with the others as its arguments, unless
that word is one that the shell itself understands: its registry executes that name with those
arguments, and the session goes on with what comes of it. -/
theorem runLine_typed (name : String) (args : List String) :
    (∀ status lookUp, Expansion.expand (typed (name :: args)) status lookUp =
      typed (name :: args)) ∧
    split (typed (name :: args)) = .ok (name :: args) ∧
    ∀ (σ : Type) [Supply σ] (shell : Shell σ) (session : Session σ),
      name ≠ "exit" → name ≠ "logout" → name ≠ "help" →
      shell.runLine (typed (name :: args)) session = shell.runCommand name args session ∧
      shell.Dispatches name args session (shell.runLine (typed (name :: args)) session) := by
  refine ⟨fun status lookUp => Expansion.expand_typed status lookUp _, split_typed _, ?_⟩
  intro σ _ shell session hexit hlogout hhelp
  have hline : Line.ofWords (name :: args) = .command name args := by
    simp [Line.ofWords, hexit, hlogout, hhelp]
  have hrunLine :
      shell.runLine (typed (name :: args)) session = shell.runCommand name args session := by
    simp only [runLine, words_typed, hline]
  exact ⟨hrunLine, hrunLine ▸ shell.dispatches_runCommand name args session⟩

theorem runLine_typed_quotes_and_dollars :
    let args := ["it\x27s", "$HOME", "\\", "", "two\nlines"]
    let shell : Shell Wiring :=
      ⟨Console.registry .default, Wiring.streams, none, "svr04", "root", "/root"⟩
    let process : Process := ⟨"console", "/", .empty, .ofStore .empty, ⟨80, 24⟩, .insertion⟩
    typed ("echo" :: args) = "\x27echo\x27 \x27it\x27\\\x27\x27s\x27 \x27$HOME\x27 " ++
      "\x27\\\x27 \x27\x27 \x27two\nlines\x27" ∧
    shell.runLine (typed ("echo" :: args)) ⟨⟨process, {}, []⟩, 0⟩ =
      shell.runCommand "echo" args ⟨⟨process, {}, []⟩, 0⟩ :=
  ⟨by decide +kernel,
    ((runLine_typed "echo" _).2.2 _ _ _ (by decide) (by decide) (by decide)).1⟩

end Shell

end Honeypot
