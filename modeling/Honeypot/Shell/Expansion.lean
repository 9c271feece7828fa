import Honeypot.Shell.Words
import Honeypot.Status
import Honeypot.Text.Split

/-!
# Variables in a command line

References to variables are replaced by their values before a line is cut into words. A reference
is `$?`, a name in braces after a dollar, or a dollar and the longest run of ASCII letters, digits
and underscores after it. There is none in single quotes, and none right after a backslash.

* `Expansion.pieces`: a line as literal text and references, which depends on nothing but the line.
* `Expansion.expand`: the line with every reference replaced.

## References

- [SPEC] `SPEC_FULL.md`: §10, Supplementary Features
-/

namespace Honeypot.Expansion

/-- What a dollar refers to. -/
inductive Reference where
  /-- The last exit status. -/
  | status
  /-- A variable whose name stands in braces. -/
  | braced (name : List Char)
  /-- A variable whose name follows the dollar. -/
  | named (name : List Char)
deriving DecidableEq, Repr

/-- A part of a command line. -/
inductive Piece where
  | literal (text : List Char)
  | reference (target : Reference)
deriving DecidableEq, Repr

/-- Whether a character can stand in a variable's name after a dollar. -/
def isNameChar (c : Char) : Bool :=
  c.isAlphanum || c == '_'

/-- The variable whose name stands right after a dollar, and the text after it. -/
def named? (rest : List Char) : Option (Reference × List Char) :=
  match rest.takeWhile isNameChar with
  | [] => none
  | name => some (.named name, rest.dropWhile isNameChar)

/-- The reference that a dollar before a text makes, and the text after the reference. -/
def reference? : List Char → Option (Reference × List Char)
  | '?' :: rest => some (.status, rest)
  | '\x7b' :: rest =>
    -- A brace that is never closed leaves the dollar as it is: no name starts with a brace.
    match Text.cutAt '\x7d' rest with
    | some (name, after) => some (.braced name, after)
    | none => none
  | rest => named? rest

theorem length_cutAt_lt {separator : Char} {text before after : List Char}
    (h : Text.cutAt separator text = some (before, after)) : after.length < text.length := by
  induction text generalizing before with
  | nil => simp [Text.cutAt] at h
  | cons c rest ih =>
    unfold Text.cutAt at h
    split at h
    · simp_all
    · simp only [Option.map_eq_some_iff, Prod.mk.injEq, Prod.exists] at h
      obtain ⟨_, _, hc, _, rfl⟩ := h
      have := ih hc
      simp only [List.length_cons]
      omega

theorem length_reference?_le {text after : List Char} {target : Reference}
    (h : reference? text = some (target, after)) : after.length ≤ text.length := by
  unfold reference? at h
  split at h
  · simp_all
  · split at h
    · rename_i hc
      have := length_cutAt_lt hc
      simp_all
      omega
    · simp at h
  · unfold named? at h
    split at h
    · simp at h
    · simp only [Option.some.injEq, Prod.mk.injEq] at h
      exact h.2 ▸ (List.dropWhile_sublist _).length_le

/-- The pieces of the rest of a line, which starts in or outside quotes. -/
def piecesFrom (quoting : Quoting) (line : List Char) : List Piece :=
  match line with
  | [] => []
  -- A backslash or a dollar with nothing after it stands for itself.
  | [c] => [.literal [c]]
  | c :: next :: rest =>
    if c = '\x27' then
      let inner := match quoting with
        | .bare => .single
        | .single => .bare
        | .double => .double
      .literal [c] :: piecesFrom inner (next :: rest)
    else if c = '\x22' then
      let inner := match quoting with
        | .bare => .double
        | .double => .bare
        | .single => .single
      .literal [c] :: piecesFrom inner (next :: rest)
    -- The backslash stays: it is the cutting into words that takes it away.
    else if c = '\\' ∧ quoting ≠ .single then
      .literal [c, next] :: piecesFrom quoting rest
    else if c = '$' ∧ quoting ≠ .single then
      match h : reference? (next :: rest) with
      | some (target, after) =>
        have _shorter := length_reference?_le h
        .reference target :: piecesFrom quoting after
      | none => .literal [c] :: piecesFrom quoting (next :: rest)
    else .literal [c] :: piecesFrom quoting (next :: rest)
termination_by line.length
decreasing_by
  all_goals simp only [List.length_cons] at *
  all_goals omega

/-- The pieces of a command line. -/
def pieces (line : String) : List Piece :=
  piecesFrom .bare line.toList

/-- The value of a reference; a variable that is not set has none and leaves nothing. -/
def Reference.value (status : Status) (lookUp : String → Option String) : Reference → List Char
  | .status => status.text.toList
  | .braced name | .named name => ((lookUp (String.ofList name)).getD "").toList

/-- What a piece becomes. -/
def Piece.value (status : Status) (lookUp : String → Option String) : Piece → List Char
  | .literal text => text
  | .reference target => target.value status lookUp

/-- A command line with every reference replaced by its value. -/
def expand (line : String) (status : Status) (lookUp : String → Option String) : String :=
  String.ofList ((pieces line).flatMap (Piece.value status lookUp))

end Honeypot.Expansion
