import Mathlib.Data.List.Forall2
import Honeypot.Proofs.Shell.Scanning
import Honeypot.Proofs.Text.Split
import Honeypot.Proofs.Userland.Names

/-!
# One pass over the variables of a line

Replacing the variables of a line is a single pass: the line is literal text and references before
any value is known, and the values are put in afterwards. Which text is literal and which refers to
a variable is said here by a grammar, without a reader. It follows the quotes of the line, and what
it says about a character depends on nothing but the line.

* `Expansion.Refers`, `Expansion.refers_iff`: what a dollar before a text refers to.
* `Expansion.Decomposed`, `Expansion.decomposed_iff`: the pieces of a line, and that the reader of
  references finds just these.
* `Expansion.Becomes`: what a piece becomes when the values are known.
* `Expansion.decomposes_once`: a line has one decomposition, and replacing its variables puts values
  into it.
-/

namespace Honeypot

namespace Expansion

open Userland (IsNameChar)

/-! ## References -/

/-- What a dollar before a text refers to, and what is left of the text after the reference. -/
inductive Refers : List Char → Reference → List Char → Prop
  | status {rest} : Refers ('?' :: rest) .status rest
  /-- A name in braces ends at the first brace that closes. -/
  | braced {name rest} : '\x7d' ∉ name →
      Refers ('\x7b' :: (name ++ '\x7d' :: rest)) (.braced name) rest
  /-- A name without braces is as long as it can be. -/
  | named {name rest} : name ≠ [] → (∀ c ∈ name, IsNameChar c) →
      (∀ next ∈ rest.head?, ¬ IsNameChar next) → Refers (name ++ rest) (.named name) rest

variable {quoting : Quoting} {line text rest : List Char} {target : Reference}

/-- The text of a reference without its dollar. -/
def Reference.source : Reference → List Char
  | .status => ['?']
  | .braced name => '\x7b' :: (name ++ ['\x7d'])
  | .named name => name

theorem Refers.eq_source_append (h : Refers text target rest) : text = target.source ++ rest := by
  cases h with
  | status => rfl
  | braced => simp [Reference.source]
  | named => rfl

/-- A name is taken up to the first character that does not belong to it. -/
theorem named?_eq_some_iff :
    named? text = some (target, rest) ↔ ∃ name, target = .named name ∧ name ≠ [] ∧
      (∀ c ∈ name, IsNameChar c) ∧ (∀ next ∈ rest.head?, ¬ IsNameChar next) ∧
        text = name ++ rest := by
  simp only [← isNameChar_iff]
  constructor
  · intro h
    unfold named? at h
    split at h
    · simp at h
    · next hne =>
      obtain ⟨rfl, rfl⟩ := Prod.mk.inj (Option.some.inj h)
      refine ⟨_, rfl, hne, fun c hc => ?_, fun next hnext => ?_,
        List.takeWhile_append_dropWhile.symm⟩
      · exact List.all_eq_true.1 List.all_takeWhile c hc
      · -- The run was as long as it could be, so what is left begins with another character.
        have hhead := List.head?_dropWhile_not isNameChar text
        rw [Option.mem_def.1 hnext] at hhead
        simpa using hhead
  · rintro ⟨name, rfl, hne, hname, hrest, rfl⟩
    -- The name is the longest run itself, as what comes after it cannot be a part of it.
    have htake : (name ++ rest).takeWhile isNameChar = name := by
      rw [List.takeWhile_append_of_pos hname]
      cases rest with
      | nil => simp
      | cons next rest => simp [hrest next rfl]
    have hdrop : (name ++ rest).dropWhile isNameChar = rest := by
      rw [List.dropWhile_append_of_pos hname]
      cases rest with
      | nil => rfl
      | cons next rest => simp [hrest next rfl]
    unfold named?
    rw [htake, hdrop]
    cases name with
    | nil => exact absurd rfl hne
    | cons c name => rfl

/-- The reader of references finds what a dollar refers to. -/
theorem refers_iff : Refers text target rest ↔ reference? text = some (target, rest) := by
  constructor
  · intro h
    cases h with
    | status => rfl
    | braced hname =>
      rw [reference?, Text.cutAt_append_cons hname]
    | @named name rest hne hname hrest =>
      have hnamed : named? (name ++ rest) = some (.named name, rest) :=
        named?_eq_some_iff.2 ⟨name, rfl, hne, hname, hrest, rfl⟩
      -- A name begins with none of the two characters that the reader looks for first.
      obtain ⟨c, name, rfl⟩ := List.exists_cons_of_ne_nil hne
      have hc : isNameChar c = true := isNameChar_iff.2 (hname c List.mem_cons_self)
      rw [List.cons_append] at hnamed ⊢
      rw [reference?]
      · exact hnamed
      · intro _ hstatus
        rw [(List.cons.inj hstatus).1] at hc
        exact absurd hc (by decide)
      · intro _ hbrace
        rw [(List.cons.inj hbrace).1] at hc
        exact absurd hc (by decide)
  · intro h
    unfold reference? at h
    split at h
    · obtain ⟨rfl, rfl⟩ := Prod.mk.inj (Option.some.inj h)
      exact .status
    · split at h
      · next hcut =>
        obtain ⟨rfl, rfl⟩ := Prod.mk.inj (Option.some.inj h)
        obtain ⟨hname, rfl⟩ := Text.cutAt_eq_some_iff.1 hcut
        exact .braced hname
      · simp at h
    · obtain ⟨name, rfl, hne, hname, hrest, rfl⟩ := named?_eq_some_iff.1 h
      exact .named hne hname hrest

/-! ## Decompositions -/

/-- The text of a piece in its line. -/
def Piece.source : Piece → List Char
  | .literal text => text
  | .reference target => '$' :: target.source

end Expansion

/-- The quotation after a piece. An escaped quote counts no more than one in a reference does. -/
def Quoting.afterPiece (quoting : Quoting) : Expansion.Piece → Quoting
  | .literal [c] => quoting.after c
  | _ => quoting

/-- The quotation after pieces. -/
def Quoting.afterPieces (quoting : Quoting) (pieces : List Expansion.Piece) : Quoting :=
  pieces.foldl Quoting.afterPiece quoting

namespace Expansion

/-- The pieces of a text that begins in or outside quotes. Single quotes keep everything literal.
Elsewhere a backslash takes the next character along, and a dollar makes a reference if a reference
comes after it. -/
inductive Decomposed : Quoting → List Char → List Piece → Prop
  | nil {quoting} : Decomposed quoting [] []
  | escaped {quoting c rest pieces} : quoting ≠ .single → Decomposed quoting rest pieces →
      Decomposed quoting ('\\' :: c :: rest) (.literal ['\\', c] :: pieces)
  | reference {quoting text target rest pieces} : quoting ≠ .single →
      Refers text target rest → Decomposed quoting rest pieces →
      Decomposed quoting ('$' :: text) (.reference target :: pieces)
  | plain {quoting c rest pieces} :
      (quoting = .single ∨ (c = '\\' → rest = []) ∧
        (c = '$' → ¬ ∃ target later, Refers rest target later)) →
      Decomposed (quoting.after c) rest pieces →
      Decomposed quoting (c :: rest) (.literal [c] :: pieces)

variable {pieces before after : List Piece}

/-- The reader of references gives the pieces of a text. -/
theorem Decomposed.eq_piecesFrom (h : Decomposed quoting text pieces) :
    pieces = piecesFrom quoting text := by
  induction h with
  | nil => exact (piecesFrom_nil _).symm
  | escaped hquoting _ ih => rw [piecesFrom_escape hquoting, ih]
  | reference hquoting hrefers _ ih =>
    rw [piecesFrom_reference hquoting (refers_iff.1 hrefers), ih]
  | @plain quoting c rest pieces hplain _ ih =>
    rw [ih]
    symm
    rcases hplain with hsingle | ⟨hescape, hrefer⟩
    · exact piecesFrom_plain (.inl hsingle) rest
    -- Outside single quotes a backslash is plain at the end of the text only, a dollar only
    -- where it refers to nothing.
    by_cases hbackslash : c = '\\'
    · obtain rfl := hescape hbackslash
      rw [piecesFrom_singleton, piecesFrom_nil]
    by_cases hdollar : c = '$'
    · subst hdollar
      apply piecesFrom_dollar
      rw [Option.eq_none_iff_forall_ne_some]
      rintro ⟨target, later⟩ hreference
      exact hrefer rfl ⟨target, later, refers_iff.2 hreference⟩
    · exact piecesFrom_plain (.inr ⟨hbackslash, hdollar⟩) rest

/-- Every text has a decomposition. -/
theorem exists_decomposed (quoting : Quoting) (text : List Char) :
    ∃ pieces, Decomposed quoting text pieces := by
  -- On the length, as a reference may take any number of characters.
  induction hlength : text.length using Nat.strongRecOn generalizing quoting text with
  | ind length ih =>
    subst hlength
    have hrest {c : Char} {rest : List Char} (htext : text = c :: rest)
        (hplain : quoting = .single ∨ (c = '\\' → rest = []) ∧
          (c = '$' → ¬ ∃ target later, Refers rest target later)) :
        ∃ pieces, Decomposed quoting text pieces := by
      subst htext
      obtain ⟨pieces, hpieces⟩ := ih rest.length (Nat.lt_succ_self _) (quoting.after c) rest rfl
      exact ⟨_, .plain hplain hpieces⟩
    cases text with
    | nil => exact ⟨[], .nil⟩
    | cons c rest =>
      by_cases hsingle : quoting = .single
      · exact hrest rfl (.inl hsingle)
      by_cases hescape : c = '\\' ∧ rest ≠ []
      · obtain ⟨rfl, hne⟩ := hescape
        obtain ⟨next, rest, rfl⟩ := List.exists_cons_of_ne_nil hne
        have hshorter : rest.length < ('\\' :: next :: rest).length := by
          simp only [List.length_cons]
          omega
        obtain ⟨pieces, hpieces⟩ := ih rest.length hshorter quoting rest rfl
        exact ⟨_, .escaped hsingle hpieces⟩
      by_cases hrefer : c = '$' ∧ ∃ target later, Refers rest target later
      · obtain ⟨rfl, target, later, hrefers⟩ := hrefer
        have hshorter : later.length ≤ rest.length := length_reference?_le (refers_iff.1 hrefers)
        obtain ⟨pieces, hpieces⟩ := ih later.length (Nat.lt_succ_of_le hshorter) quoting later rfl
        exact ⟨_, .reference hsingle hrefers hpieces⟩
      · refine hrest rfl (.inr ⟨fun hc => ?_, fun hc hrefers => hrefer ⟨hc, hrefers⟩⟩)
        exact Decidable.byContradiction fun hne => hescape ⟨hc, hne⟩

/-- The reader of references finds the one decomposition that there is. -/
theorem decomposed_iff : Decomposed quoting text pieces ↔ pieces = piecesFrom quoting text := by
  refine ⟨Decomposed.eq_piecesFrom, ?_⟩
  rintro rfl
  obtain ⟨pieces, hpieces⟩ := exists_decomposed quoting text
  exact hpieces.eq_piecesFrom ▸ hpieces

/-- The pieces of a text joined again are the text. -/
theorem Decomposed.flatMap_source (h : Decomposed quoting text pieces) :
    pieces.flatMap Piece.source = text := by
  induction h with
  | nil => rfl
  | escaped _ _ ih => rw [List.flatMap_cons, ih]; rfl
  | reference _ hrefers _ ih => rw [List.flatMap_cons, ih, hrefers.eq_source_append]; rfl
  | plain _ _ ih => rw [List.flatMap_cons, ih]; rfl

/-- What comes after a piece is decomposed by itself, in the quotation after that piece. -/
theorem Decomposed.tail {piece : Piece} (h : Decomposed quoting text (piece :: pieces)) :
    Decomposed (quoting.afterPiece piece) (pieces.flatMap Piece.source) pieces := by
  cases h with
  | escaped _ hrest | reference _ _ hrest | plain _ hrest =>
    rw [hrest.flatMap_source]
    exact hrest

/-- What comes after some pieces is decomposed by itself, in the quotation after these pieces. -/
theorem Decomposed.of_append (h : Decomposed quoting text (before ++ after)) :
    Decomposed (quoting.afterPieces before) (after.flatMap Piece.source) after := by
  induction before generalizing quoting text with
  | nil => rwa [show text = after.flatMap Piece.source from h.flatMap_source.symm] at h
  | cons piece before ih => exact ih h.tail

/-! ## Values -/

/-- What a piece becomes where the last status and the variables are known. Literal text stays as it
is, the status is written in decimal, and a variable that is not set leaves nothing. -/
inductive Becomes (status : Status) (lookUp : String → Option String) : Piece → List Char → Prop
  | literal {text} : Becomes status lookUp (.literal text) text
  | status : Becomes status lookUp (.reference .status) (toString status.toInt).toList
  | set {target name value} : target = .braced name ∨ target = .named name →
      lookUp (String.ofList name) = some value →
      Becomes status lookUp (.reference target) value.toList
  | unset {target name} : target = .braced name ∨ target = .named name →
      lookUp (String.ofList name) = none → Becomes status lookUp (.reference target) []

/-- The value that replaces a piece is what it becomes. -/
theorem becomes_value (status : Status) (lookUp : String → Option String) (piece : Piece) :
    Becomes status lookUp piece (piece.value status lookUp) := by
  have hnamed {target : Reference} {name : List Char}
      (htarget : target = .braced name ∨ target = .named name) :
      Becomes status lookUp (.reference target)
        ((lookUp (String.ofList name)).getD "").toList := by
    cases hvalue : lookUp (String.ofList name) with
    | none => exact .unset htarget hvalue
    | some value => exact .set htarget hvalue
  cases piece with
  | literal text => exact .literal
  | reference target =>
    cases target with
    | status => exact .status
    | braced name => exact hnamed (.inl rfl)
    | named name => exact hnamed (.inr rfl)

/-- A piece becomes the same whenever what it refers to does. -/
theorem Piece.value_congr {status status' : Status} {lookUp lookUp' : String → Option String}
    {piece : Piece} (hstatus : piece = .reference .status → status = status')
    (hlookUp : ∀ name, piece = .reference (.braced name) ∨ piece = .reference (.named name) →
      lookUp (String.ofList name) = lookUp' (String.ofList name)) :
    piece.value status lookUp = piece.value status' lookUp' := by
  cases piece with
  | literal text => rfl
  | reference target =>
    cases target with
    | status => rw [hstatus rfl]; rfl
    | braced name =>
      simp only [value, Reference.value]
      rw [hlookUp name (.inl rfl)]
    | named name =>
      simp only [value, Reference.value]
      rw [hlookUp name (.inr rfl)]

/-- A line has one decomposition into literal text and references, and its pieces joined again are
the line. What comes after some of them is decomposed by itself, in the quotation that they leave.
Whatever the last status and the variables are, replacing the variables of the line keeps the
literal text and puts values in the place of the references, the decimal status, the value of a
variable that is set and nothing for one that is not; so the result depends on nothing that the line
does not refer to. -/
theorem decomposes_once (line : String) :
    ∃ pieces, (∀ other, Decomposed .bare line.toList other ↔ other = pieces) ∧
      pieces.flatMap Piece.source = line.toList ∧
      (∀ before after, pieces = before ++ after →
        Decomposed (Quoting.bare.afterPieces before) (after.flatMap Piece.source) after) ∧
      (∀ status lookUp, ∃ values, List.Forall₂ (Becomes status lookUp) pieces values ∧
        expand line status lookUp = String.ofList values.flatten) ∧
      ∀ status status' lookUp lookUp',
        (Piece.reference .status ∈ pieces → status = status') →
        (∀ name, Piece.reference (.braced name) ∈ pieces ∨ Piece.reference (.named name) ∈ pieces →
          lookUp (String.ofList name) = lookUp' (String.ofList name)) →
        expand line status lookUp = expand line status' lookUp' := by
  have hpieces : Decomposed .bare line.toList (pieces line) := decomposed_iff.2 rfl
  refine ⟨pieces line, fun other => decomposed_iff, hpieces.flatMap_source, ?_, ?_, ?_⟩
  · intro before after hparts
    rw [hparts] at hpieces
    exact hpieces.of_append
  · intro status lookUp
    refine ⟨(pieces line).map (Piece.value status lookUp), ?_, ?_⟩
    · rw [List.forall₂_map_right_iff, List.forall₂_same]
      exact fun piece _ => becomes_value status lookUp piece
    · rw [expand, List.flatMap_def]
  · intro status status' lookUp lookUp' hstatus hlookUp
    -- Both results are made of the same pieces, and each of these becomes the same.
    have hvalues : (pieces line).map (Piece.value status lookUp) =
        (pieces line).map (Piece.value status' lookUp') := by
      apply List.map_congr_left
      intro piece hpiece
      apply Piece.value_congr
      · rintro rfl
        exact hstatus hpiece
      · rintro name (rfl | rfl)
        · exact hlookUp name (.inl hpiece)
        · exact hlookUp name (.inr hpiece)
    rw [expand, expand, List.flatMap_def, List.flatMap_def, hvalues]

-- Neither the dollar in single quotes nor the one before a brace that is never closed refers.
example : Expansion.pieces "$?$A\x27$A\x27$\x7bB" = [.reference .status, .reference (.named ['A']),
    .literal ['\x27'], .literal ['$'], .literal ['A'], .literal ['\x27'],
    .literal ['$'], .literal ['\x7b'], .literal ['B']] := by
  decide +kernel

end Expansion

end Honeypot
