import Honeypot.Proofs.Text.Utf8

/-!
# The order of texts

Texts are in the order of their bytes. Those that begin with one text stand together, and what
they begin with does not count for their order.

* `bytewise_trans`, `bytewise_total`, `bytewise_antisymm`: texts are ordered by their bytes.
* `Precedes`, `eq_of_pairwise_precedes`: the strict order, in which texts are listed in one way.
* `bytewise_append_append`, `exists_eq_append_of_bytewise`: texts with a common beginning.
-/

namespace Honeypot.Text

/-! ## An order -/

theorem bytewise_trans {first second third : String} (h : bytewise first second = true)
    (h' : bytewise second third = true) : bytewise first third = true := by
  rw [bytewise, decide_eq_true_iff] at *
  exact List.le_trans h h'

theorem bytewise_total (first second : String) :
    (bytewise first second || bytewise second first) = true := by
  simp only [bytewise, Bool.or_eq_true, decide_eq_true_iff]
  exact List.le_total _ _

theorem bytewise_antisymm {first second : String} (h : bytewise first second = true)
    (h' : bytewise second first = true) : first = second := by
  rw [bytewise, decide_eq_true_iff] at *
  exact encode_injective (List.le_antisymm h h')

/-- Texts come into one order, however they were ordered before. -/
theorem mergeSort_eq_of_perm {texts others : List String} (h : texts.Perm others) :
    texts.mergeSort bytewise = others.mergeSort bytewise := by
  have hsorted (list : List String) :
      (list.mergeSort bytewise).Pairwise fun first second => bytewise first second = true := by
    refine List.pairwise_mergeSort ?_ ?_ list
    · exact fun _ _ _ => bytewise_trans
    · exact fun _ _ => bytewise_total _ _
  refine List.Perm.eq_of_pairwise ?_ (hsorted texts) (hsorted others)
    ((List.mergeSort_perm _ _).trans (h.trans (List.mergeSort_perm _ _).symm))
  exact fun _ _ _ _ hle hge => bytewise_antisymm hle hge

/-- Whether one text comes strictly before another, byte by byte. -/
def Precedes (first second : String) : Prop :=
  bytewise first second = true ∧ first ≠ second

instance (first second : String) : Decidable (Precedes first second) :=
  inferInstanceAs (Decidable (_ ∧ _))

theorem Precedes.trans {first second third : String} (h : Precedes first second)
    (h' : Precedes second third) : Precedes first third := by
  refine ⟨bytewise_trans h.1 h'.1, ?_⟩
  rintro rfl
  exact h.2 (bytewise_antisymm h.1 h'.1)

/-- Of two different texts the one that does not come first comes second. -/
theorem precedes_of_bytewise_eq_false {first second : String} (hne : first ≠ second)
    (h : bytewise first second = false) : Precedes second first := by
  refine ⟨?_, hne.symm⟩
  have htotal := bytewise_total first second
  rw [h, Bool.false_or] at htotal
  exact htotal

/-- Texts stand in one ascending order only. -/
theorem eq_of_pairwise_precedes {texts others : List String} (h : texts.Pairwise Precedes)
    (h' : others.Pairwise Precedes) (hmem : ∀ text, text ∈ texts ↔ text ∈ others) :
    texts = others := by
  have hperm : texts.Perm others :=
    (List.perm_ext_iff_of_nodup (h.imp And.right) (h'.imp And.right)).2 hmem
  exact List.Perm.eq_of_pairwise (fun _ _ _ _ hle hge => bytewise_antisymm hle.1 hge.1) h h' hperm

/-! ## Texts with a common beginning -/

/-- A text comes after what it begins with. -/
theorem bytewise_append (lead rest : String) : bytewise lead (lead ++ rest) = true := by
  rw [bytewise, decide_eq_true_iff, encode_append]
  exact List.le_append_left

/-- What two texts begin with in common does not count for their order. -/
theorem bytewise_append_append (lead one other : String) :
    bytewise (lead ++ one) (lead ++ other) = bytewise one other := by
  rw [bytewise, bytewise, encode_append, encode_append, decide_eq_decide]
  induction encode lead with
  | nil => rfl
  | cons byte bytes ih =>
    rw [List.cons_append, List.cons_append, List.cons_le_cons_iff, ih]
    simp

/-- Bytes that are neither before a beginning nor after what begins with it begin with it. -/
theorem exists_eq_append_of_le {lead bytes rest : Bytes} (h : lead ≤ bytes)
    (h' : bytes ≤ lead ++ rest) : ∃ more, bytes = lead ++ more := by
  induction lead generalizing bytes with
  | nil => exact ⟨bytes, rfl⟩
  | cons byte lead ih =>
    cases bytes with
    | nil => simp at h
    | cons first bytes =>
      rw [List.cons_append, List.cons_le_cons_iff] at h'
      rw [List.cons_le_cons_iff] at h
      rcases h with hlt | ⟨rfl, h⟩
      · -- The first byte would have to be both greater and not greater.
        rcases h' with hgt | ⟨rfl, -⟩
        · exact absurd (UInt8.lt_trans hlt hgt) (UInt8.lt_irrefl _)
        · exact absurd hlt (UInt8.lt_irrefl _)
      · rcases h' with hlt | ⟨-, h'⟩
        · exact absurd hlt (UInt8.lt_irrefl _)
        · obtain ⟨more, rfl⟩ := ih h h'
          exact ⟨more, rfl⟩

/-- Texts that begin with a text stand together: what is in order between a text and one that
begins with it begins with it too. -/
theorem exists_eq_append_of_bytewise {lead text rest : String} (h : bytewise lead text = true)
    (h' : bytewise text (lead ++ rest) = true) : ∃ more, text = lead ++ more := by
  rw [bytewise, decide_eq_true_iff] at h h'
  rw [encode_append] at h'
  obtain ⟨more, hmore⟩ := exists_eq_append_of_le h h'
  -- The bytes of the beginning are whole characters, so the rest decodes by itself.
  refine ⟨decode more, ?_⟩
  rw [← decode_encode text, hmore, decode, encode, decodeFrom_flatMap_append, String.ofList_append,
    String.ofList_toList]
  rfl

end Honeypot.Text
