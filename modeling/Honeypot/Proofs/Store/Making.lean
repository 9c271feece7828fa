import Honeypot.Proofs.Path.Normal
import Honeypot.Proofs.Store.Planting

/-!
# Directories made from below

To make a directory, one may first see to the one above it, in the same way, and put the new one
into it. This comes to an end because something is there at the latest at the root, and it never
fails halfway, so that it makes all directories that are missing or none.

* `Store.climb`: making a directory in this way, with a bound on the calls.
* `Store.IsNearest`: the nearest location at or above another one where something is.
* `Store.climb_eq`: it comes to an end if something is at the location or above it.
* `Store.IsNearest.isMade_iff`: the directories that are made are those after the nearest location.
* `Store.perform_of_failure?`: a request that fails changes nothing.
* `Store.mkdir_all_or_nothing`: all of this for every store that requests lead to.

## References

- [SPEC] `SPEC_FULL.md`: §6, External Interfaces
-/

namespace Honeypot

open Location (ofText)

/-- The failure that an outcome is, if it is one. -/
def Failure.of? {α : Type} : Except Failure α → Option Failure
  | .ok _ => none
  | .error failure => some failure

/-- The failure that an answer is, if it is one. -/
def Request.failure? : (request : Request) → request.Answer → Option Failure
  | .readdir _ => Failure.of?
  | .read _ => Failure.of?
  | .write _ _ => Failure.of?
  | .stat _ => Failure.of?
  | .mkdir _ => Failure.of?
  | .remove _ => Failure.of?
  | .contains _ => fun _ => none
  | .isDirectory _ => Failure.of?

namespace Store

variable {store : Store} {location above other : Location} {path : String}

/-! ## From a missing directory upwards -/

/-- A directory made where nothing is: if the one above it is missing, that one is made before, by
a further call, whose failure is that of the whole. With too few calls there is no answer. -/
def climb : ℕ → String → Store → Option (Except Failure Unit × Store)
  | 0, _, _ => none
  | calls + 1, path, store =>
    let location := ofText path
    match store.find? location with
    | some .directory => some (.ok (), store)
    | some (.file _) => some (.error (.filesystem (.fileExists location.text)), store)
    | none =>
      if (store.find? location.parent).isSome then
        some (.ok (), store.insert location .directory)
      else
        (climb calls location.parent.text store).map fun
          | (.ok (), later) => (.ok (), later.insert location .directory)
          | (.error failure, later) => (.error failure, later)

/-- Where something is, one call is enough. -/
theorem climb_succ_of_isSome (h : (store.find? (ofText path)).isSome = true) (calls : ℕ) :
    store.climb (calls + 1) path = some (store.settled (store.mkdir path)) := by
  obtain ⟨node, hnode⟩ := Option.isSome_iff_exists.1 h
  rw [mkdir, climb]
  cases node <;> simp only [hnode, settled]

/-- Where the directory above is there, one call is enough as well. -/
theorem climb_succ_of_parent (h : store.find? (ofText path) = none)
    (hparent : (store.find? (ofText path).parent).isSome = true) (calls : ℕ) :
    store.climb (calls + 1) path =
      some (.ok (), store.insert (ofText path) .directory) := by
  rw [climb]
  simp only [h, hparent, if_true]

/-- Where it is missing too, a further call is made. -/
theorem climb_succ_of_parent_eq_none (h : store.find? (ofText path) = none)
    (hparent : store.find? (ofText path).parent = none) (calls : ℕ) :
    store.climb (calls + 1) path =
      (store.climb calls (ofText path).parent.text).map fun
        | (.ok (), later) => (.ok (), later.insert (ofText path) .directory)
        | (.error failure, later) => (.error failure, later) := by
  rw [climb]
  simp only [h, hparent, Option.isSome_none, Bool.false_eq_true, if_false]

/-- What is above a location that was read from a path is read from its text. -/
theorem ofText_text_parent (path : String) :
    ofText (ofText path).parent.text = (ofText path).parent :=
  Location.ofText_text ((Location.isNamed_ofText path).of_suffix (List.tail_suffix _))

/-- If something is at a location or above it, each name of the location takes one call at most to
get there, and one more is enough for what is there. The directories are made on the way back. -/
theorem climb_eq (h : ∃ above, above <:+ ofText path ∧ (store.find? above).isSome = true)
    {calls : ℕ} (hcalls : (ofText path).length < calls) :
    store.climb calls path = some (store.settled (store.mkdir path)) := by
  -- Every call but the last one goes up by one name of the location.
  generalize hlocation : ofText path = location at h hcalls
  induction location generalizing path calls with
  | nil =>
    obtain ⟨calls, rfl⟩ := Nat.exists_eq_succ_of_ne_zero (Nat.ne_zero_of_lt hcalls)
    obtain ⟨above, hsuffix, habove⟩ := h
    rw [List.suffix_nil.1 hsuffix, ← hlocation] at habove
    exact climb_succ_of_isSome habove calls
  | cons name above ih =>
    obtain ⟨calls, rfl⟩ := Nat.exists_eq_succ_of_ne_zero (Nat.ne_zero_of_lt hcalls)
    have hparent : (ofText path).parent = above := by
      rw [hlocation]
      rfl
    cases hnode : store.find? (ofText path) with
    | some node => exact climb_succ_of_isSome (by rw [hnode]; rfl) calls
    | none =>
      have hmkdir : store.mkdir path = .ok (makeDirectories (name :: above) store) :=
        mkdir_eq_ok_iff.2 (.inr ⟨hnode, by rw [hlocation]⟩)
      rw [hmkdir, settled, makeDirectories]
      cases habove : store.find? above with
      | some node =>
        rw [climb_succ_of_parent hnode (by rw [hparent, habove]; rfl), hlocation]
        rfl
      | none =>
        have hfurther : ∃ further, further <:+ above ∧ (store.find? further).isSome = true := by
          obtain ⟨further, hsuffix, hfurther⟩ := h
          rcases List.suffix_cons_iff.1 hsuffix with rfl | hsuffix
          · rw [← hlocation, hnode] at hfurther
            simp at hfurther
          · exact ⟨further, hsuffix, hfurther⟩
        -- The further call is for the text of the location above, which leads there again.
        have hup : ofText (Location.text above) = above := hparent ▸ ofText_text_parent path
        have hbelow : store.mkdir (Location.text above) = .ok (makeDirectories above store) :=
          mkdir_eq_ok_iff.2 (.inr (by rw [hup]; exact ⟨habove, rfl⟩))
        have hcall := ih hup hfurther (Nat.lt_of_succ_lt_succ hcalls)
        rw [climb_succ_of_parent_eq_none hnode (by rw [hparent, habove]), hparent, hcall, hbelow,
          hlocation]
        rfl

/-! ## The nearest location where something is -/

/-- The nearest location at or above another one where something is. -/
structure IsNearest (store : Store) (location above : Location) : Prop where
  suffix : above <:+ location
  isSome : (store.find? above).isSome = true
  eq_none : ∀ between, above <:+ between → between <:+ location → between ≠ above →
    store.find? between = none

/-- If something is at the root, there is a nearest location for every other one. -/
theorem exists_isNearest (h : (store.find? []).isSome = true) (location : Location) :
    ∃ above, store.IsNearest location above := by
  induction location with
  | nil =>
    refine ⟨[], List.suffix_refl _, h, fun between _ hbetween hne => ?_⟩
    exact absurd (List.suffix_nil.1 hbetween) hne
  | cons name location ih =>
    cases hnode : store.find? (name :: location) with
    | some node =>
      refine ⟨name :: location, List.suffix_refl _, by rw [hnode]; rfl, fun between h h' hne => ?_⟩
      exact absurd (h'.eq_of_length_le h.length_le) hne
    | none =>
      obtain ⟨above, hsuffix, habove, hbetween⟩ := ih
      refine ⟨above, hsuffix.trans (List.suffix_cons _ _), habove, fun between h h' hne => ?_⟩
      -- Between the one found above and this one, only this one is new, and it is not there.
      rcases List.suffix_cons_iff.1 h' with rfl | h'
      · exact hnode
      · exact hbetween between h h' hne

/-- Where nothing is, directories are made after the nearest location where something is, down to
the location itself. -/
theorem IsNearest.isMade_iff (h : store.IsNearest location above)
    (hnone : store.find? location = none) :
    store.IsMade location other ↔ above <:+ other ∧ other ≠ above ∧ other <:+ location := by
  have hne : location ≠ above := by
    rintro rfl
    have := h.isSome
    rw [hnone] at this
    exact absurd this (by simp)
  constructor
  · rintro (rfl | ⟨hsuffix, hmissing⟩)
    · exact ⟨h.suffix, hne, List.suffix_refl _⟩
    · -- Nothing is on the way down from the other location, so the nearest one is above it.
      have hpassed : ¬ other <:+ above := by
        intro hother
        have := h.isSome
        rw [hmissing above hother h.suffix (Ne.symm hne)] at this
        exact absurd this (by simp)
      refine ⟨(List.suffix_or_suffix_of_suffix h.suffix hsuffix).resolve_right hpassed, ?_, hsuffix⟩
      rintro rfl
      exact hpassed (List.suffix_refl _)
  · rintro ⟨habove, hother, hsuffix⟩
    refine .inr ⟨hsuffix, fun between hbetween hlocation _ => ?_⟩
    refine h.eq_none between (habove.trans hbetween) hlocation ?_
    rintro rfl
    exact hother (hbetween.eq_of_length_le habove.length_le)

/-! ## Requests that fail -/

/-- Of a change that was settled, only success leaves another store. -/
theorem settled_of_failure {outcome : Except Failure Store} {failure : Failure}
    (h : Failure.of? (store.settled outcome).1 = some failure) :
    (store.settled outcome).2 = store := by
  cases outcome with
  | ok later => cases h
  | error failure => rfl

/-- A request that fails changes nothing. -/
theorem perform_of_failure? {request : Request} {failure : Failure}
    (h : request.failure? (store.perform request).1 = some failure) :
    (store.perform request).2 = store := by
  cases request with
  | write path content =>
    rw [perform_write] at h ⊢
    exact settled_of_failure h
  | mkdir path =>
    rw [perform_mkdir] at h ⊢
    exact settled_of_failure h
  | remove path =>
    rw [perform_remove] at h ⊢
    exact settled_of_failure h
  | _ => rfl

/-- Making a directory fails exactly where a file is. -/
theorem mkdir_eq_error_iff : (∃ failure, store.mkdir path = .error failure) ↔
    ∃ content, store.find? (ofText path) = some (.file content) := by
  rw [mkdir]
  cases store.find? (ofText path) with
  | none => simp
  | some node => cases node <;> simp

/-- A directory that was made, with those between it and the nearest location where something was,
is all that is new. -/
theorem find?_of_mkdir {later : Store} (h : store.mkdir path = .ok later)
    (hnearest : store.IsNearest (ofText path) above) (other : Location) :
    later.find? other =
      if above <:+ other ∧ other ≠ above ∧ other <:+ ofText path then some .directory
      else store.find? other := by
  obtain ⟨hnode, rfl⟩ | ⟨hnone, rfl⟩ := mkdir_eq_ok_iff.1 h
  · -- The directory itself is nearest, and nothing is between it and itself.
    have hsame : above = ofText path := by
      by_contra hne
      have := hnearest.eq_none _ hnearest.suffix (List.suffix_refl _) (Ne.symm hne)
      rw [hnode] at this
      simp at this
    rw [if_neg]
    rintro ⟨habove, hne, hother⟩
    exact hne ((hsame ▸ hother).eq_of_length_le habove.length_le)
  · split_ifs with hbetween
    · exact (find?_makeDirectories _ _ store).1 ((hnearest.isMade_iff hnone).2 hbetween)
    · exact (find?_makeDirectories _ _ store).2 (mt (hnearest.isMade_iff hnone).1 hbetween)

/-! ## All stores that requests lead to -/

/-- In every store that requests lead to, the root is a directory and everything is filed under the
location of a path in normal form. A request that fails changes nothing. A directory cannot be made
exactly where a file is. To make it from below comes to an end, with the same answer and the same
store. If it can be made, then it is, with those between it and the nearest location where something
was, and everything else stays. -/
theorem mkdir_all_or_nothing (requests : List Request) :
    let store := empty.after requests
    (store.find? [] = some .directory ∧
      ∀ key ∈ store.nodes.keys, ofText key.text = key ∧ Location.normalize key.text = key.text) ∧
    (∀ request failure, request.failure? (store.perform request).1 = some failure →
      (store.perform request).2 = store) ∧
    ∀ path,
      (∀ calls, (ofText path).length < calls →
        store.climb calls path = some (store.perform (.mkdir path))) ∧
      ((∃ failure, (store.perform (.mkdir path)).1 = .error failure) ↔
        ∃ content, store.find? (ofText path) = some (.file content)) ∧
      ((store.perform (.mkdir path)).1 = .ok () →
        ∃ above, store.IsNearest (ofText path) above ∧
          ∀ other, (store.perform (.mkdir path)).2.find? other =
            if above <:+ other ∧ other ≠ above ∧ other <:+ ofText path then some .directory
            else store.find? other) := by
  intro store
  have hrooted : store.IsRooted := isRooted_after requests
  have hroot : (store.find? []).isSome = true := by
    rw [hrooted.find?_root]
    rfl
  refine ⟨⟨hrooted.find?_root, fun key hkey => ?_⟩, fun request failure => perform_of_failure?,
    fun path => ⟨fun calls hcalls => ?_, ?_, fun hmade => ?_⟩⟩
  · have hsame := Location.ofText_text (hrooted.isNamed key (mem_keys_iff.1 hkey))
    exact ⟨hsame, congrArg Location.text hsame⟩
  · -- The root is there, so a climb ends before the calls run out.
    rw [perform_mkdir]
    exact climb_eq ⟨[], List.nil_suffix, hroot⟩ hcalls
  · rw [perform_mkdir, ← mkdir_eq_error_iff]
    cases store.mkdir path with
    | ok later => exact exists_congr fun failure => ⟨nofun, nofun⟩
    | error failure => exact ⟨fun _ => ⟨failure, rfl⟩, fun _ => ⟨failure, rfl⟩⟩
  · -- What is made are the locations between the nearest node and the one that is asked for.
    obtain ⟨above, hnearest⟩ := exists_isNearest hroot (ofText path)
    refine ⟨above, hnearest, fun other => ?_⟩
    rw [perform_mkdir] at hmade ⊢
    cases hmkdir : store.mkdir path with
    | error failure =>
      rw [hmkdir] at hmade
      cases hmade
    | ok later => exact find?_of_mkdir hmkdir hnearest other

end Store

end Honeypot
