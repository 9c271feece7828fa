import Honeypot.Proofs.Store.Walk
import Mathlib.Tactic.TFAE

/-!
# The hierarchy of directories

Whether the nodes of a store form a hierarchy depends on one thing only: that no directory is made
below a file. A directory that is made there is found by its path, but no walk meets it.

* `Store.hierarchy_tfae`: along a run, that every node stands in a directory, that walks meet every
  node, and that directories are made below directories, all mean that the run is clear.
* `Store.not_grounded_after_belowFile`: two requests after which a directory is below a file.

## References

- [SPEC] `SPEC_FULL.md`: §6, External Interfaces
-/

namespace Honeypot

namespace Store

/-- A directory that is missing below a file is made there, and the file stays. -/
theorem perform_mkdir_of_hasFileAbove {store : Store} (h : store.Grounded) {path : String}
    (hfile : store.HasFileAbove (Location.ofText path)) :
    (store.perform (.mkdir path)).1 = .ok () ∧
      ∃ above, above <:+ Location.ofText path ∧
        (store.perform (.mkdir path)).2.find? above ≠ some .directory := by
  have hnone : store.find? (Location.ofText path) = none := by
    by_contra hsome
    exact h.not_hasFileAbove (Option.isSome_iff_ne_none.2 hsome) hfile
  have hperform : store.perform (.mkdir path) =
      (.ok (), makeDirectories (Location.ofText path) store) := by
    rw [perform_mkdir, mkdir, hnone]
    rfl
  obtain ⟨above, hsuffix, hne, content, hcontent⟩ := hfile
  rw [hperform]
  refine ⟨rfl, above, hsuffix, ?_⟩
  rw [find?_makeDirectories_of_isSome (by rw [hcontent]; rfl) hne, hcontent]
  simp

/-- A directory that was made in a grounded store, with no file above it, has directories above
it. -/
theorem find?_above_perform_mkdir {store : Store} (h : store.Grounded) {path : String}
    (hfile : ¬ store.HasFileAbove (Location.ofText path))
    (hanswer : (store.perform (.mkdir path)).1 = .ok ()) {above : Location}
    (hsuffix : above <:+ Location.ofText path) :
    (store.perform (.mkdir path)).2.find? above = some .directory := by
  rw [perform_mkdir, mkdir] at hanswer ⊢
  cases hnode : store.find? (Location.ofText path) with
  | none =>
    simp only [settled]
    exact h.find?_makeDirectories_above hfile hsuffix
  | some node =>
    cases node with
    | file content => simp [hnode, settled] at hanswer
    | directory =>
      -- It was there before, so that nothing has changed.
      simp only [settled]
      by_cases heq : above = Location.ofText path
      · rw [heq, hnode]
      · exact h.find?_above (by rw [hnode]; rfl) hsuffix heq

/-- A run is clear if every directory that is made in it gets nothing but directories above it. -/
theorem grounded_after_of_mkdir {requests : List Request}
    (h : ∀ earlier path, earlier ++ [.mkdir path] <+: requests →
      ((empty.after earlier).perform (.mkdir path)).1 = .ok () →
        ∀ above, above <:+ Location.ofText path →
          (empty.after (earlier ++ [.mkdir path])).find? above = some .directory)
    {earlier : List Request} (hearlier : earlier <+: requests) :
    (empty.after earlier).Grounded := by
  -- Backwards over the run: what is added to it is its last request.
  induction earlier using List.reverseRecOn with
  | nil => exact grounded_empty
  | append_singleton earlier request ih =>
    have hgrounded := ih ((List.prefix_append _ _).trans hearlier)
    rw [after_append, after_cons, after_nil, grounded_perform_iff hgrounded]
    intro hbelow
    cases request with
    | mkdir path =>
      obtain ⟨hanswer, above, hsuffix, hnode⟩ := perform_mkdir_of_hasFileAbove hgrounded hbelow
      have hdirectory := h earlier path hearlier hanswer above hsuffix
      rw [after_append, after_cons, after_nil] at hdirectory
      exact hnode hdirectory
    | _ => exact hbelow

/-- Along a run that starts with the empty store, these are the same: no directory is made below a
file; every node stands in a directory; a walk from the root meets every other node; a directory
that was made has nothing but directories above it. -/
theorem hierarchy_tfae (requests : List Request) :
    List.TFAE [
      empty.Clear requests,
      ∀ earlier, earlier <+: requests → (empty.after earlier).Grounded,
      ∀ earlier, earlier <+: requests → ∀ location,
        ((empty.after earlier).find? location).isSome = true → location ≠ Location.root →
          location.text ∈ (empty.after earlier).walk (empty.after earlier).size "/",
      ∀ earlier path, earlier ++ [.mkdir path] <+: requests →
        ((empty.after earlier).perform (.mkdir path)).1 = .ok () →
          ∀ above, above <:+ Location.ofText path →
            (empty.after (earlier ++ [.mkdir path])).find? above = some .directory] := by
  tfae_have 1 ↔ 2 := clear_iff_grounded grounded_empty requests
  tfae_have 2 ↔ 3 := by
    refine forall₂_congr fun earlier _ => ?_
    exact grounded_iff_walk (isRooted_after earlier)
  -- No file was above, as the store is still grounded after the directory was made.
  tfae_have 1 → 4 := by
    intro hclear earlier path hearlier hanswer above hsuffix
    have hgrounded := (hclear.of_isPrefix ((List.prefix_append _ _).trans hearlier)).grounded_after
      grounded_empty
    have hnext := (hclear.of_isPrefix hearlier).grounded_after grounded_empty
    rw [after_append, after_cons, after_nil] at hnext ⊢
    rw [grounded_perform_iff hgrounded] at hnext
    exact find?_above_perform_mkdir hgrounded hnext hanswer hsuffix
  tfae_have 4 → 2 := fun h earlier hearlier => grounded_after_of_mkdir h hearlier
  tfae_finish

/-- Requests that put a file into the root and make a directory below it. -/
def belowFile : List Request :=
  [.write "/f" [120], .mkdir "/f/d"]

/-- A directory that is made below a file is there. It does not stand in a directory, and no walk
meets it. -/
theorem not_grounded_after_belowFile :
    (empty.after belowFile).find? ["f"] = some (.file [120]) ∧
      (empty.after belowFile).find? ["d", "f"] = some .directory ∧
      ¬ (empty.after belowFile).Grounded ∧
      (empty.after belowFile).walk (empty.after belowFile).size "/" = ["/f"] := by
  have hfile : (empty.after belowFile).find? ["f"] = some (.file [120]) := by decide +kernel
  have hdirectory : (empty.after belowFile).find? ["d", "f"] = some .directory := by
    decide +kernel
  refine ⟨hfile, hdirectory, fun hgrounded => ?_, by decide +kernel⟩
  have habove := hgrounded "d" ["f"] (by rw [hdirectory]; rfl)
  rw [hfile] at habove
  simp at habove

end Store

end Honeypot
