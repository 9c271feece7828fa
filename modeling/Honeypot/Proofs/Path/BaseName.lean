import Honeypot.Console
import Honeypot.Proofs.Path.Location
import Honeypot.Proofs.Process.Lockstep

/-!
# Base names

The base name of a path text is the last of its components, the pieces between slashes that are not
empty. Nothing before the last component has a part in it, nor do slashes at the end, so a command
is selected by its name wherever it is said to be.

* `Path.components`: the components of a path text.
* `Path.Form`, `Path.form`: slashes alone, or a name after a slash or nothing, and slashes after it.
* `Path.baseName_of_name`, `Path.components_of_name`: the base name and the components of the
  latter.
* `Path.baseName_eq`: the base name is the last component, if there is one.
* `Registry.execute_sameCall`: two paths with one base name run one command.
* `Path.baseName_selects`: base names of all path texts, and the commands that they select.

## References

- [SPEC] `SPEC_FULL.md`: §4.5, Dispatcher
-/

namespace Honeypot

namespace Path

/-- The pieces of a path text that are not empty. -/
def components (path : String) : List String :=
  (Location.pieces path).filter (· ≠ "")

/-- So many slashes. -/
def slashes (count : Nat) : String := String.ofList (List.replicate count '/')

/-- Whether a text can stand before a name in a path: nothing, or a directory and a slash. -/
def IsLead (lead : String) : Prop :=
  lead = "" ∨ ∃ directory, lead = directory ++ "/"

variable {lead name : String}

/-! ## Slashes at the end -/

theorem slashes_succ (count : Nat) : slashes (count + 1) = slashes count ++ "/" := by
  rw [slashes, List.replicate_succ', String.ofList_append]
  rfl

/-- Slashes at the end of a path text add no component. -/
theorem components_append_slashes (path : String) (count : Nat) :
    components (path ++ slashes count) = components path := by
  induction count with
  | zero => exact congrArg components (String.append_empty)
  | succ count ih =>
    -- After the last slash there is an empty piece.
    have hpieces : Location.pieces (path ++ slashes count ++ "/" ++ "") =
        Location.pieces (path ++ slashes count) ++ [""] := Location.pieces_append_slash _ _
    rw [slashes_succ, ← ih, ← String.append_assoc, ← String.append_empty (s := _ ++ "/"),
      components, hpieces, List.filter_append]
    simp [components]

/-! ## The last name of a path -/

/-- A path text of slashes alone, or one that ends with a name after nothing or a slash, and maybe
slashes after the name. -/
inductive Form : String → Prop where
  | bare (count : Nat) : Form (slashes count)
  | named {lead name : String} (hlead : IsLead lead) (hne : name ≠ "") (hslash : '/' ∉ name.toList)
    (count : Nat) : Form (lead ++ name ++ slashes count)

theorem Form.slash_append {path : String} (h : Form path) : Form ("/" ++ path) := by
  cases h with
  | bare count =>
    have hcount : "/" ++ slashes count = slashes (count + 1) := String.toList_inj.1 (by
      simp [slashes, List.replicate_succ])
    rw [hcount]
    exact .bare (count + 1)
  | @named lead name hlead hne hslash count =>
    have hlonger : IsLead ("/" ++ lead) := by
      rcases hlead with rfl | ⟨directory, rfl⟩
      · exact .inr ⟨"", rfl⟩
      · exact .inr ⟨"/" ++ directory, String.append_assoc.symm⟩
    rw [← String.append_assoc, ← String.append_assoc]
    exact .named hlonger hne hslash count

theorem Form.append {path : String} (h : Form path) {c : Char} (hc : '/' ≠ c) :
    Form (String.ofList [c] ++ path) := by
  cases h with
  | bare count =>
    rw [← String.empty_append (s := String.ofList [c])]
    exact .named (.inl rfl) (by simp) (by simpa using hc) count
  | @named lead name hlead hne hslash count =>
    rcases hlead with rfl | ⟨directory, rfl⟩
    · -- The name gets longer.
      rw [String.empty_append, ← String.append_assoc, ← String.empty_append (s := _ ++ name)]
      exact .named (.inl rfl) (by simp) (by simpa using ⟨hc, hslash⟩) count
    · -- The directory before the name does.
      simp only [← String.append_assoc]
      exact .named (.inr ⟨String.ofList [c] ++ directory, rfl⟩) hne hslash count

/-- Every path text has one of the two forms. -/
theorem form (path : String) : Form path := by
  suffices h : ∀ chars : List Char, Form (String.ofList chars) by
    simpa using h path.toList
  intro chars
  induction chars with
  | nil => exact .bare 0
  | cons c chars ih =>
    rw [← List.singleton_append, String.ofList_append]
    by_cases hc : '/' = c
    · subst hc
      exact ih.slash_append
    · exact ih.append hc

/-- The base name of slashes is one of them. -/
theorem baseName_slashes (count : Nat) : baseName (slashes (count + 1)) = "/" := by
  have hne : slashes (count + 1) ≠ "" := by simp [slashes]
  rw [baseName, if_neg hne, slashes, String.toList_ofList, List.reverse_replicate]
  have hnone : (List.replicate (count + 1) '/').dropWhile (· == '/') = [] := by simp
  rw [hnone]

/-- The base name is the name, whatever is before it and however many slashes are after it. -/
theorem baseName_of_name (hlead : IsLead lead) (hne : name ≠ "") (hslash : '/' ∉ name.toList)
    (count : Nat) : baseName (lead ++ name ++ slashes count) = name := by
  have hpath : lead ++ name ++ slashes count ≠ "" := by simp [hne]
  have hreverse : (lead ++ name ++ slashes count).toList.reverse =
      List.replicate count '/' ++ (name.toList.reverse ++ lead.toList.reverse) := by
    simp [slashes]
  obtain ⟨c, rest, hname⟩ : ∃ c rest, name.toList.reverse = c :: rest :=
    List.exists_cons_of_ne_nil (by simpa using hne)
  have hplain : ∀ d ∈ name.toList.reverse, (d != '/') = true := by
    intro d hd
    rw [List.mem_reverse] at hd
    exact bne_iff_ne.2 fun h => hslash (h ▸ hd)
  have hfirst : ¬ (c == '/') = true := by
    have hc := hplain c (hname ▸ List.mem_cons_self)
    simpa using hc
  -- Read from the end, there are the slashes, the name, and a slash or nothing.
  have htrimmed : (lead ++ name ++ slashes count).toList.reverse.dropWhile (· == '/') =
      c :: (rest ++ lead.toList.reverse) := by
    rw [hreverse, List.dropWhile_append_of_pos (by simp), hname, List.cons_append,
      List.dropWhile_cons_of_neg (p := (· == '/')) hfirst]
  have hlast : (c :: (rest ++ lead.toList.reverse)).takeWhile (· != '/') = name.toList.reverse := by
    have hstop : lead.toList.reverse.takeWhile (· != '/') = [] := by
      rcases hlead with rfl | ⟨directory, rfl⟩ <;> simp
    rw [← List.cons_append, ← hname, List.takeWhile_append_of_pos hplain, hstop, List.append_nil]
  rw [baseName, if_neg hpath, htrimmed]
  dsimp only
  rw [hlast, List.reverse_reverse, String.ofList_toList]

theorem components_of_name (hlead : IsLead lead) (hne : name ≠ "") (hslash : '/' ∉ name.toList)
    (count : Nat) : components (lead ++ name ++ slashes count) = components lead ++ [name] := by
  rw [components_append_slashes]
  have hname : components name = [name] := by
    rw [components, Location.pieces_of_not_mem hslash]
    simp [hne]
  rcases hlead with rfl | ⟨directory, rfl⟩
  · rw [String.empty_append, hname]
    rfl
  · -- The slash at the end of the lead adds no component either.
    have hslash : components (directory ++ "/") = components directory :=
      components_append_slashes directory 1
    rw [hslash, components, Location.pieces_append_slash, List.filter_append]
    exact congrArg (components directory ++ ·) hname

/-- Slashes have no components. -/
theorem components_slashes (count : Nat) : components (slashes count) = [] := by
  rw [← String.empty_append (s := slashes count), components_append_slashes]
  rfl

/-- Only slashes have no components. -/
theorem components_eq_nil_iff {path : String} :
    components path = [] ↔ ∀ c ∈ path.toList, c = '/' := by
  cases form path with
  | bare count => exact iff_of_true (components_slashes count) (by simp [slashes])
  | @named lead name hlead hne hslash count =>
    rw [components_of_name hlead hne hslash]
    refine iff_of_false (by simp) fun hall => ?_
    obtain ⟨c, hc⟩ := List.exists_mem_of_ne_nil name.toList (by simpa using hne)
    have hc' : c = '/' := hall c (by simp [hc])
    exact hslash (hc' ▸ hc)

/-- The base name is the last component, if there is one. -/
theorem baseName_eq (path : String) :
    baseName path = if path = "" then "." else (components path).getLast?.getD "/" := by
  cases form path with
  | bare count =>
    cases count with
    | zero => rfl
    | succ count =>
      have hne : slashes (count + 1) ≠ "" := by simp [slashes]
      rw [baseName_slashes, components_slashes, if_neg hne]
      rfl
  | @named lead name hlead hne hslash count =>
    have hpath : lead ++ name ++ slashes count ≠ "" := by simp [hne]
    rw [baseName_of_name hlead hne hslash, components_of_name hlead hne hslash, if_neg hpath]
    simp

/-- A name is its own base name. -/
theorem baseName_of_not_mem (hne : name ≠ "") (hslash : '/' ∉ name.toList) :
    baseName name = name := by
  have h := baseName_of_name (.inl rfl) hne hslash 0
  rwa [String.empty_append, slashes, List.replicate_zero, String.ofList_nil, String.append_empty]
    at h

/-- A base name is a slash, or a name without any. -/
theorem baseName_cases (path : String) :
    baseName path = "/" ∨ baseName path ≠ "" ∧ '/' ∉ (baseName path).toList := by
  cases form path with
  | bare count =>
    cases count with
    | zero => exact .inr (by decide)
    | succ count => exact .inl (baseName_slashes count)
  | named hlead hne hslash count =>
    rw [baseName_of_name hlead hne hslash]
    exact .inr ⟨hne, hslash⟩

end Path

/-! ## The commands that paths select -/

namespace Registry

variable {σ : Type} [Supply σ]

/-- Whether two calls come to the same, apart from the paths that their failures and reports
name. -/
structure SameCall (one other : Except Failure Status × Machine σ) : Prop where
  status : one.1.toOption = other.1.toOption
  process : one.2.process = other.2.process
  plumbing : one.2.plumbing = other.2.plumbing

/-- Paths with one base name select one command. -/
theorem execute_sameCall {one other : String} (h : Path.baseName one = Path.baseName other)
    (registry : Registry) (streams : Streams σ) (observer : Option (Duplex σ)) (args : List String)
    (machine : Machine σ) :
    SameCall (registry.execute streams observer one args machine)
      (registry.execute streams observer other args machine) := by
  -- The path itself is only read for the report of a call that found nothing or failed.
  cases hcommand : registry.find? (Path.baseName other) with
  | none =>
    rw [execute_of_find?_eq_none (h ▸ hcommand), execute_of_find?_eq_none hcommand]
    exact ⟨rfl, rfl, rfl⟩
  | some command =>
    rw [execute_of_find? (h ▸ hcommand), execute_of_find? hcommand]
    rcases (command.program args).run (streams.boundTo observer) machine with ⟨answer, later⟩
    cases answer with
    | ok status => exact ⟨rfl, rfl, rfl⟩
    | error crash => exact ⟨rfl, rfl, rfl⟩

end Registry

namespace Path

variable {σ : Type} [Supply σ]

/-- The base name of nothing is a dot, that of slashes is a slash, and that of any other path text
is its last component. There is no slash in it unless it is one, and it is its own base name. A name
without slashes is the base name of every path text that ends with it after a slash, however many
slashes follow, and all of these call the command that the name alone calls. -/
theorem baseName_selects (path : String) (registry : Registry) (streams : Streams σ)
    (observer : Option (Duplex σ)) (args : List String) (machine : Machine σ) :
    (path = "" → baseName path = ".") ∧
    (path ≠ "" → (∀ c ∈ path.toList, c = '/') → baseName path = "/") ∧
    ((∃ c ∈ path.toList, c ≠ '/') → (components path).getLast? = some (baseName path)) ∧
    ('/' ∈ (baseName path).toList ↔ baseName path = "/") ∧
    baseName (baseName path) = baseName path ∧
    ∀ (directory name : String) (count : Nat), name ≠ "" → '/' ∉ name.toList →
      let typed := directory ++ "/" ++ name ++ slashes count
      baseName typed = baseName name ∧ baseName name = name ∧
      registry.find? (baseName typed) = registry.find? name ∧
      Registry.SameCall (registry.execute streams observer typed args machine)
        (registry.execute streams observer name args machine) := by
  refine ⟨?_, ?_, ?_, ?_, ?_, ?_⟩
  · rintro rfl
    rfl
  · intro hne hall
    rw [baseName_eq, if_neg hne, components_eq_nil_iff.2 hall]
    rfl
  · -- A character that is no slash makes a component, and the last one is the base name.
    rintro ⟨c, hc, hne⟩
    have hcomponents : components path ≠ [] := fun h => hne (components_eq_nil_iff.1 h c hc)
    have hpath : path ≠ "" := by
      rintro rfl
      exact absurd hc List.not_mem_nil
    rw [baseName_eq, if_neg hpath, List.getLast?_eq_some_getLast hcomponents, Option.getD_some]
  · rcases baseName_cases path with h | ⟨-, hslash⟩
    · rw [h]
      decide
    · exact iff_of_false hslash fun h => hslash (h ▸ (by decide))
  · rcases baseName_cases path with h | ⟨hne, hslash⟩
    · rw [h]
      rfl
    · exact baseName_of_not_mem hne hslash
  · -- The command is selected by the base name, which is the name that was typed last.
    intro directory name count hne hslash typed
    have htyped : baseName typed = name := baseName_of_name (.inr ⟨directory, rfl⟩) hne hslash count
    have hname : baseName name = name := baseName_of_not_mem hne hslash
    exact ⟨htyped.trans hname.symm, hname, congrArg registry.find? htyped,
      Registry.execute_sameCall (htyped.trans hname.symm) registry streams observer args machine⟩

/-- A command called by its name after a directory with two slashes, a dot and a character of two
bytes, and with slashes after it. -/
theorem baseName_selects_pwd :
    let registry := Registry.ofList (Userland.commands "svr04")
    let machine : Machine Wiring :=
      ⟨⟨"console", "/srv", ∅, .ofStore .empty, ⟨80, 24⟩, .insertion⟩, {}, []⟩
    let typed := "//opt/./é" ++ "/" ++ "pwd" ++ slashes 3
    "pwd" ≠ "" ∧ '/' ∉ "pwd".toList ∧ baseName typed = "pwd" ∧
      (registry.execute Wiring.streams none typed [] machine).1.toOption = some 0 := by
  intro registry machine typed
  have hname : "pwd" ≠ "" ∧ '/' ∉ "pwd".toList := by decide
  obtain ⟨-, -, -, -, -, hselects⟩ :=
    baseName_selects typed registry Wiring.streams none [] machine
  obtain ⟨htyped, hself, -, hcall⟩ := hselects "//opt/./é" "pwd" 3 hname.1 hname.2
  refine ⟨hname.1, hname.2, htyped.trans hself, hcall.status.trans ?_⟩
  decide +kernel

end Path

end Honeypot
