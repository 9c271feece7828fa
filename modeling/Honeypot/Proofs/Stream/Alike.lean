import Honeypot.Stream.Basic

/-!
# Actions that go alike

Two actions, each on a plumbing of its own, go alike if they give the same on plumbings that are
related before them, and leave the plumbings related. They may also do so only until the one breaks
off.

* `Alike`, `AlikeUntil`: actions that go alike, for good or until the one breaks off.
* `Kept`: what an action keeps, as going alike with itself.
* `andThen`, `AlikeUntil.andThen`: actions that may fail, one after the other.
* `AlikeUntil.writeParts`: buffers one after the other, from one buffer.
-/

namespace Honeypot

variable {σ ρ α β : Type}

/-- Actions that give the same on related plumbings, and leave the plumbings related. -/
def Alike (R : σ → ρ → Prop) (one : σ → α × σ) (other : ρ → α × ρ) : Prop :=
  ∀ s t, R s t → (one s).1 = (other t).1 ∧ R (one s).2 (other t).2

/-- Results that are alike have one answer. -/
theorem exists_eq_of_alike {R : σ → ρ → Prop} {one : α × σ} {other : α × ρ} {answer : α} {s : σ}
    (h : one.1 = other.1 ∧ R one.2 other.2) (hone : one = (answer, s)) :
    ∃ t, other = (answer, t) ∧ R s t := by
  subst hone
  exact ⟨other.2, Prod.ext h.1.symm rfl, h.2⟩

/-- What one action does, the other one does as well. -/
theorem Alike.of_eq {R : σ → ρ → Prop} {one : σ → α × σ} {other : ρ → α × ρ}
    (h : Alike R one other) {s s' : σ} {t : ρ} {answer : α} (hst : R s t)
    (hone : one s = (answer, s')) : ∃ t', other t = (answer, t') ∧ R s' t' :=
  exists_eq_of_alike (h s t hst) hone

/-- An action goes alike with itself. -/
theorem Alike.refl (action : σ → α × σ) : Alike Eq action action := by
  rintro s _ rfl
  exact ⟨rfl, rfl⟩

/-- One plumbing, seen twice, of which something holds. -/
def Kept (kept : σ → Prop) (s s' : σ) : Prop := s = s' ∧ kept s

/-- What an action that goes alike with itself keeps holds after it. -/
theorem Alike.kept {kept : σ → Prop} {action : σ → α × σ}
    (h : Alike (Kept kept) action action) {s : σ} (hs : kept s) : kept (action s).2 := by
  obtain ⟨-, hsame, hlater⟩ := h s s ⟨rfl, hs⟩
  exact hlater

/-! ## Until one breaks off -/

/-- Actions that give the same on related plumbings and leave them related, unless the one breaks
off: then it gives one of certain answers, and the plumbings are apart. -/
def AlikeUntil (R C : σ → ρ → Prop) (broken : α → Prop) (one : σ → α × σ) (other : ρ → α × ρ) :
    Prop :=
  ∀ s t, R s t →
    ((one s).1 = (other t).1 ∧ R (one s).2 (other t).2) ∨
      (broken (one s).1 ∧ C (one s).2 (other t).2)

/-- The relation of plumbings that are apart when nothing ever breaks off. -/
def Never : σ → ρ → Prop := fun _ _ => False

theorem Alike.until {R : σ → ρ → Prop} {one : σ → α × σ} {other : ρ → α × ρ}
    (h : Alike R one other) (C : σ → ρ → Prop) (broken : α → Prop) :
    AlikeUntil R C broken one other :=
  fun s t hst => .inl (h s t hst)

/-- Where nothing ever breaks off, actions go alike to their end. -/
theorem AlikeUntil.alike {R C : σ → ρ → Prop} {broken : α → Prop} {one : σ → α × σ}
    {other : ρ → α × ρ} (h : AlikeUntil R C broken one other) (hC : ∀ s t, ¬ C s t) :
    Alike R one other :=
  fun s t hst => (h s t hst).resolve_right fun hapart => hC _ _ hapart.2

theorem AlikeUntil.mono {R C C' : σ → ρ → Prop} {broken broken' : α → Prop} {one : σ → α × σ}
    {other : ρ → α × ρ} (h : AlikeUntil R C broken one other) (hC : ∀ s t, C s t → C' s t)
    (hbroken : ∀ answer, broken answer → broken' answer) :
    AlikeUntil R C' broken' one other :=
  fun s t hst => (h s t hst).imp id fun hapart => ⟨hbroken _ hapart.1, hC _ _ hapart.2⟩

/-- An action that may fail, and another one after it if it did not. -/
def andThen (first : σ → Except Fault β × σ) (next : β → σ → Except Fault α × σ) (s : σ) :
    Except Fault α × σ :=
  match first s with
  | (.ok result, s) => next result s
  | (.error fault, s) => (.error fault, s)

/-- One action after another goes alike until either of them breaks off. What the other side goes
on to do must not bring the two together again. -/
theorem AlikeUntil.andThen {R C : σ → ρ → Prop} {stopped : Except Fault β → Prop}
    {broken : Except Fault α → Prop} {first : σ → Except Fault β × σ}
    {first' : ρ → Except Fault β × ρ} {next : β → σ → Except Fault α × σ}
    {next' : β → ρ → Except Fault α × ρ} {fault : Fault}
    (hfirst : AlikeUntil R C stopped first first')
    (hstopped : ∀ answer, stopped answer → answer = .error fault)
    (hnext : ∀ result, AlikeUntil R C broken (next result) (next' result))
    (hbroken : broken (.error fault))
    (hstays : ∀ result s t, C s t → C s (next' result t).2) :
    AlikeUntil R C broken (andThen first next) (andThen first' next') := by
  intro s t hst
  unfold Honeypot.andThen
  rcases hone : first s with ⟨answer, s'⟩
  rcases hother : first' t with ⟨answer', t'⟩
  have h := hfirst s t hst
  rw [hone, hother] at h
  dsimp only at h ⊢
  rcases h with ⟨rfl, hrelated⟩ | ⟨hanswer, hapart⟩
  · cases answer with
    | ok result => exact hnext result s' t' hrelated
    | error fault => exact .inl ⟨rfl, hrelated⟩
  · -- The one has stopped with the fault; the other may have another answer, and go on.
    obtain rfl := hstopped answer hanswer
    refine .inr ⟨hbroken, ?_⟩
    cases answer' with
    | ok result => exact hstays result s' t' hapart
    | error fault => exact hapart

/-- One action after another goes alike if both do. -/
theorem Alike.andThen {R : σ → ρ → Prop} {first : σ → Except Fault β × σ}
    {first' : ρ → Except Fault β × ρ} {next : β → σ → Except Fault α × σ}
    {next' : β → ρ → Except Fault α × ρ} (hfirst : Alike R first first')
    (hnext : ∀ result, Alike R (next result) (next' result)) :
    Alike R (Honeypot.andThen first next) (Honeypot.andThen first' next') := by
  intro s t hst
  unfold Honeypot.andThen
  rcases hone : first s with ⟨answer, s'⟩
  obtain ⟨t', hother, hrelated⟩ := hfirst.of_eq hst hone
  rw [hother]
  cases answer with
  | ok result => exact hnext result s' t' hrelated
  | error fault => exact ⟨rfl, hrelated⟩

/-! ## Buffers one after the other -/

variable [Supply σ] [Supply ρ]

theorem Sink.writeParts_cons (sink : Sink σ) (part : Bytes) (parts : List Bytes) :
    sink.writeParts (part :: parts) =
      andThen (sink.writeAll part) fun _ => sink.writeParts parts := by
  funext s
  rw [writeParts, andThen]
  rcases sink.writeAll part s with ⟨_ | _, s'⟩ <;> rfl

/-- Buffers one after the other go alike until a buffer breaks off. -/
theorem AlikeUntil.writeParts {R C : σ → ρ → Prop} {fault : Fault} {one : Sink σ} {other : Sink ρ}
    (h : ∀ bytes, AlikeUntil R C (· = .error fault) (one.writeAll bytes) (other.writeAll bytes))
    (hstays : ∀ parts s t, C s t → C s (other.writeParts parts t).2) (parts : List Bytes) :
    AlikeUntil R C (· = .error fault) (one.writeParts parts) (other.writeParts parts) := by
  induction parts with
  | nil => exact fun _ _ hst => .inl ⟨rfl, hst⟩
  | cons part parts ih =>
    rw [Sink.writeParts_cons, Sink.writeParts_cons]
    exact (h part).andThen (fun _ => id) (fun _ => ih) rfl fun _ => hstays parts

/-- Buffers one after the other go alike if every buffer does. -/
theorem Alike.writeParts {R : σ → ρ → Prop} {one : Sink σ} {other : Sink ρ}
    (h : ∀ bytes, Alike R (one.writeAll bytes) (other.writeAll bytes)) (parts : List Bytes) :
    Alike R (one.writeParts parts) (other.writeParts parts) := by
  have huntil (bytes : Bytes) : AlikeUntil R Never (· = .error .interrupted) (one.writeAll bytes)
      (other.writeAll bytes) := (h bytes).until Never _
  exact (AlikeUntil.writeParts huntil (fun _ _ _ hfalse => hfalse) parts).alike fun _ _ => id

end Honeypot
