import Honeypot.Proofs.Process.Orderly
import Honeypot.Proofs.Shell.Lockstep

/-!
# Shells whose commands are orderly

As orderly commands do not crash, such a shell never falls back on its own error channel. It is the
shell on the streams to which it is bound: those of its recorder if it has one, and its own
otherwise.

* `Shell.on`: a shell on other streams, without a recorder.
* `Shell.run_bound`: a shell runs as it does on the streams to which it is bound.
* `Shell.accord_on`: on streams in accord, shells are in accord.
-/

namespace Honeypot

variable {σ ρ τ : Type}

/-- Machines that differ in nothing are equal. -/
theorem Machine.Related.eq {one other : Machine σ} (h : one.Related Eq other) : one = other := by
  obtain ⟨_, _, _⟩ := one
  obtain ⟨_, _, _⟩ := other
  obtain ⟨rfl, rfl, rfl⟩ := h
  rfl

/-- Sessions that differ in nothing are equal. -/
theorem Session.Related.eq {one other : Session σ} (h : one.Related Eq other) : one = other := by
  obtain ⟨machine, status⟩ := one
  obtain ⟨machine', status'⟩ := other
  obtain ⟨hmachine, rfl⟩ := h
  cases hmachine.eq
  rfl

variable [Supply σ] [Supply ρ] [Supply τ]

namespace Shell

/-! ## Other streams -/

/-- A shell on other streams, without a recorder. -/
def on (shell : Shell τ) (streams : Streams σ) : Shell σ :=
  ⟨shell.registry, streams, none, shell.hostname, shell.user, shell.home⟩

/-- A shell on the streams to which it is bound. -/
def bound (shell : Shell σ) : Shell σ := shell.on (shell.streams.boundTo shell.recorder)

/-- A shell with orderly commands is in accord with itself on the streams to which it is bound. -/
theorem accord_bound (shell : Shell σ) (h : shell.registry.IsOrderly) :
    shell.Accord Eq Never .brokenPipe shell.bound := by
  obtain ⟨registry, streams, recorder, hostname, user, home⟩ := shell
  -- The shell prints, complains and reads at the streams of the recorder if there is one.
  have hplaces : ∀ shell : Shell σ, shell.bound.terminal = shell.terminal ∧
      shell.bound.diagnostics = shell.diagnostics ∧ shell.bound.lines = shell.lines := by
    rintro ⟨_, _, _ | _, _, _, _⟩
    · exact ⟨rfl, rfl, rfl⟩
    · exact ⟨rfl, rfl, rfl⟩
  obtain ⟨hterminal, hdiagnostics, hlines⟩ :=
    hplaces ⟨registry, streams, recorder, hostname, user, home⟩
  constructor
  case registry | hostname | user | home => rfl
  case print =>
    rw [hterminal]
    exact fun parts => (Alike.refl _).until Never _
  case diagnose =>
    rw [hdiagnostics]
    exact fun parts => Alike.refl _
  case flush =>
    rw [hterminal]
    exact Alike.refl _
  case readLine =>
    rw [hlines]
    exact Alike.refl _
  case execute =>
    intro name args machine machine' hrelated
    cases hrelated.eq
    -- No command crashes, so nothing is written to the shell's own error channel.
    have hexecute := congrFun (h.execute_boundTo streams recorder name args) machine
    dsimp only at hexecute ⊢
    rw [hexecute]
    exact .inl ⟨rfl, rfl, rfl, rfl⟩
  case stuck => exact fun _ _ hfalse => hfalse.elim
  case keeps => exact fun _ => keeps_false _

/-- A shell with orderly commands runs as it does on the streams to which it is bound. -/
theorem run_bound (shell : Shell σ) (h : shell.registry.IsOrderly) (session : Session σ) :
    shell.run session = shell.bound.run session := by
  have hself : Session.Related Eq session session := ⟨⟨rfl, rfl, rfl⟩, rfl⟩
  obtain ⟨hanswer, hlater⟩ :=
    (shell.accord_bound h).run_until.alike (fun _ _ => id) session session hself
  exact Prod.ext hanswer hlater.eq

/-- On streams in accord, a shell with orderly commands is in accord with itself. -/
theorem accord_on (shell : Shell τ) (h : shell.registry.IsOrderly) {R C : σ → ρ → Prop}
    {fault : Fault} {one : Streams σ} {other : Streams ρ} (hstreams : one.Accord R C fault other) :
    (shell.on one).Accord R C fault (shell.on other) where
  registry := rfl
  hostname := rfl
  user := rfl
  home := rfl
  print := by
    refine AlikeUntil.writeParts hstreams.print fun parts s t hst => ?_
    exact ((hstreams.keeps s).output.lineFeeds.writeParts parts).kept hst
  diagnose := Alike.writeParts hstreams.diagnose
  flush := hstreams.flush
  readLine := hstreams.readLine
  execute := h.execute_until hstreams
  stuck := hstreams.stuck
  keeps s := Lockstep.keeps ⟨rfl, hstreams.keeps s, .none, rfl, rfl, rfl⟩

end Shell

end Honeypot
