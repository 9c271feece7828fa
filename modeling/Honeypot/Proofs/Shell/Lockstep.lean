import Honeypot.Proofs.Shell.Accord

/-!
# Shells on streams in lockstep

A shell goes through the same session on streams in lockstep: the same prompts and lines, the same
commands, and the same end.

* `Shell.Lockstep`: shells that have everything in common but their streams, which are in lockstep.
* `Shell.Lockstep.accord`: such shells are in accord, and nothing ever breaks off.
* `Shell.run_lockstep`: whole sessions go alike.
* `Shell.Lockstep.keeps`: a shell in lockstep with itself keeps what its streams keep.
-/

namespace Honeypot

variable {σ ρ : Type} [Supply σ] [Supply ρ] {R : σ → ρ → Prop}

/-- Shells that have everything in common but their streams, which are in lockstep. -/
structure Shell.Lockstep (R : σ → ρ → Prop) (one : Shell σ) (other : Shell ρ) : Prop where
  registry : one.registry = other.registry
  streams : one.streams.Lockstep R other.streams
  recorder : Option.Rel (Duplex.Lockstep R) one.recorder other.recorder
  hostname : one.hostname = other.hostname
  user : one.user = other.user
  home : one.home = other.home

namespace Shell

namespace Lockstep

variable {one : Shell σ} {other : Shell ρ}

/-- Shells in lockstep print in lockstep. -/
theorem terminal (h : one.Lockstep R other) : one.terminal.Lockstep R other.terminal := by
  obtain ⟨_, hstreams, hrecorder, _, _, _⟩ := h
  unfold Shell.terminal
  generalize one.recorder = recorder at hrecorder ⊢
  generalize other.recorder = recorder' at hrecorder ⊢
  cases hrecorder with
  | some hduplex => exact hduplex.sink.lineFeeds
  | none => exact hstreams.output.lineFeeds

/-- Shells in lockstep print diagnostics in lockstep. -/
theorem diagnostics (h : one.Lockstep R other) : one.diagnostics.Lockstep R other.diagnostics := by
  obtain ⟨_, hstreams, hrecorder, _, _, _⟩ := h
  unfold Shell.diagnostics
  generalize one.recorder = recorder at hrecorder ⊢
  generalize other.recorder = recorder' at hrecorder ⊢
  cases hrecorder with
  | some hduplex => exact hduplex.sink.lineFeeds
  | none => exact hstreams.error.sink.lineFeeds

/-- Shells in lockstep read their lines in lockstep. -/
theorem lines (h : one.Lockstep R other) : one.lines.Lockstep R other.lines := by
  obtain ⟨_, hstreams, hrecorder, _, _, _⟩ := h
  unfold Shell.lines
  generalize one.recorder = recorder at hrecorder ⊢
  generalize other.recorder = recorder' at hrecorder ⊢
  cases hrecorder with
  | some hduplex => exact hduplex.source
  | none => exact hstreams.input

/-- Shells in lockstep are in accord, and nothing ever breaks off. -/
theorem accord (h : one.Lockstep R other) (fault : Fault) : one.Accord R Never fault other where
  registry := h.registry
  hostname := h.hostname
  user := h.user
  home := h.home
  print parts := (h.terminal.writeParts parts).until Never _
  diagnose := h.diagnostics.writeParts
  flush := h.terminal.flush
  readLine := h.lines.readLine
  execute name args := by
    have halike := one.registry.execute_lockstep h.streams h.recorder name args
    rw [h.registry] at halike ⊢
    exact halike.until (Machine.Apart Never) _
  stuck _ _ hfalse := hfalse.elim
  keeps _ := other.keeps_false

end Lockstep

/-- Shells in lockstep go through the same session. -/
theorem run_lockstep {one : Shell σ} {other : Shell ρ} (h : one.Lockstep R other) :
    Alike (Session.Related R) one.run other.run :=
  (h.accord .brokenPipe).run_until.alike fun _ _ => id

/-- A shell in lockstep with itself keeps what its streams keep. -/
theorem Lockstep.keeps {shell : Shell σ} {kept : σ → Prop}
    (h : shell.Lockstep (Kept kept) shell) : shell.Keeps kept := by
  -- A session that keeps the condition is related to itself.
  have hself {session : Session σ} (hkept : kept session.machine.plumbing) :
      Session.Related (Kept kept) session session := ⟨.kept hkept, rfl⟩
  have hrunLine (line : String) := ((h.accord .brokenPipe).runLine_until line).alike fun _ _ => id
  constructor
  · exact fun parts s hs => (h.diagnostics.writeParts parts).kept hs
  · exact fun s hs => h.terminal.flush.kept hs
  · exact fun s hs => h.lines.readLine.kept hs
  · intro line session hkept
    exact (hrunLine line session session (hself hkept)).2.machine.plumbing.2
  · intro session hkept
    exact (run_lockstep h session session (hself hkept)).2.machine.plumbing.2

end Shell

end Honeypot
