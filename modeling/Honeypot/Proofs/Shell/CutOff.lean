import Honeypot.Proofs.Shell.Disturbance

/-!
# Sessions whose output breaks off

The standard output of a session takes so many bytes and then fails. Up to there the session goes as
it does with an output that takes everything, and then it stops: nothing is written, read or done
that comes later in the other session, and nothing is left out before. The two may list their
environments in different orders, unless a name in their settings passes for another one.

* `Wiring.Limits`: a wiring whose output takes a limited number of bytes, beside one without limit.
* `Ledger.Even`, `Ledger.Cut`: the ledgers of the two before the output broke off, and after it.
* `Console.run_limits`: what becomes of the session with the limit.
* `Console.limited_elsewhere`: a session with a limit that finds another home directory.

## References

- [SPEC] `SPEC_FULL.md`: §4.3, Terminal Output Adapter; §10, Supplementary Features
-/

namespace Honeypot

namespace Ledger

/-- The bytes that were written at an end. -/
def written (channel : Outgoing) (ledger : Ledger) : Bytes :=
  ledger.crossed.flatMap (Crossing.written channel)

@[simp] theorem written_consume (channel : Outgoing) (place : Incoming) (n : Nat)
    (ledger : Ledger) : (ledger.consume place n).written channel = ledger.written channel := by
  simp [written, consume, Crossing.flatMap_written_singles, Crossing.written]

theorem written_after (channel place : Outgoing) (taken : Bytes) (ledger : Ledger) :
    (ledger.after place taken).written channel =
      ledger.written channel ++ if place = channel then taken else [] := by
  simp [written, after, Crossing.flatMap_written_singles, Crossing.written]

/-- The ledgers of a session whose output takes so many bytes in all and of the one without limit,
before anything was refused. -/
structure Even (most : Nat) (limited full : Ledger) : Prop where
  input : limited.pending .input = full.pending .input
  /-- What was written and what there is still room for make up the limit. -/
  room : ∃ room, limited.room .output = some room ∧
    (limited.written .output).length + room = most
  output : full.room .output = none
  limitedError : limited.room .error = none
  fullError : full.room .error = none
  crossed : limited.crossed = full.crossed

/-- The ledgers of the two sessions after the output of the one refused a byte that the other
took. -/
structure Cut (most : Nat) (limited full : Ledger) : Prop where
  room : limited.room .output = some 0
  written : (limited.written .output).length = most
  crossed : ∃ byte, limited.crossed ++ [.wrote .output [byte]] <+: full.crossed

namespace Even

variable {most : Nat} {limited full : Ledger} (h : Even most limited full)

include h

/-- Bytes are read alike. -/
theorem consume (n : Nat) : Even most (limited.consume .input n) (full.consume .input n) where
  input := by simp [Ledger.consume, h.input]
  room := by
    rw [written_consume]
    exact h.room
  output := h.output
  limitedError := h.limitedError
  fullError := h.fullError
  crossed := by
    simp only [Ledger.consume]
    rw [h.input, h.crossed]

/-- Diagnostics are written alike. -/
theorem putError (bytes : Bytes) :
    (limited.put .error bytes).1 = (full.put .error bytes).1 ∧
      Even most (limited.put .error bytes).2 (full.put .error bytes).2 := by
  rw [put_of_room_eq_none h.limitedError, put_of_room_eq_none h.fullError]
  refine ⟨rfl, h.input, ?_, room_after_eq_none h.output _ _,
    room_after_eq_none h.limitedError _ _, room_after_eq_none h.fullError _ _, ?_⟩
  · obtain ⟨room, hroom, hlength⟩ := h.room
    have hother : Outgoing.output ≠ .error := by decide
    refine ⟨room, ?_, ?_⟩
    · rw [room_after_of_ne _ hother, hroom]
    · rw [written_after, if_neg (by decide), List.append_nil, hlength]
  · exact congrArg (· ++ _) h.crossed

/-- A buffer for which there is room is written alike. From one for which there is none the limited
output takes what it can, and refuses the next byte. -/
theorem put (bytes : Bytes) :
    ((limited.put .output bytes).1 = (full.put .output bytes).1 ∧
        Even most (limited.put .output bytes).2 (full.put .output bytes).2) ∨
      ((limited.put .output bytes).1 = .error .brokenPipe ∧
        Cut most (limited.put .output bytes).2 (full.put .output bytes).2) := by
  obtain ⟨room, hroom, hlength⟩ := h.room
  rw [put_of_room_eq_some hroom, put_of_room_eq_none h.output]
  by_cases hfits : bytes.length ≤ room
  · rw [if_pos hfits, List.take_of_length_le hfits]
    refine .inl ⟨rfl, h.input, ⟨room - bytes.length, ?_, ?_⟩, room_after_eq_none h.output _ _,
      room_after_eq_none h.limitedError _ _, room_after_eq_none h.fullError _ _, ?_⟩
    · rw [room_after, hroom]
      rfl
    · rw [written_after, if_pos rfl, List.length_append]
      omega
    · exact congrArg (· ++ _) h.crossed
  · have hlt : room < bytes.length := Nat.lt_of_not_le hfits
    have htaken : (bytes.take room).length = room := List.length_take_of_le (Nat.le_of_lt hlt)
    rw [if_neg hfits]
    refine .inr ⟨rfl, ?_, ?_, bytes[room], ?_⟩
    · rw [room_after, hroom, htaken]
      exact congrArg some (Nat.sub_self room)
    · rw [written_after, if_pos rfl, List.length_append, htaken, hlength]
    · -- The refused byte is the first one of the buffer for which there was no room.
      have hparts : bytes.take room ++ [bytes[room]] = bytes.take (room + 1) :=
        List.take_append_getElem hlt
      have hsingles : (Crossing.wrote .output (bytes.take room)).singles ++
          [.wrote .output [bytes[room]]] =
            (Crossing.wrote .output (bytes.take (room + 1))).singles := by
        rw [← hparts]
        simp only [Crossing.singles, List.map_append, List.map_cons, List.map_nil]
      simp only [Ledger.after]
      rw [h.crossed, List.append_assoc, hsingles, List.prefix_append_right_inj]
      exact (List.take_prefix _ _).map _

end Even

/-- What an output that refused a byte leaves: as much as it takes of what was written without
limit, and the beginnings of everything else. -/
theorem Cut.beginning {most : Nat} {limited full : Ledger} (h : Cut most limited full) :
    limited.written .output = (full.written .output).take most ∧
      most < (full.written .output).length ∧
      limited.written .error <+: full.written .error ∧ limited.crossed <+: full.crossed := by
  obtain ⟨byte, rest, hcrossed⟩ := h.crossed
  have hwritten (channel : Outgoing) : full.written channel = limited.written channel ++
      ((Crossing.wrote .output [byte]).written channel ++
        rest.flatMap (Crossing.written channel)) := by
    simp only [Ledger.written, ← hcrossed, List.flatMap_append, List.flatMap_singleton,
      List.append_assoc]
  rw [List.append_assoc] at hcrossed
  refine ⟨?_, ?_, ?_, hcrossed ▸ List.prefix_append _ _⟩
  · rw [hwritten, ← h.written, List.take_left]
  · rw [hwritten, ← h.written, Crossing.written, if_pos rfl]
    simp only [List.length_append, List.length_singleton]
    omega
  · rw [hwritten .error]
    exact List.prefix_append _ _

/-- Whole buffers, lines and inputs do the same to the ledgers of the two sessions, until the output
of the one refuses a byte. -/
theorem accord_even (most : Nat) : Ledger.Accord (Even most) (Cut most) .own .own where
  everything := Reserve.alike_everything (fun _ _ h => h.input) fun _ _ h => h.consume
  line := Reserve.alike_line (fun _ _ h => h.input) fun _ _ h => h.consume
  print bytes limited full h := h.put bytes
  printError bytes limited full h := h.putError bytes
  stuck limited full h bytes hne := by
    have hput := put_of_room_eq_some h.room bytes
    rwa [if_neg (by simpa using hne), List.take_zero, after_nil] at hput
  grows limited full later h hgrows := by
    obtain ⟨byte, hbyte⟩ := h.crossed
    exact ⟨h.room, h.written, byte, hbyte.trans hgrows⟩

end Ledger

/-! ## Sessions -/

/-- What was written at an end of a wiring shows in its ledger. -/
theorem Wiring.written_ledger (wiring : Wiring) (channel : Outgoing) :
    wiring.ledger.written channel = wiring.written channel :=
  wiring.flatMap_written_transcript channel

/-- A wiring whose output takes so many bytes in all and then fails, beside one whose output takes
everything. The same is typed on both. Their streams may be disturbed, but do not fail otherwise. -/
structure Wiring.Limits (most : Nat) (limited full : Wiring) : Prop where
  sameInput : ∀ channel, (limited.inlet channel).bytes = (full.inlet channel).bytes
  limitedInput : (limited.inlet .input).IsPatient
  fullInput : (full.inlet .input).IsPatient
  limitedOutput : (limited.outlet .output).IsPatient
  room : (limited.outlet .output).room = some most
  fullOutput : (full.outlet .output).NeverFails
  limitedError : (limited.outlet .error).NeverFails
  fullError : (full.outlet .error).NeverFails
  limitedLog : limited.log = []
  fullLog : full.log = []

namespace Wiring.Limits

variable {most : Nat} {limited full : Wiring} (h : Wiring.Limits most limited full)

include h

theorem patient_limited : Patient .own limited limited :=
  .of_own h.limitedInput h.limitedOutput h.limitedError.toIsPatient

theorem patient_full : Patient .own full full :=
  .of_own h.fullInput h.fullOutput.toIsPatient h.fullError.toIsPatient

/-- At the beginning nothing was written. -/
theorem even : Ledger.Even most limited.ledger full.ledger where
  input := h.sameInput .input
  room := by
    refine ⟨most, h.room, ?_⟩
    simp [Ledger.written, ledger, transcript, h.limitedLog]
  output := h.fullOutput.room
  limitedError := h.limitedError.room
  fullError := h.fullError.room
  crossed := by simp [ledger, transcript, h.limitedLog, h.fullLog]

end Wiring.Limits

namespace Console

/-- Sessions before a turn in which the output of the one refuses what the output of the other
takes. Up to that turn they went alike. In it, or at the latest at the prompt after it, the session
with the limit ends with a broken pipe. -/
structure CutTurn (shell shell' : Shell Wiring) (most : Nat) (one other : Session Wiring) :
    Prop where
  status : one.status = other.status
  process : one.machine.process.Matches other.machine.process
  transcript : one.machine.plumbing.transcript = other.machine.plumbing.transcript
  refused : most < ((shell'.turn other).2.machine.plumbing.written .output).length
  ends : (shell.turn one).1 = .error .brokenPipe ∨ (shell.turn one).1 = .ok .go ∧
    (shell.showPrompt (shell.turn one).2).1 = .error .brokenPipe

/-- Sessions in which nothing was refused to the end end in the same way, and there was room for all
that was written. -/
theorem sameEnd_of_even {most : Nat} {limited full : Wiring} (h : Wiring.Limits most limited full)
    {one other : Except Fault Status × Session Wiring} (hanswer : one.1 = other.1)
    (hsame : Session.Related (Wiring.Matched .own .own limited full (Ledger.Even most)) one.2
      other.2) (order : Arrangement) :
    SameEnd one (other.1, other.2.relisted order) ∧
      (other.2.machine.plumbing.written .output).length ≤ most := by
  obtain ⟨hpatient, hpatient', heven⟩ := hsame.machine.plumbing
  constructor
  · constructor
    case result => exact hanswer
    case status => exact hsame.status
    case process =>
      rw [hsame.machine.process]
      exact Process.matches_relisted _ order
    case reports => exact hsame.machine.reports
    case transcript => exact heven.crossed
    case pending =>
      intro channel
      -- Only the input is read. At the other ends the same is to come as before.
      by_cases hchannel : channel = .input
      · rw [hchannel]
        exact heven.input
      · show _ = (other.2.machine.plumbing.inlet channel).bytes
        rw [hpatient.otherInlet channel hchannel, hpatient'.otherInlet channel hchannel]
        exact h.sameInput channel
  · obtain ⟨room, -, hlength⟩ := heven.room
    rw [Wiring.written_ledger, Wiring.written_eq_of_transcript_eq heven.crossed] at hlength
    exact hlength ▸ Nat.le_add_right _ _

/-- A turn in which the output refused something, beside that of a session which may list its
environment in another order. -/
theorem cutTurn_of_apart {shell : Shell Wiring} (horderly : shell.registry.IsOrderly) {most : Nat}
    {limited full : Wiring}
    (haccord : shell.Accord (Wiring.Matched .own .own limited full (Ledger.Even most))
      (Wiring.Parted .own limited (Ledger.Cut most)) .brokenPipe shell)
    {one same other : Session Wiring}
    (hrelated : Session.Related (Wiring.Matched .own .own limited full (Ledger.Even most)) one same)
    (hbroken : Shell.BreaksOff .brokenPipe (shell.turn one).1)
    (hapart : Session.Apart (Wiring.Parted .own limited (Ledger.Cut most)) (shell.turn one).2
      (shell.turn same).2) {order : Arrangement} (hlisted : same.Relisted order other) :
    CutTurn shell shell most one other := by
  -- The turn of the other session is the same, as its commands do not notice the order.
  obtain ⟨-, hturn⟩ := Shell.turn_relisted horderly _ _ hlisted
  obtain ⟨-, rfl⟩ := hlisted
  constructor
  case status => exact hrelated.status
  case process =>
    rw [hrelated.machine.process]
    exact Process.matches_relisted _ order
  case transcript => exact hrelated.machine.plumbing.2.2.crossed
  case refused =>
    have hrefused := hapart.2.beginning.2.1
    rw [Wiring.written_ledger] at hrefused
    exact hturn.eq ▸ hrefused
  case ends => exact hbroken.imp id fun hgo => ⟨hgo, (haccord.showPrompt_of_apart hapart).1⟩

/-- What becomes of a session of the demo commands whose output takes so many bytes and then fails,
beside the session of the same settings without the limit. Both list their environments alike, or no
name in the settings passes for one that commands look up. The bytes that the output takes are the
first ones of those that are written without the limit. On standard error and over all ends
together, what crosses is a beginning of what does without the limit. If the output refuses
something, the session ends with a broken pipe, at the latest at the next prompt, and otherwise the
two sessions are the same. -/
theorem run_limits {settings : Settings} {volume : Volume} {order order' : Arrangement}
    {process process' : Process}
    (hprocess : Console.process settings volume order = .ok process)
    (hprocess' : Console.process settings volume order' = .ok process')
    (horder : order = order' ∨ Environment.IsHonest settings.environment) {most : Nat}
    {limited full : Wiring} (h : Wiring.Limits most limited full) (reports : List Report)
    (status : Status) :
    let shellOf := shell settings (registry settings) Wiring.streams none
    let start : Session Wiring := ⟨⟨process, limited, reports⟩, status⟩
    let start' : Session Wiring := ⟨⟨process', full, reports⟩, status⟩
    let one := (shellOf process).run start
    let other := (shellOf process').run start'
    let whole := other.2.machine.plumbing.written .output
    one.2.machine.plumbing.written .output = whole.take most ∧
      one.2.machine.plumbing.written .error <+: other.2.machine.plumbing.written .error ∧
      one.2.machine.plumbing.transcript <+: other.2.machine.plumbing.transcript ∧
      (most < whole.length → one.1 = .error .brokenPipe ∧
        ∃ last last', (shellOf process).Reaches start last ∧
          (shellOf process').Reaches start' last' ∧
          CutTurn (shellOf process) (shellOf process') most last last') ∧
      (whole.length ≤ most → SameEnd one other) := by
  intro shellOf start start' one other whole
  -- Up to the order the session without the limit is the one that starts with the same process.
  obtain rfl := eq_relisted_of_process hprocess hprocess'
  let shell := shellOf process
  let same : Session Wiring := ⟨⟨process, full, reports⟩, status⟩
  have hother : other = ((shell.run same).1, (shell.run same).2.relisted order') :=
    run_of_process hprocess hprocess' horder Wiring.streams none full reports status
  have hplumbing : other.2.machine.plumbing = (shell.run same).2.machine.plumbing :=
    congrArg (·.2.machine.plumbing) hother
  have hrelated : Session.Related (Wiring.Matched .own .own limited full (Ledger.Even most))
      start same :=
    ⟨⟨rfl, ⟨h.patient_limited, h.patient_full, h.even⟩, rfl⟩, rfl⟩
  have haccord : shell.Accord (Wiring.Matched .own .own limited full (Ledger.Even most))
      (Wiring.Parted .own limited (Ledger.Cut most)) .brokenPipe shell :=
    accord_wired settings process (Ledger.accord_even most) limited full
  rcases haccord.run_cases hrelated with
    ⟨hanswer, hsame⟩ | ⟨last, last', hlast, hlast', hlastRelated, hbroken, hapart⟩
  · -- Nothing was refused, as there was room for everything that was written.
    obtain ⟨hend, hfits⟩ := sameEnd_of_even h hanswer hsame order'
    rw [← hother] at hend
    rw [← hplumbing] at hfits
    have hwritten := Wiring.written_eq_of_transcript_eq hend.transcript
    refine ⟨?_, ?_, ?_, fun hlt => absurd hfits (Nat.not_le_of_lt hlt), fun _ => hend⟩
    · rw [hwritten, List.take_of_length_le hfits]
    · exact (hwritten .error).symm ▸ List.prefix_refl _
    · exact hend.transcript.symm ▸ List.prefix_refl _
  · -- The output of the one refused something in a turn, and the cut is there to the end.
    obtain ⟨hresult, -, hcut⟩ := haccord.run_of_breaksOff hbroken hapart
    rw [← Shell.run_of_reaches hlast, ← Shell.run_of_reaches hlast'] at hcut
    rw [← Shell.run_of_reaches hlast] at hresult
    obtain ⟨houtput, hmore, herror, hcrossed⟩ := hcut.beginning
    simp only [Wiring.written_ledger] at houtput hmore herror
    rw [← hplumbing] at houtput hmore herror hcrossed
    -- The other session comes to a turn of its own, as it differs from the same one in the order.
    have horderly : shell.registry.IsOrderly := Userland.isOrderly_commands settings.hostname
    obtain ⟨last'', hlast'', hlisted⟩ := Shell.reaches_relisted horderly
      ⟨mayList_of_process hprocess horder, rfl⟩ hlast'
    exact ⟨houtput, herror, hcrossed, fun _ => ⟨hresult, last, last'', hlast, hlast'',
      cutTurn_of_apart horderly haccord hlastRelated hbroken hapart hlisted⟩,
      fun hle => absurd hmore (Nat.not_lt_of_le hle)⟩

/-- The session in which two words are printed, with an output that breaks off inside the second
one. -/
def cutEcho : Wiring := { calmEcho with output := { room := some 20 } }

/-- A wiring with a limit on its output, beside the one without, if the same is typed on both. -/
theorem limits_of_input (most : Nat) (bytes : Bytes) :
    Wiring.Limits most { input := bytes.map .byte, output := { room := some most } }
      { input := bytes.map .byte } where
  sameInput channel := by cases channel <;> rfl
  limitedInput := by simp [Inlet.IsPatient, Wiring.inlet]
  fullInput := by simp [Inlet.IsPatient, Wiring.inlet]
  limitedOutput := ⟨by simp [Wiring.outlet], rfl, rfl⟩
  room := rfl
  fullOutput := ⟨⟨by simp [Wiring.outlet], rfl, rfl⟩, rfl⟩
  limitedError := ⟨⟨by simp [Wiring.outlet], rfl, rfl⟩, rfl⟩
  fullError := ⟨⟨by simp [Wiring.outlet], rfl, rfl⟩, rfl⟩
  limitedLog := rfl
  fullLog := rfl

/-- The prompt and the first word get through. The second one does not, and the session ends at the
prompt after it. The two sessions list their environments the other way round. -/
theorem run_cutEcho :
    Wiring.Limits 20 cutEcho calmEcho ∧
      ∃ process process', Console.process posingOthers (.ofStore .empty) .insertion = .ok process ∧
        Console.process posingOthers (.ofStore .empty) .reversed = .ok process' ∧
        Environment.IsHonest posingOthers.environment ∧
        20 < (((shell posingOthers (registry posingOthers) Wiring.streams none process').run
          ⟨⟨process', calmEcho, []⟩, 0⟩).2.machine.plumbing.written .output).length ∧
        ((shell posingOthers (registry posingOthers) Wiring.streams none process).run
          ⟨⟨process, cutEcho, []⟩, 0⟩).1 = .error .brokenPipe := by
  have hprocess : Console.process posingOthers (.ofStore .empty) .insertion = .ok _ := rfl
  have hprocess' : Console.process posingOthers (.ofStore .empty) .reversed = .ok _ := rfl
  have hlimits : Wiring.Limits 20 cutEcho calmEcho := limits_of_input 20 _
  have hlimited := run_limits hprocess hprocess' (.inr isHonest_posingOthers) hlimits [] 0
  refine ⟨hlimits, _, _, hprocess, hprocess', isHonest_posingOthers, by decide +kernel, ?_⟩
  exact (hlimited.2.2.2.1 (by decide +kernel)).1

/-- The way home, with an output that breaks off inside the prompt after it. -/
def cutReturn : Wiring := { calmReturn with output := { room := some 26 } }

/-- A session whose settings have a name that passes for `HOME` may end elsewhere with a limit than
without, as its environment is listed. Then its output is not the beginning of the other one. -/
theorem limited_elsewhere :
    posingHome.check = .ok posingHome ∧ (RootTree.populate posingHome .empty).1 = .ok () ∧
      Wiring.Limits 26 cutReturn calmReturn ∧
      ∃ process process', Console.process posingHome posingVolume .insertion = .ok process ∧
        Console.process posingHome posingVolume .reversed = .ok process' ∧
        ((shell posingHome (registry posingHome) Wiring.streams none process).run
            ⟨⟨process, cutReturn, []⟩, 0⟩).2.machine.plumbing.written .output =
          Text.encode "root@svr04:~# root@svr04:/" ∧
        ((shell posingHome (registry posingHome) Wiring.streams none process').run
            ⟨⟨process', calmReturn, []⟩, 0⟩).2.machine.plumbing.written .output =
          Text.encode "root@svr04:~# root@svr04:~# " :=
  ⟨rfl, by decide +kernel, limits_of_input 26 _, _, _, rfl, rfl, by decide +kernel,
    by decide +kernel⟩

end Console

end Honeypot
