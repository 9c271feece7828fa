import Honeypot.Console
import Honeypot.Proofs.Shell.Bound
import Honeypot.Proofs.Stream.Patience
import Honeypot.Proofs.Userland

/-!
# Sessions on wirings that lose nothing

On patient ends a session of the demo commands shows in the ledger only. So two such sessions go
alike if whole buffers, lines and inputs do the same to their ledgers, up to a relation between
these.

* `Ends.streams`: the streams of a session on some ends of a wiring.
* `Ledger.Accord`: what whole buffers, lines and inputs do at some ends goes alike on two ledgers,
  until standard output breaks off on the one.
* `Ledger.Accord.streams`: the streams on those ends are in accord.
* `Console.accord_wired`: sessions of the demo commands on those ends are in accord.
-/

namespace Honeypot

/-- The streams of a session on some ends of a wiring. -/
def Ends.streams (ends : Ends) : Streams Wiring :=
  ⟨Wiring.source ends.input, Wiring.sink ends.output,
    ⟨Wiring.source ends.errorInput, Wiring.sink ends.error⟩⟩

/-- A process at the root of an empty filesystem, without variables. -/
def Process.bare : Process :=
  ⟨"console", "/", Dictionary.empty, .ofStore .empty, ⟨80, 24⟩, .insertion⟩

/-- What whole buffers, lines and inputs do at some ends goes alike on related ledgers, until the
standard output breaks off on the one. Then it takes nothing more there, and whatever else crosses
on the other does not bring them together. -/
structure Ledger.Accord (R C : Ledger → Ledger → Prop) (ends ends' : Ends) : Prop where
  everything : Alike R (reserve ends.input).everything (reserve ends'.input).everything
  line : Alike R (reserve ends.input).line (reserve ends'.input).line
  print : ∀ bytes, AlikeUntil R C (· = .error .brokenPipe) (put ends.output bytes)
    (put ends'.output bytes)
  printError : ∀ bytes, Alike R (put ends.error bytes) (put ends'.error bytes)
  stuck : ∀ one other, C one other → ∀ bytes ≠ [],
    one.put ends.output bytes = (.error .brokenPipe, one)
  grows : ∀ one other later, C one other → other.crossed <+: later.crossed → C one later

namespace Ledger.Accord

/-- Where nothing breaks off, it is enough that all goes alike. -/
theorem of_alike {R : Ledger → Ledger → Prop} {ends ends' : Ends}
    (heverything : Alike R (reserve ends.input).everything (reserve ends'.input).everything)
    (hline : Alike R (reserve ends.input).line (reserve ends'.input).line)
    (hput : ∀ bytes, Alike R (put ends.output bytes) (put ends'.output bytes) ∧
      Alike R (put ends.error bytes) (put ends'.error bytes)) :
    Ledger.Accord R Never ends ends' where
  everything := heverything
  line := hline
  print bytes := (hput bytes).1.until Never _
  printError bytes := (hput bytes).2
  stuck _ _ hfalse := hfalse.elim
  grows _ _ _ hfalse := hfalse.elim

end Ledger.Accord

namespace Wiring

/-- Wirings with patient ends whose ledgers are related. -/
def Matched (ends ends' : Ends) (base base' : Wiring) (R : Ledger → Ledger → Prop) :
    Wiring → Wiring → Prop :=
  Through (Patient ends base) ledger (Patient ends' base') ledger R

/-- Wirings, the first with patient ends, whose ledgers are apart. -/
def Parted (ends : Ends) (base : Wiring) (C : Ledger → Ledger → Prop) (one other : Wiring) : Prop :=
  Patient ends base one ∧ C one.ledger other.ledger

/-- A stream that reads at an end of a wiring keeps what reads keep. -/
theorem source_lockstep_self {kept : Wiring → Prop} {channel : Incoming}
    (h : ∀ wiring most, kept wiring → kept (wiring.read channel most).2) :
    (source channel).Lockstep (Kept kept) (source channel) where
  read most := by
    rintro wiring _ ⟨rfl, hkept⟩
    exact ⟨rfl, rfl, h wiring most hkept⟩

/-- A stream that writes at an end of a wiring keeps what writes keep. -/
theorem sink_lockstep_self {kept : Wiring → Prop} {channel : Outgoing}
    (h : ∀ wiring offered, kept wiring → kept (wiring.write channel offered).2) :
    (sink channel).Lockstep (Kept kept) (sink channel) where
  write offered := by
    rintro wiring _ ⟨rfl, hkept⟩
    exact ⟨rfl, rfl, h wiring offered hkept⟩
  flush := by
    rintro wiring _ ⟨rfl, hkept⟩
    exact ⟨rfl, rfl, hkept⟩

/-- Streams of a wiring keep what stays when more crosses. -/
theorem streams_lockstep_self {kept : Wiring → Prop}
    (h : ∀ wiring later, kept wiring → wiring.transcript <+: later.transcript → kept later)
    (ends : Ends) :
    ends.streams.Lockstep (Kept kept) ends.streams := by
  have hsource (channel : Incoming) : (source channel).Lockstep (Kept kept) (source channel) :=
    source_lockstep_self fun wiring most hkept =>
      h _ _ hkept (wiring.transcript_prefix_read channel most)
  have hsink (channel : Outgoing) : (sink channel).Lockstep (Kept kept) (sink channel) :=
    sink_lockstep_self fun wiring offered hkept =>
      h _ _ hkept (wiring.transcript_prefix_write channel offered)
  exact ⟨hsource _, hsink _, hsource _, hsink _⟩

end Wiring

/-- Streams on patient ends are in accord if the ledgers are. -/
theorem Ledger.Accord.streams {R C : Ledger → Ledger → Prop} {ends ends' : Ends}
    (h : Ledger.Accord R C ends ends') (base base' : Wiring) :
    ends.streams.Accord (Wiring.Matched ends ends' base base' R) (Wiring.Parted ends base C)
      .brokenPipe ends'.streams := by
  have hinput := Wiring.steady_source ends base
  have hinput' := Wiring.steady_source ends' base'
  have houtput := (Wiring.steady_sink ends.writes_output base).lineFeeds
  have houtput' := (Wiring.steady_sink ends'.writes_output base').lineFeeds
  have herror := Wiring.steady_sink ends.writes_error base
  have herror' := Wiring.steady_sink ends'.writes_error base'
  constructor
  case readAll => exact h.everything.through hinput.readAll hinput'.readAll
  case readLine => exact h.line.through hinput.readLine hinput'.readLine
  case print =>
    intro bytes
    have huntil := (h.print (Sink.translated bytes)).through (houtput.writeAll bytes)
      (houtput'.writeAll bytes)
    exact huntil.mono (fun _ _ hapart => ⟨hapart.1, hapart.2.2⟩) fun _ => id
  case flush =>
    have hsame : Alike R (fun ledger => ((.ok () : Except Fault Unit), ledger))
        fun ledger => (.ok (), ledger) :=
      fun _ _ hrelated => ⟨rfl, hrelated⟩
    exact hsame.through houtput.flush houtput'.flush
  case printError =>
    intro bytes
    exact (h.printError bytes).through (herror.writeAll bytes) (herror'.writeAll bytes)
  case diagnose =>
    intro bytes
    exact (h.printError (Sink.translated bytes)).through (herror.lineFeeds.writeAll bytes)
      (herror'.lineFeeds.writeAll bytes)
  case stuck =>
    rintro wiring wiring' ⟨hpatient, hapart⟩ bytes hne
    -- Line feeds are translated on the way, and something is left to be offered after that.
    have hput : (Ledger.intake ends.output).lineFeeds.put bytes wiring.ledger =
        (.error .brokenPipe, wiring.ledger) := h.stuck _ _ hapart _ (Sink.translated_ne_nil hne)
    obtain ⟨hanswer, hlater, hledger⟩ := houtput.writeAll bytes wiring _ ⟨hpatient, rfl⟩
    rw [hput] at hanswer hledger
    exact ⟨hanswer, hlater, hledger ▸ hapart⟩
  case keeps =>
    intro wiring
    -- The other wiring may be in any state: what counts is only that more and more crosses there.
    refine Wiring.streams_lockstep_self (fun other later hkept hgrows => ?_) ends'
    exact ⟨hkept.1, h.grows _ _ _ hkept.2 hgrows⟩

/-! ## Sessions of the demo commands -/

namespace Console

/-- The recorder of a session that is observed, and of one that is not. -/
def recorder (observed : Bool) : Option (Duplex Wiring) :=
  if observed then some Wiring.observerDuplex else none

/-- The ends on which a session runs: the observer's if it is observed, and else its own. -/
def ends (observed : Bool) : Ends :=
  if observed then .observed else .own

variable (settings : Settings) (process : Process)

/-- Sessions of the demo commands on patient ends are in accord if the ledgers are. -/
theorem accord_wired {R C : Ledger → Ledger → Prop} {ends ends' : Ends}
    (h : Ledger.Accord R C ends ends') (base base' : Wiring) :
    (shell settings (registry settings) ends.streams none process).Accord
      (Wiring.Matched ends ends' base base' R) (Wiring.Parted ends base C) .brokenPipe
      (shell settings (registry settings) ends'.streams none process) :=
  (shell settings (registry settings) ends.streams none process).accord_on
    (Userland.isOrderly_commands settings.hostname) (h.streams base base')

/-- A session runs on its ends alone. -/
theorem run_eq_run_ends (observed : Bool) (session : Session Wiring) :
    (shell settings (registry settings) Wiring.streams (recorder observed) process).run session =
      (shell settings (registry settings) (ends observed).streams none process).run session := by
  rw [Shell.run_bound _ (Userland.isOrderly_commands settings.hostname)]
  cases observed
  · rfl
  · rfl

/-- With the observer as its recorder, a session runs on the observer's end alone, whatever its own
streams are. -/
theorem run_observed (own : Streams Wiring) (session : Session Wiring) :
    (shell settings (registry settings) own (some Wiring.observerDuplex) process).run session =
      (shell settings (registry settings) Ends.observed.streams none process).run session :=
  Shell.run_bound _ (Userland.isOrderly_commands settings.hostname) session

end Console

end Honeypot
