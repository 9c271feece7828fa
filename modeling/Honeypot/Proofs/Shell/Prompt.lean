import Honeypot.Proofs.Path.Normal
import Honeypot.Proofs.Shell.Variables
import Honeypot.Proofs.Userland.Directories

/-!
# The home directory in the prompt

A prompt shows `~` for the home directory of its session. What is below the home directory is shown
from there, and everything else under its own name. The prompt compares texts, while the same
directory can have many names: the home directory keeps the one that the settings give it, and `cd`
makes the name of every directory that it goes to normal. So all is well as long as the name of the
home directory is in normal form. If it is not, then what the session comes to by `cd` is never
shown as home or as below it.

* `Shell.Abbreviates`: a text that shows a directory as a prompt should.
* `Shell.abbreviated_self`, `Shell.abbreviated_append_slash`, `Shell.abbreviated_of_forall_ne`: what
  a prompt does show, in terms of texts.
* `Shell.abbreviates_abbreviated_iff`: when that is what it should.
* `Console.prompt_abbreviates_iff`: the same throughout a session, and after a `cd` that goes home.
* `Console.prompt_misses_home`: a session that goes home and is not shown there.

## References

- [SPEC] `SPEC_FULL.md`: §10, Supplementary Features
-/

namespace Honeypot

namespace Shell

/-! ## What a prompt should show -/

/-- Whether a directory is the home directory or below it, under whatever names they are given.
Nothing counts as below the root. -/
def InHome (home directory : String) : Prop :=
  Location.normalize directory = Location.normalize home ∨
    (Location.normalize home ≠ "/" ∧
      (Location.ofText directory).isBelow (Location.ofText home) = true)

instance (home directory : String) : Decidable (InHome home directory) :=
  inferInstanceAs (Decidable (_ ∨ _))

/-- Whether a text shows a directory as a prompt should, in a session that has a home directory. -/
structure Abbreviates (home directory shown : String) : Prop where
  /-- The home directory, under whatever name, and no other is shown as `~`. -/
  home_iff : shown = "~" ↔ Location.normalize directory = Location.normalize home
  /-- Unless the home directory is the root, those below it are the ones shown from `~/` on. -/
  below_iff : Location.normalize home ≠ "/" →
    ((∃ rest, shown = "~/" ++ rest) ↔
      (Location.ofText directory).isBelow (Location.ofText home) = true)
  /-- What is shown from `~/` on is the way there from the home directory. -/
  leads (rest : String) : shown = "~/" ++ rest →
    Location.ofText (home ++ "/" ++ rest) = Location.ofText directory
  /-- All others are shown under their own names. -/
  other : ¬ InHome home directory → shown = directory

end Shell

namespace Shell

/-! ## What a prompt does show -/

variable {home directory : String}

theorem after?_eq_some_iff {start text rest : List Char} :
    after? start text = some rest ↔ text = start ++ rest := by
  unfold after?
  split
  · next hprefix =>
    obtain ⟨rest', rfl⟩ := List.isPrefixOf_iff_prefix.1 hprefix
    simp
  · next hprefix =>
    refine iff_of_false (by simp) ?_
    rintro rfl
    exact hprefix (List.isPrefixOf_iff_prefix.2 (List.prefix_append _ _))

theorem abbreviated_self (home : String) : abbreviated home home = "~" := if_pos rfl

/-- What goes on after the name of the home directory and a slash is shown from `~/` on. -/
theorem abbreviated_append_slash (home rest : String) :
    abbreviated home (home ++ "/" ++ rest) = "~/" ++ rest := by
  have hne : home ++ "/" ++ rest ≠ home := by
    intro h
    have hlength := congrArg String.length h
    rw [String.length_append, String.length_append] at hlength
    have hone : "/".length = 1 := rfl
    omega
  have hafter : after? home.toList (home ++ "/" ++ rest).toList = some ('/' :: rest.toList) :=
    after?_eq_some_iff.2 (by simp)
  rw [abbreviated, if_neg hne, hafter]
  simp

/-- Every other name is shown as it is. -/
theorem abbreviated_of_forall_ne (hne : directory ≠ home)
    (hrest : ∀ rest, directory ≠ home ++ "/" ++ rest) : abbreviated home directory = directory := by
  rw [abbreviated, if_neg hne]
  split
  · next rest hafter =>
    refine absurd (String.toList_inj.1 ?_) (hrest (String.ofList rest))
    simp [after?_eq_some_iff.1 hafter]
  · rfl

/-- What is shown from `~/` on is not `~` alone. -/
theorem tilde_ne_append (rest : String) : "~" ≠ "~/" ++ rest := by
  intro h
  have hlength := congrArg String.length h
  rw [String.length_append] at hlength
  have hone : "~".length = 1 := rfl
  have htwo : "~/".length = 2 := rfl
  omega

/-- No absolute name begins with the sign for the home directory. -/
theorem ne_tilde_append (h : Location.isAbsolute directory = true) (rest : String) :
    directory ≠ "~" ++ rest := by
  rintro rfl
  simp [Location.isAbsolute] at h

/-- Under an absolute name, only the name of the home directory itself is shown as `~`. -/
theorem abbreviated_eq_tilde_iff (h : Location.isAbsolute directory = true) :
    abbreviated home directory = "~" ↔ directory = home := by
  constructor
  · intro hshown
    by_contra hne
    by_cases hrest : ∃ rest, directory = home ++ "/" ++ rest
    · obtain ⟨rest, rfl⟩ := hrest
      rw [abbreviated_append_slash] at hshown
      exact tilde_ne_append rest hshown.symm
    · rw [abbreviated_of_forall_ne hne fun rest heq => hrest ⟨rest, heq⟩] at hshown
      exact ne_tilde_append h "" hshown
  · rintro rfl
    exact abbreviated_self directory

/-- In a directory under the name of the home directory or a name in normal form, the prompt shows
what it should exactly if the name of the home directory is in normal form, or is the one that is
shown, or the directory is not in the home directory. -/
theorem abbreviates_abbreviated_iff (hhome : home ≠ "")
    (hdirectory : directory = home ∨ Location.normalize directory = directory) :
    Abbreviates home directory (abbreviated home directory) ↔
      Location.normalize home = home ∨ directory = home ∨ ¬ InHome home directory := by
  by_cases hsame : directory = home
  · -- The home directory is shown as a tilde, whatever its name is.
    subst hsame
    rw [abbreviated_self]
    refine iff_of_true ⟨?_, fun _ => ?_, fun rest h => ?_, fun h => ?_⟩ (.inr (.inl rfl))
    · exact iff_of_true rfl rfl
    · exact iff_of_false (fun ⟨rest, h⟩ => tilde_ne_append rest h) (by simp [Location.isBelow])
    · exact absurd h (tilde_ne_append rest)
    · exact absurd (.inl rfl) h
  have hnormal : Location.normalize directory = directory := hdirectory.resolve_left hsame
  have habsolute : Location.isAbsolute directory = true := by
    rw [← hnormal]
    exact Location.isAbsolute_normalize directory
  -- Two names in normal form lead to one place only if they are one name.
  have hne : Location.normalize home = home →
      Location.normalize directory ≠ Location.normalize home := by
    intro hnormal' h
    exact hsame (hnormal.symm.trans (h.trans hnormal'))
  by_cases hrest : ∃ rest, directory = home ++ "/" ++ rest
  · -- It is below the home directory, whose name is in normal form as well.
    obtain ⟨hnormal', hroot, hbelow⟩ := (Location.exists_eq_append_slash_iff hhome hnormal).1 hrest
    obtain ⟨rest, rfl⟩ := hrest
    rw [abbreviated_append_slash]
    refine iff_of_true ⟨?_, fun _ => ?_, fun rest' h => ?_, fun h => ?_⟩ (.inl hnormal')
    · exact iff_of_false (tilde_ne_append rest).symm (hne hnormal')
    · exact iff_of_true ⟨rest, rfl⟩ hbelow
    · rw [String.append_right_inj _ |>.1 h]
    · exact absurd (.inr ⟨hroot, hbelow⟩) h
  · rw [abbreviated_of_forall_ne hsame fun rest heq => hrest ⟨rest, heq⟩]
    have hslash : ¬ ∃ rest, directory = "~/" ++ rest := by
      rintro ⟨rest, h⟩
      exact ne_tilde_append habsolute ("/" ++ rest) h
    constructor
    · -- It is shown under its own name, so it had better not be in the home directory.
      refine fun h => .inr (.inr ?_)
      rintro (hhere | ⟨hroot, hbelow⟩)
      · exact ne_tilde_append habsolute "" (h.home_iff.2 hhere)
      · exact hslash ((h.below_iff hroot).2 hbelow)
    · intro h
      have hout : ¬ InHome home directory := by
        rcases h with hnormal' | heq | hout
        · rintro (hhere | hbelow)
          · exact hne hnormal' hhere
          · exact hrest ((Location.exists_eq_append_slash_iff hhome hnormal).2 ⟨hnormal', hbelow⟩)
        · exact absurd heq hsame
        · exact hout
      refine ⟨?_, fun hroot => ?_, fun rest heq => ?_, fun _ => rfl⟩
      · exact iff_of_false (ne_tilde_append habsolute "") fun hhere => hout (.inl hhere)
      · exact iff_of_false hslash fun hbelow => hout (.inr ⟨hroot, hbelow⟩)
      · exact absurd ⟨rest, heq⟩ hslash

end Shell

/-! ## Sessions -/

namespace Userland

/-- Without arguments `cd` goes to the directory that `HOME` names, under its normal form. -/
theorem directory_effect_cd {home : String} {process : Process}
    (hhome : Environment.lookUp "HOME" process.environ = some home)
    (habsolute : Location.isAbsolute home = true)
    (hshows : process.volume.Shows (Location.normalize home)) :
    (effect "cd" [] process).directory = Location.normalize home := by
  have htarget : process.cdTarget [] = home := by
    rw [Process.cdTarget, hhome]
    rfl
  have hpath : Location.resolve process.directory home = Location.normalize home := by
    rw [Location.resolve, Location.join_of_isAbsolute habsolute]
  rw [effect, if_pos rfl, htarget, hpath, Process.moved_of_shows hshows]
  rfl

end Userland

namespace Console

variable {settings : Settings} {volume : Volume} {order : Arrangement} {process : Process}

/-- Where nothing is denied, a session can see its home directory under the normal form of its
name. -/
theorem shows_home (h : Console.process settings volume order = .ok process)
    (hdenials : volume.denials = []) :
    process.volume.Shows (Location.normalize settings.home) := by
  obtain ⟨started, hstart, rfl⟩ := exists_start h
  obtain ⟨later, hlater, hvolume⟩ := Process.exists_volume_of_start settings.home volume
  have hstands : started.Stands := Process.stands_of_start hstart
  rw [Process.Stands, Process.directory_of_start hstart] at hstands
  constructor
  · show started.volume.denies _ _ = false
    rw [Volume.denies, hvolume _ _ _ _ hstart, hlater, hdenials]
    rfl
  · show started.volume.store.find? _ = _
    rw [Location.ofText_normalize, hstands]

variable {σ : Type} [Supply σ]

/-- Between all lines of a session and at its end the prompt shows the working directory as it
should exactly if the name of the home directory is in normal form, or is the one under which the
session is in it, or the session is elsewhere. Where nothing is denied and no name in the settings
holds an equals sign, a session that goes home by `cd`, with `HOME` as it was at first, is shown `~`
exactly if the name of the home directory is in normal form. -/
theorem prompt_abbreviates_iff (hprocess : Console.process settings volume order = .ok process)
    (streams : Streams σ) (recorder : Option (Duplex σ)) (plumbing : σ) :
    let shell := Console.shell settings (registry settings) streams recorder process
    let start : Session σ := ⟨⟨process, plumbing, []⟩, 0⟩
    let shown (session : Session σ) :=
      Shell.abbreviated settings.home session.machine.process.directory
    ∀ later, later = (shell.run start).2 ∨ shell.Passes (fun _ => True) start later →
      let directory := later.machine.process.directory
      shell.prompt later = settings.user ++ "@" ++ settings.hostname ++ ":" ++ shown later ++
        Shell.sigil settings.user ++ " " ∧
      (Shell.Abbreviates settings.home directory (shown later) ↔
        Location.normalize settings.home = settings.home ∨ directory = settings.home ∨
          ¬ Shell.InHome settings.home directory) ∧
      (volume.denials = [] → (∀ name ∈ settings.environment.keys, '=' ∉ name.toList) →
        later.machine.process.valueOf? "HOME" = some settings.home →
        ∀ name, shell.command? later = some (name, []) → Path.baseName name = "cd" →
          (shown (shell.turn later).2 = "~" ↔
            Location.normalize settings.home = settings.home)) := by
  intro shell start shown later hlater directory
  have hpasses : shell.Passes (fun _ => True) start later := by
    rcases hlater with rfl | hpasses
    · exact shell.passes_run fun _ _ => trivial
    · exact hpasses
  obtain ⟨hfirst, -⟩ := sound_of_process hprocess
  obtain ⟨started, hstart, hstarted⟩ := exists_start hprocess
  have habsolute : Location.isAbsolute settings.home = true :=
    (Process.start_eq_ok_iff.1 hstart).1
  have hsound := (Shell.sound_of_passes rfl hpasses hfirst).1
  have hhome : shell.home = settings.home := by
    show process.directory = settings.home
    rw [hstarted]
    exact (Process.directory_of_start hstart : started.directory = settings.home)
  refine ⟨?_, ?_, ?_⟩
  · rw [Shell.prompt, Shell.promptIn, hhome]
    rfl
  · have hne : settings.home ≠ "" := by
      intro hempty
      rw [hempty] at habsolute
      simp [Location.isAbsolute] at habsolute
    exact Shell.abbreviates_abbreviated_iff hne (hsound.directory.imp_right And.right)
  · intro hdenials hnames hvalue name hcommand hname
    -- The texts of the environment give `cd` the value that the variable has.
    have hlook : Environment.lookUp "HOME" later.machine.process.environ = some settings.home :=
      (Environment.lookUp_eq_find? ((forall_equals_not_mem_iff hprocess hsound).2 hnames)
        (Process.environ_perm _) "HOME").trans hvalue
    have hshows : later.machine.process.volume.Shows (Location.normalize settings.home) := by
      rw [hsound.volume]
      exact shows_home hprocess hdenials
    have hmoved : (shell.turn later).2.machine.process.directory =
        Location.normalize settings.home := by
      rw [(shell.process_turn rfl later).1, hcommand, Shell.effectOf, hname]
      exact Userland.directory_effect_cd hlook habsolute hshows
    show Shell.abbreviated settings.home (shell.turn later).2.machine.process.directory = "~" ↔ _
    rw [hmoved]
    exact Shell.abbreviated_eq_tilde_iff (Location.isAbsolute_normalize _)

/-- Settings under which the user lives where programs are. -/
def programHome : Settings :=
  { Settings.default with homes := .ofList [("root", "/usr")] }

/-- A filesystem with directories below that home. -/
def programStore : Store := Store.empty.makeDirectories ["bin", "local", "usr"]

/-- What is typed to go below the home directory, and back home. -/
def homing : Wiring where
  input := (Text.encode "cd local//bin\ncd\n").map .byte

theorem prompt_abbreviates_way_home :
    ∃ process, Console.process programHome (.ofStore programStore) .insertion = .ok process ∧
      let shell := shell programHome (registry programHome) Wiring.streams none process
      let later := (shell.turn ⟨⟨process, homing, []⟩, 0⟩).2
      shell.prompt later = "root@svr04:~/local/bin# " ∧
      Shell.Abbreviates programHome.home later.machine.process.directory "~/local/bin" ∧
      Shell.abbreviated programHome.home (shell.turn later).2.machine.process.directory = "~" := by
  have hprocess : Console.process programHome (.ofStore programStore) .insertion = .ok _ := rfl
  refine ⟨_, hprocess, ?_⟩
  intro shell later
  have hpasses : shell.Passes (fun _ => True) ⟨⟨_, homing, []⟩, 0⟩ later := .single ⟨trivial, rfl⟩
  obtain ⟨-, habbreviates, hcd⟩ :=
    prompt_abbreviates_iff hprocess Wiring.streams none homing later (.inr hpasses)
  have hnormal : Location.normalize programHome.home = programHome.home := by decide
  -- The kernel runs the session up to the second line once.
  have hturn : shell.prompt later = "root@svr04:~/local/bin# " ∧
      Shell.abbreviated programHome.home later.machine.process.directory = "~/local/bin" ∧
      later.machine.process.valueOf? "HOME" = some programHome.home ∧
      shell.command? later = some ("cd", []) := by decide +kernel
  obtain ⟨hprompt, hshown, hvalue, hcommand⟩ := hturn
  refine ⟨hprompt, ?_, ?_⟩
  · rw [← hshown]
    exact habbreviates.2 (.inl hnormal)
  · exact (hcd rfl (by decide) hvalue "cd" hcommand rfl).2 hnormal

/-- Settings under which the name of the home directory is not in normal form. -/
def slashedHome : Settings :=
  { Settings.default with homes := .ofList [("root", "/root/")] }

/-- A session whose settings call its home directory by another name than the normal one goes home,
and is shown the directory as if it were elsewhere. -/
theorem prompt_misses_home :
    slashedHome.check = .ok slashedHome ∧
    ∃ process, Console.process slashedHome (.ofStore (RootTree.populate slashedHome .empty).2)
        .insertion = .ok process ∧
      let shell := shell slashedHome (registry slashedHome) Wiring.streams none process
      let start : Session Wiring :=
        ⟨⟨process, { input := (Text.encode "cd\n").map .byte }, []⟩, 0⟩
      let last := (shell.run start).2
      shell.prompt start = "root@svr04:~# " ∧
      last.machine.process.valueOf? "HOME" = some slashedHome.home ∧
      shell.prompt last = "root@svr04:/root# " ∧
      ¬ Shell.Abbreviates slashedHome.home last.machine.process.directory "/root" := by
  refine ⟨rfl, _, rfl, ?_⟩
  intro shell start last
  -- The kernel runs the session once.
  have hrun : shell.prompt start = "root@svr04:~# " ∧
      last.machine.process.valueOf? "HOME" = some slashedHome.home ∧
      shell.prompt last = "root@svr04:/root# " ∧
      last.machine.process.directory = "/root" := by decide +kernel
  obtain ⟨hfirst, hvalue, hprompt, hdirectory⟩ := hrun
  refine ⟨hfirst, hvalue, hprompt, fun h => ?_⟩
  rw [hdirectory] at h
  exact absurd (h.home_iff.2 (by decide)) (by decide)

end Console

end Honeypot
