import Honeypot.Console
import Honeypot.Proofs.RootTree
import Honeypot.Proofs.Text.Split
import Honeypot.Proofs.Text.Utf8

/-!
# The account file of a session

The account file has one record a line, with colons between the fields: the name of a user comes
first, the home directory sixth. Three records are fixed. The one of the session's user is made from
the settings, unless that user is `root`, and neither the name nor the home directory is looked at
for colons and line feeds.

* `Accounts.home?`: the home directory that an account file gives a user.
* `Accounts.isPlain_of_mem_records`: no field of a record has a separator in it.
* `Accounts.home?_account_eq_iff`: when the record made for a user reads back as it was meant.
* `RootTree.recorded_home_iff`: when the account file agrees with the session.
* `RootTree.recorded_home_of_root_moved`: a session whose `root` lives elsewhere.

## References

- [SPEC] `SPEC_FULL.md`: §9.3, Configuration; §10, Supplementary Features
-/

namespace Honeypot

namespace Accounts

variable {text user home field : String} {record : List String}

/-! ## Reading an account file -/

/-- The fields of a line. -/
def fields (line : List Char) : List String := (Text.pieces ':' line).map String.ofList

/-- The records of an account file, one for each line. -/
def records (text : String) : List (List String) := (Text.pieces '\n' text.toList).map fields

/-- The home directory that an account file gives a user: the sixth field of the first record with
the user's name. -/
def home? (text user : String) : Option String :=
  ((records text).find? fun record => record.head? = some user).bind fun record => record[5]?

/-- A text that can be a field as it is. -/
def IsPlain (text : String) : Prop := ':' ∉ text.toList ∧ '\n' ∉ text.toList

instance (text : String) : Decidable (IsPlain text) :=
  inferInstanceAs (Decidable (_ ∧ _))

/-- No field of a record has a separator in it. -/
theorem isPlain_of_mem_records (hrecord : record ∈ records text) (hfield : field ∈ record) :
    IsPlain field := by
  obtain ⟨line, hline, rfl⟩ := List.mem_map.1 hrecord
  obtain ⟨piece, hpiece, rfl⟩ := List.mem_map.1 hfield
  rw [IsPlain, String.toList_ofList]
  refine ⟨Text.not_mem_of_mem_pieces hpiece, fun hfeed => ?_⟩
  -- A line feed in the piece would be one in the line.
  exact Text.not_mem_of_mem_pieces hline (Text.mem_of_mem_pieces hpiece hfeed)

/-- Users and home directories that can be found in an account file are plain. -/
theorem isPlain_of_home? (h : home? text user = some home) : IsPlain user ∧ IsPlain home := by
  obtain ⟨record, hfind, hsixth⟩ := Option.bind_eq_some_iff.1 h
  have hrecord : record ∈ records text := List.mem_of_find?_eq_some hfind
  have hhead : record.head? = some user := by
    simpa using List.find?_some hfind
  exact ⟨isPlain_of_mem_records hrecord (List.mem_of_mem_head? hhead),
    isPlain_of_mem_records hrecord (List.mem_of_getElem? hsixth)⟩

/-- The first line is the first record. -/
theorem records_line {line : String} (h : '\n' ∉ line.toList) (rest : String) :
    records (line ++ "\n" ++ rest) = fields line.toList :: records rest := by
  have hlist : (line ++ "\n" ++ rest).toList = line.toList ++ '\n' :: rest.toList := by
    simp
  rw [records, hlist, Text.pieces_append_cons, Text.pieces_of_not_mem h]
  rfl

/-- Plain texts with colons between them are the fields of a line. -/
theorem fields_intercalate {texts : List String} (hne : texts ≠ [])
    (h : ∀ text ∈ texts, IsPlain text) :
    fields ([':'].intercalate (texts.map String.toList)) = texts := by
  rw [fields, Text.pieces_intercalate (by simpa using hne), List.map_map]
  · exact (List.map_congr_left fun text _ => String.ofList_toList).trans (List.map_id texts)
  · intro piece hpiece
    obtain ⟨text, htext, rfl⟩ := List.mem_map.1 hpiece
    exact (h text htext).1

/-! ## The accounts of every system -/

/-- The users that every system has, with their home directories. -/
def systemHomes : List (String × String) :=
  [("root", "/root"), ("daemon", "/usr/sbin"), ("www-data", "/var/www")]

/-- The records that every account file begins with. -/
def systemRecords : List (List String) :=
  [["root", "x", "0", "0", "root", "/root", "/bin/bash"],
    ["daemon", "x", "1", "1", "daemon", "/usr/sbin", "/usr/sbin/nologin"],
    ["www-data", "x", "33", "33", "www-data", "/var/www", "/usr/sbin/nologin"]]

theorem records_systemAccounts_append (rest : String) :
    records (RootTree.systemAccounts ++ rest) = systemRecords ++ records rest := by
  have hlines : RootTree.systemAccounts ++ rest =
      "root:x:0:0:root:/root:/bin/bash" ++ "\n" ++
        ("daemon:x:1:1:daemon:/usr/sbin:/usr/sbin/nologin" ++ "\n" ++
          ("www-data:x:33:33:www-data:/var/www:/usr/sbin/nologin" ++ "\n" ++ rest)) := by
    simp only [← String.append_assoc]
    rfl
  rw [hlines, records_line (by decide), records_line (by decide), records_line (by decide)]
  rfl

/-- The users of every system are found in the first records, whatever comes after them. -/
theorem home?_systemAccounts_append (h : (user, home) ∈ systemHomes) (rest : String) :
    home? (RootTree.systemAccounts ++ rest) user = some home := by
  have hfirst : ∀ entry ∈ systemHomes,
      (systemRecords.find? fun record => record.head? = some entry.1).bind
        (fun record => record[5]?) = some entry.2 := by decide
  obtain ⟨record, hfind, hsixth⟩ := Option.bind_eq_some_iff.1 (hfirst _ h)
  rw [home?, records_systemAccounts_append, List.find?_append, hfind]
  exact hsixth

/-- All other users are looked for after those records. -/
theorem home?_systemAccounts_append_of_not_mem (h : user ∉ systemHomes.map Prod.fst)
    (rest : String) : home? (RootTree.systemAccounts ++ rest) user = home? rest user := by
  have hnone : systemRecords.find? (fun record => record.head? = some user) = none := by
    rw [List.find?_eq_none]
    intro record hrecord hhead
    have hlisted : ∀ record ∈ systemRecords, ∀ name ∈ record.head?,
        name ∈ systemHomes.map Prod.fst := by decide
    exact h (hlisted record hrecord user (of_decide_eq_true hhead))
  rw [home?, records_systemAccounts_append, List.find?_append, hnone, Option.none_or, home?]

/-! ## The account of the session's user -/

/-- The fields of a user's record. -/
def accountFields (user home : String) : List String :=
  [user, "x", "1000", "1000", user, home, "/bin/bash"]

/-- The record of a plain user with a plain home directory has the fields that are meant. -/
theorem records_account (huser : IsPlain user) (hhome : IsPlain home) :
    records (RootTree.account user home) = [accountFields user home, [""]] := by
  have hplain : ∀ text ∈ accountFields user home, IsPlain text := by
    have hfixed : IsPlain "x" ∧ IsPlain "1000" ∧ IsPlain "/bin/bash" := by decide
    simp [accountFields, huser, hhome, hfixed]
  let line := user ++ ":x:1000:1000:" ++ user ++ ":" ++ home ++ ":/bin/bash"
  have hline : line.toList = [':'].intercalate ((accountFields user home).map String.toList) := by
    simp [line, accountFields, List.intercalate]
  have hfeed : '\n' ∉ line.toList := by
    simp [line, huser.2, hhome.2]
  have haccount : RootTree.account user home = line ++ "\n" ++ "" := by
    have hend : ":/bin/bash\n" = ":/bin/bash" ++ "\n" := rfl
    rw [RootTree.account, hend, ← String.append_assoc, String.append_empty]
  have hne : accountFields user home ≠ [] := List.cons_ne_nil _ _
  rw [haccount, records_line hfeed, hline, fields_intercalate hne hplain]
  rfl

/-- The record made for a user reads back as it was meant exactly if nothing in it is taken for a
separator. -/
theorem home?_account_eq_iff :
    home? (RootTree.account user home) user = some home ↔ IsPlain user ∧ IsPlain home := by
  refine ⟨isPlain_of_home?, fun ⟨huser, hhome⟩ => ?_⟩
  rw [home?, records_account huser hhome, List.find?_cons_of_pos (by simp [accountFields])]
  rfl

end Accounts

namespace RootTree

open Accounts (IsPlain systemHomes home?)

variable {settings : Settings}

/-- Every account file begins with the accounts that every system has. -/
theorem exists_accountsText_eq (settings : Settings) :
    ∃ rest, accountsText settings = systemAccounts ++ rest := by
  rw [accountsText]
  split_ifs
  · exact ⟨"", String.append_empty.symm⟩
  · exact ⟨_, rfl⟩

/-- What the settings say about the home directory has no part in the fixed records. -/
theorem home?_accountsText_of_mem {recorded : String}
    (h : (settings.user, recorded) ∈ systemHomes) :
    home? (accountsText settings) settings.user = some recorded := by
  obtain ⟨rest, hrest⟩ := exists_accountsText_eq settings
  rw [hrest]
  exact Accounts.home?_systemAccounts_append h rest

/-- The account file gives the user of the session the home directory that the settings do, if it is
the one that every system gives a user of that name, or if no system has such a user and both texts
are plain. -/
theorem home?_accountsText_eq_iff (settings : Settings) :
    home? (accountsText settings) settings.user = some settings.home ↔
      (settings.user, settings.home) ∈ systemHomes ∨
        settings.user ∉ systemHomes.map Prod.fst ∧ IsPlain settings.user ∧
          IsPlain settings.home := by
  by_cases hsystem : settings.user ∈ systemHomes.map Prod.fst
  · obtain ⟨⟨user, recorded⟩, hmem, huser⟩ := List.mem_map.1 hsystem
    obtain rfl : user = settings.user := huser
    have hunique : ∀ one ∈ systemHomes, ∀ other ∈ systemHomes, one.1 = other.1 → one = other := by
      decide
    -- A user that every system has is found in the fixed record.
    rw [home?_accountsText_of_mem hmem, Option.some_inj]
    constructor
    · rintro rfl
      exact .inl hmem
    · rintro (hhome | ⟨hother, -⟩)
      · -- Every system has one user of each name.
        exact congrArg Prod.snd (hunique _ hmem _ hhome rfl)
      · exact absurd hsystem hother
  · -- Another user is found in the record that is added, if that reads as it should.
    have hroot : settings.user ≠ "root" := by
      rintro hroot
      rw [hroot] at hsystem
      exact hsystem (by decide)
    rw [accountsText, if_neg hroot, Accounts.home?_systemAccounts_append_of_not_mem hsystem,
      Accounts.home?_account_eq_iff]
    constructor
    · exact fun hplain => .inr ⟨hsystem, hplain⟩
    · rintro (hhome | ⟨-, hplain⟩)
      · exact absurd (List.mem_map_of_mem hhome) hsystem
      · exact hplain

/-- A session on a filesystem that was built begins in the home directory, and `HOME` names it. -/
theorem exists_process (hcheck : settings.check = .ok settings) {store : Store}
    (hbuilt : (populate settings store).1 = .ok ()) (order : Arrangement) :
    ∃ process,
      Console.process settings (.ofStore (populate settings store).2) order = .ok process ∧
      process.directory = settings.home ∧ process.valueOf? "HOME" = some settings.home := by
  let started : Process := ⟨"console", settings.home, ∅, .ofStore (populate settings store).2,
    settings.geometry, order⟩
  refine ⟨started.withEnvironment (Console.bindings settings), ?_, rfl, ?_⟩
  · rw [Console.process, (isReady_populate hcheck hbuilt).start_eq]
    rfl
  · -- After `HOME` only other variables are set.
    show (Dictionary.insertAll ∅ (Console.bindings settings)).find? "HOME" = some settings.home
    rw [Console.bindings, Dictionary.insertAll, List.foldl_append]
    simp only [List.foldl_cons, List.foldl_nil, Dictionary.find?_insert]
    rfl

/-- A filesystem that was built holds the account file of its settings. -/
theorem read_accounts {store : Store} (hbuilt : (populate settings store).1 = .ok ()) :
    (populate settings store).2.read "/etc/passwd" = .ok (Text.encode (accountsText settings)) :=
  read_populate hbuilt (by simp [plantings])

/-- Where usable settings give a filesystem, the session begins in the home directory and `HOME`
names it. The account file says so too exactly if every system has a user of that name with that
home directory, or none of that name and there is no separator in either text. -/
theorem recorded_home_iff (hcheck : settings.check = .ok settings)
    (hbuilt : (populate settings .empty).1 = .ok ()) (order : Arrangement) :
    (∃ process,
      Console.process settings (.ofStore (populate settings .empty).2) order = .ok process ∧
      process.directory = settings.home ∧ process.valueOf? "HOME" = some settings.home) ∧
    ∃ content, (populate settings .empty).2.read "/etc/passwd" = .ok content ∧
      (home? (Text.decode content) settings.user = some settings.home ↔
        (settings.user, settings.home) ∈ systemHomes ∨
          settings.user ∉ systemHomes.map Prod.fst ∧ IsPlain settings.user ∧
            IsPlain settings.home) := by
  refine ⟨exists_process hcheck hbuilt order, _, read_accounts hbuilt, ?_⟩
  rw [Text.decode_encode]
  exact home?_accountsText_eq_iff settings

/-- Settings for a user who is told apart from the fixed ones by one letter, and lives elsewhere. -/
def ownHome : Settings :=
  { Settings.default with user := "roots", homes := .ofList [("roots", "/srv/roots")] }

/-- Settings under which `root` lives elsewhere. -/
def rootMoved : Settings :=
  { Settings.default with homes := .ofList [("root", "/srv/root")] }

theorem recorded_home_of_ownHome :
    ownHome.check = .ok ownHome ∧ (populate ownHome .empty).1 = .ok () ∧
    (∃ process,
      Console.process ownHome (.ofStore (populate ownHome .empty).2) .insertion = .ok process ∧
      process.directory = "/srv/roots" ∧ process.valueOf? "HOME" = some "/srv/roots") ∧
    ∃ content, (populate ownHome .empty).2.read "/etc/passwd" = .ok content ∧
      home? (Text.decode content) "roots" = some "/srv/roots" := by
  have hcheck : ownHome.check = .ok ownHome := rfl
  have hbuilt : (populate ownHome .empty).1 = .ok () := by decide +kernel
  obtain ⟨hprocess, content, hcontent, hiff⟩ := recorded_home_iff hcheck hbuilt .insertion
  have hown : ownHome.user ∉ systemHomes.map Prod.fst ∧ IsPlain ownHome.user ∧
      IsPlain ownHome.home := by decide
  exact ⟨hcheck, hbuilt, hprocess, content, hcontent, hiff.2 (.inr hown)⟩

/-- A session whose settings let `root` live elsewhere begins there and is told so by `HOME`, but
the account file gives `root` the usual home directory. -/
theorem recorded_home_of_root_moved :
    rootMoved.check = .ok rootMoved ∧ (populate rootMoved .empty).1 = .ok () ∧
    (∃ process,
      Console.process rootMoved (.ofStore (populate rootMoved .empty).2) .insertion = .ok process ∧
      process.directory = "/srv/root" ∧ process.valueOf? "HOME" = some "/srv/root") ∧
    ∃ content, (populate rootMoved .empty).2.read "/etc/passwd" = .ok content ∧
      home? (Text.decode content) rootMoved.user = some "/root" ∧ rootMoved.home ≠ "/root" := by
  have hcheck : rootMoved.check = .ok rootMoved := rfl
  have hbuilt : (populate rootMoved .empty).1 = .ok () := by decide +kernel
  refine ⟨hcheck, hbuilt, exists_process hcheck hbuilt .insertion, _, read_accounts hbuilt, ?_,
    by decide⟩
  rw [Text.decode_encode]
  exact home?_accountsText_of_mem (by decide)

end RootTree

end Honeypot
