import Honeypot.Settings

/-!
# The root filesystem

The directories and files that a session finds at its start: those of a small Debian system.

* `Planting`: one directory or file to put into a store.
* `RootTree.plantings`: what the settings call for, in order.
* `Store.plantAll`: puts them in, up to the first that fails; what was put in before stays.

## References

- [SPEC] `SPEC_FULL.md`: §10, Supplementary Features
-/

namespace Honeypot

/-- A directory or a file to put into a store. -/
inductive Planting where
  | directory (path : String)
  | file (path : String) (content : Bytes)
deriving DecidableEq, Repr

/-- A store with a directory or file put in. -/
def Store.plant (store : Store) : Planting → Except Failure Store
  | .directory path => store.mkdir path
  | .file path content => store.write path content

/-- A store with directories and files put in one after the other, up to the first that fails. -/
def Store.plantAll : List Planting → Store → Except Failure Unit × Store
  | [], store => (.ok (), store)
  | planting :: plantings, store =>
    match store.plant planting with
    | .ok store => plantAll plantings store
    | .error failure => (.error failure, store)

namespace RootTree

/-- The directories that every system has. -/
def directories : List String :=
  ["/bin", "/boot", "/dev", "/etc", "/home", "/lib", "/opt", "/proc", "/root", "/sbin", "/tmp",
    "/usr/bin", "/usr/local/bin", "/usr/sbin", "/var/log", "/var/tmp"]

/-- The name of the host, as a file holds it. -/
def hostnameText (hostname : String) : String := hostname ++ "\n"

/-- The addresses that the host knows. -/
def hostsText (hostname : String) : String :=
  "127.0.0.1\tlocalhost\n127.0.1.1\t" ++ hostname ++
    "\n\n::1\t\tlocalhost ip6-localhost ip6-loopback\n"

/-- The text before a login. -/
def issueText : String := "Debian GNU/Linux 10 \\n \\l\n\n"

/-- What the system says it is. -/
def releaseText : String :=
  "PRETTY_NAME=\x22Debian GNU/Linux 10 (buster)\x22\nNAME=\x22Debian GNU/Linux\x22\n" ++
    "VERSION_ID=\x2210\x22\nVERSION=\x2210 (buster)\x22\nID=debian\n"

/-- The accounts that every system has. -/
def systemAccounts : String :=
  "root:x:0:0:root:/root:/bin/bash\n" ++
    "daemon:x:1:1:daemon:/usr/sbin:/usr/sbin/nologin\n" ++
    "www-data:x:33:33:www-data:/var/www:/usr/sbin/nologin\n"

/-- The account of a user. -/
def account (user home : String) : String :=
  user ++ ":x:1000:1000:" ++ user ++ ":" ++ home ++ ":/bin/bash\n"

/-- The account file: the system's accounts, and the session's user unless that is `root`. -/
def accountsText (settings : Settings) : String :=
  if settings.user = "root" then systemAccounts
  else systemAccounts ++ account settings.user settings.home

/-- The startup file of a shell. -/
def startupText : String :=
  "# ~/.bashrc: executed by bash(1) for non-login shells.\n" ++
    "export LS_OPTIONS=\x27--color=auto\x27\n"

/-- What the settings call for, in order. -/
def plantings (settings : Settings) : List Planting :=
  directories.map .directory ++
    [.file "/etc/hostname" (Text.encode (hostnameText settings.hostname)),
      .file "/etc/hosts" (Text.encode (hostsText settings.hostname)),
      .file "/etc/issue" (Text.encode issueText),
      .file "/etc/os-release" (Text.encode releaseText),
      .file "/etc/passwd" (Text.encode (accountsText settings)),
      .directory settings.home,
      .file (settings.home ++ "/.bashrc") (Text.encode startupText),
      .file (settings.home ++ "/.bash_history") [],
      .file "/var/log/auth.log" []]

/-- A store with the root filesystem that the settings call for. -/
def populate (settings : Settings) (store : Store) : Except Failure Unit × Store :=
  store.plantAll (plantings settings)

end RootTree

end Honeypot
