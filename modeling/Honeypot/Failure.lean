import Honeypot.Status

/-!
# Failures

Why an operation did not succeed. `Fault` is what a byte stream answers instead of moving bytes,
`Refusal` is why a filesystem declines a request, `Problem` is what is wrong with a
configuration, and `Failure` joins them.

* `Failure.message`: the text shown for a failure.
* `Failure.status`: the exit status a shell reports for it.

## References

- [SPEC] `SPEC_FULL.md`: §7, Error Handling
-/

namespace Honeypot

/-- Why a call on a byte stream failed. -/
inductive Fault where
  /-- The call was disturbed and may be repeated. -/
  | interrupted
  | connectionReset
  | wouldBlock
  | permissionDenied
  | unexpectedEnd
  | notFound
  | timedOut
  | brokenPipe
  /-- A write took nothing of what it was offered. -/
  | writeZero
  /-- The bytes read are no text. -/
  | invalidData
deriving DecidableEq, Repr

/-- A fault in words. -/
def Fault.text : Fault → String
  | .interrupted => "operation interrupted"
  | .connectionReset => "connection reset"
  | .wouldBlock => "operation would block"
  | .permissionDenied => "permission denied"
  | .unexpectedEnd => "unexpected end of file"
  | .notFound => "entity not found"
  | .timedOut => "timed out"
  | .brokenPipe => "broken pipe"
  | .writeZero => "write zero"
  | .invalidData => "invalid data"

/-- Why a filesystem declines a request. -/
inductive Refusal where
  | isDirectory (path : String)
  | notDirectory (path : String)
  | fileExists (path : String)
  | notEmpty (path : String)
  | rootRemoval
  | permissionDenied
  | relativeHome (path : String)
  /-- A reason in another filesystem's words. -/
  | other (reason : String)
deriving DecidableEq, Repr

/-- A refusal in words. -/
def Refusal.text : Refusal → String
  | .isDirectory path => "is a directory: " ++ path
  | .notDirectory path => "not a directory: " ++ path
  | .fileExists path => "file exists: " ++ path
  | .notEmpty path => "directory not empty: " ++ path
  | .rootRemoval => "cannot remove root"
  | .permissionDenied => "permission denied"
  | .relativeHome path => "home directory must be absolute: " ++ path
  | .other reason => reason

/-- What is wrong with a configuration that could be read. -/
inductive Problem where
  | emptyGeometry (width height : UInt32)
  | emptyUser
  | relativeHome (user home : String)
  /-- A problem that a caller describes. -/
  | other (description : String)
deriving DecidableEq, Repr

/-- A problem in words. -/
def Problem.text : Problem → String
  | .emptyGeometry width height =>
    "terminal geometry must be non-zero, got " ++ toString width.toNat ++ "x" ++
      toString height.toNat
  | .emptyUser => "default_user is empty"
  | .relativeHome user home => "home for " ++ user ++ " must be absolute: " ++ home
  | .other description => description

/-- Why an operation did not succeed. -/
inductive Failure where
  /-- Nothing exists at the path that the operation was given. -/
  | notFound (operation path : String)
  /-- The filesystem declined. -/
  | filesystem (reason : Refusal)
  /-- The configuration is not usable. -/
  | config (problem : Problem)
  /-- A stream failed. -/
  | stream (fault : Fault) (detail : String)
  /-- The configuration is not well-formed. -/
  | malformed
deriving DecidableEq, Repr

namespace Failure

/-- The failure of a stream, in the fault's own words. -/
def ofFault (fault : Fault) : Failure := .stream fault fault.text

/-- Whether the failure says that its target does not exist. -/
def isNotFound : Failure → Bool
  | .notFound _ _ => true
  | _ => false

/-- The text shown for a failure ([SPEC] §7). -/
def message : Failure → String
  | .notFound operation path => operation ++ " " ++ path ++ ": no such file or directory"
  | .filesystem reason => "VFS error: " ++ reason.text
  | .config problem => "config error: " ++ problem.text
  | .stream _ detail => "I/O error: " ++ detail
  | .malformed => "TOML parse error"

/-- The operation that fails when a command does not exist. -/
def execution : String := "exec"

/-- The exit status that a shell reports for a failure ([SPEC] §7). -/
def status : Failure → Status
  | .notFound operation _ => if operation = execution then .unknownCommand else 1
  | _ => 1

end Failure

end Honeypot
