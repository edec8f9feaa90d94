import Interlock.Diagnostic

/-!
# Log records

What a run tells about its progress.  A record has a level and a channel; quiet runs show records
from the level of warnings on.
-/

namespace Interlock

/-- How urgent a record is. -/
inductive LogLevel where
  | debug
  | info
  | warning
  deriving DecidableEq, Repr

/-- The word for a level. -/
def LogLevel.label : LogLevel → String
  | debug => "DEBUG"
  | info => "INFO"
  | warning => "WARNING"

/-- What is worth a record. -/
inductive LogRecord where
  | policyLoaded (path : String) (exclusions : Nat)
  | filesEnumerated (count : Nat) (root : String)
  | skipped (path : String)
  | checking (path : String)
  | nothingToCheck (path : String)
  | parseWarning (path : String) (diagnostic : Diagnostic)
  | compliant (root : String)
  | unexpectedFailure
  deriving DecidableEq, Repr

namespace LogRecord

/-- The level of a record. -/
def level : LogRecord → LogLevel
  | parseWarning _ _ => .warning
  | compliant _ => .info
  | _ => .debug

/-- The channel of a record. -/
def channel : LogRecord → String
  | policyLoaded _ _ => "recovery_guard.policy"
  | filesEnumerated _ _ => "recovery_guard.scanner"
  | skipped _ | checking _ | nothingToCheck _ | parseWarning _ _ => "recovery_guard.checker"
  | compliant _ | unexpectedFailure => "recovery_guard.cli"

/-- The message of a record. -/
def message : LogRecord → String
  | policyLoaded path exclusions =>
      "Loaded policy from " ++ path ++ " (" ++ toString exclusions ++ " excluded paths)"
  | filesEnumerated count root =>
      "Enumerated " ++ toString count ++ " files under " ++ root
  | skipped path => "Skipping excluded " ++ path
  | checking path => "Checking " ++ path
  | nothingToCheck path => path ++ ": no contract definition, nothing to check"
  | parseWarning path diagnostic => path ++ ":" ++ diagnostic.display
  | compliant root => "All functions under " ++ root ++ " comply"
  | unexpectedFailure => "Unhandled error"

/-- A record on one line. -/
def display (record : LogRecord) : String :=
  record.level.label ++ " " ++ record.channel ++ ": " ++ record.message

/-- The records that a run shows. -/
def shown (verbose : Bool) (records : List LogRecord) : List LogRecord :=
  if verbose then records else records.filter (·.level = .warning)

end LogRecord

end Interlock
