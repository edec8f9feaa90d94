import Interlock.Diagnostic

/-!
# Failures of a run

A failure means that a check could not be completed.  Expected failures name what they are about;
the others are faults of the system or of the data that nothing foresees.  Neither is a violation.
-/

namespace Interlock

/-- Why the system refuses an operation on a file. -/
inductive SystemFault where
  | notFound
  | notDirectory
  | isDirectory
  | tooManyLinks
  | nameTooLong
  deriving DecidableEq, Repr

namespace SystemFault

/-- The number of a fault. -/
def number : SystemFault → Nat
  | notFound => 2
  | notDirectory => 20
  | isDirectory => 21
  | nameTooLong => 36
  | tooManyLinks => 40

/-- The system's words for a fault. -/
def words : SystemFault → String
  | notFound => "No such file or directory"
  | notDirectory => "Not a directory"
  | isDirectory => "Is a directory"
  | nameTooLong => "File name too long"
  | tooManyLinks => "Too many levels of symbolic links"

/-- The name of the error that a fault is reported as. -/
def label : SystemFault → String
  | notFound => "FileNotFoundError"
  | notDirectory => "NotADirectoryError"
  | isDirectory => "IsADirectoryError"
  | nameTooLong => "OSError"
  | tooManyLinks => "OSError"

end SystemFault

/-- What is wrong with a policy. -/
inductive PolicyProblem where
  | notFound
  | invalidYaml (detail : String)
  | notMapping (typeName : String)
  | unknownKeys (keys : List String)
  | badExtension
  | badList (key : String)
  | worded (reason : String)
  deriving DecidableEq, Repr

/-- The wording of a problem. -/
def PolicyProblem.reason : PolicyProblem → String
  | notFound => "file not found"
  | invalidYaml detail => "invalid YAML: " ++ detail
  | notMapping typeName => "policy must be a YAML mapping, got " ++ typeName
  | unknownKeys keys => "unknown keys: " ++ ", ".intercalate keys
  | badExtension => "'source_ext' must be a non-empty string"
  | badList key => "'" ++ key ++ "' must be a list of strings"
  | worded reason => reason

/-- Why keys cannot be put in order. -/
inductive OrderProblem where
  | types (left right : String)
  | dateAndTime
  /-- Of two times only one has a known distance from universal time. -/
  | zones
  deriving DecidableEq, Repr

/-- The wording of a problem with an order. -/
def OrderProblem.message : OrderProblem → String
  | types left right =>
      "'<' not supported between instances of '" ++ left ++ "' and '" ++ right ++ "'"
  | dateAndTime => "can't compare datetime.datetime to datetime.date"
  | zones => "can't compare offset-naive and offset-aware datetimes"

/-- Why a run could not be completed. -/
inductive Failure where
  | root (path reason : String)
  | unreadable (path reason : String)
  | unparsable (path : String) (diagnostics : List Diagnostic)
  | policy (source : String) (problem : PolicyProblem)
  /-- A key that is no string stands where the unknown keys are listed. -/
  | keyNotText (typeName : String)
  /-- Keys that cannot be put in order. -/
  | keysNotComparable (problem : OrderProblem)
  /-- An error that comes from outside, with its name and its wording. -/
  | raised (label message : String)
  | embeddedNull
  /-- The stack has no room for the blocks of a source. -/
  | tooDeep
  | system (fault : SystemFault) (path : String)
  deriving DecidableEq, Repr

namespace Failure

/-- The name of a failure. -/
def label : Failure → String
  | root _ _ => "SourceRootError"
  | unreadable _ _ => "SourceReadError"
  | unparsable _ _ => "SourceParseError"
  | policy _ _ => "PolicyError"
  | keyNotText _ => "TypeError"
  | keysNotComparable _ => "TypeError"
  | raised label _ => label
  | embeddedNull => "ValueError"
  | tooDeep => "RecursionError"
  | system fault _ => fault.label

/-- Whether a failure is one of the foreseen ones. -/
def isExpected : Failure → Bool
  | root _ _ | unreadable _ _ | unparsable _ _ | policy _ _ => true
  | _ => false

/-- The first error of a file that cannot be parsed, and how many more there are. -/
def parseDetail (diagnostics : List Diagnostic) : String :=
  match Diagnostic.errors diagnostics with
  | [] => ""
  | [first] => ": " ++ first.display
  | first :: rest => ": " ++ first.display ++ " (+" ++ toString rest.length ++ " more)"

/-- The wording of a failure. -/
def message : Failure → String
  | root path reason => "Cannot scan " ++ path ++ ": " ++ reason
  | unreadable path reason => "Cannot read " ++ path ++ ": " ++ reason
  | unparsable path diagnostics => "Failed to parse " ++ path ++ parseDetail diagnostics
  | policy source problem => "Invalid policy " ++ source ++ ": " ++ problem.reason
  | keyNotText typeName => "sequence item 0: expected str instance, " ++ typeName ++ " found"
  | keysNotComparable problem => problem.message
  | raised _ message => message
  | embeddedNull => "embedded null byte"
  | tooDeep => Problem.tooDeep.message
  | system fault path =>
      "[Errno " ++ toString fault.number ++ "] " ++ fault.words ++ ": " ++ Text.quoted path

end Failure

end Interlock
