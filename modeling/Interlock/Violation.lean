import Interlock.Exposure
import Interlock.Json

/-!
# Violations and their reports

A violation is a function that lacks a guard.  A report prints violations for people, or as one JSON
object a line.
-/

namespace Interlock

/-- A function without a guard, and where it stands. -/
structure Violation where
  path : String
  function : String
  contract : String
  position : Position
  exposure : Exposure
  deriving DecidableEq, Repr

namespace Violation

/-- The sentence that reports a violation. -/
def describe (violation : Violation) : String :=
  "The contract " ++ violation.path ++
    " contains a missing stoppable/recovery modifier in function " ++ violation.function ++ "."

/-- The place and the exposure of a violation. -/
def details (violation : Violation) : String :=
  let exposure := violation.exposure
  let modifiers :=
    if exposure.modifiers.isEmpty then "none" else ", ".intercalate exposure.modifiers
  "    " ++ violation.path ++ ":" ++ toString violation.position.line ++ ":" ++
    toString violation.position.column ++ " " ++ violation.contract ++ "." ++
    violation.function ++ " (" ++ exposure.visibility ++ ", " ++ exposure.mutability ++
    "; modifiers: " ++ modifiers ++ ")"

/-- A violation as a JSON object. -/
def toJson (violation : Violation) : Json :=
  .object
    [("path", .string violation.path), ("function", .string violation.function),
     ("contract", .string violation.contract), ("line", .int violation.position.line),
     ("column", .int violation.position.column),
     ("visibility", .string violation.exposure.visibility),
     ("state_mutability", .string violation.exposure.mutability),
     ("modifiers", .strings violation.exposure.modifiers)]

end Violation

namespace Report

/-- One JSON object a line. -/
def jsonLines (violations : List Violation) : String :=
  "\n".intercalate (violations.map fun violation => violation.toJson.line)

/-- One sentence a violation, with its details in a verbose report. -/
def sentences (verbose : Bool) (violations : List Violation) : String :=
  "\n".intercalate <| violations.flatMap fun violation =>
    if verbose then [violation.describe, violation.details] else [violation.describe]

end Report

end Interlock
