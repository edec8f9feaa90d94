import Interlock.Compliance
import Interlock.Tree.Json

/-!
# Summaries of a source

A summary lists the contracts of a source and marks each of their functions with the verdict of
the recovery rule.  Functions without a name are not checked, and a summary says so.
-/

namespace Interlock

/-- How a summary marks a function. -/
inductive Mark where
  | compliant
  | missingGuard
  | unchecked
  deriving DecidableEq, Repr

/-- The words for a mark. -/
def Mark.words : Mark → String
  | compliant => "ok"
  | missingGuard => "MISSING GUARD"
  | unchecked => "unchecked"

/-- A text with spaces behind it up to a width. -/
def Text.padded (width : Nat) (text : String) : String :=
  text ++ String.ofList (List.replicate (width - text.length) ' ')

/-- The line that opens a contract in a summary. -/
def Tree.Contract.heading (contract : Tree.Contract) : String :=
  (if contract.isAbstract then "abstract " else "") ++ contract.kind.word ++ " " ++
    contract.name ++
    (if contract.bases.isEmpty then "" else " is " ++ ", ".intercalate contract.bases)

namespace Policy

/-- The mark of a function. -/
def mark (policy : Policy) (function : Tree.Function) : Mark :=
  if function.name = "" then .unchecked
  else if policy.accepts function then .compliant
  else .missingGuard

/-- The line for a function. -/
def functionLine (policy : Policy) (function : Tree.Function) : String :=
  let exposure := function.exposure
  "  " ++ Text.padded 40 function.label ++ " " ++ Text.padded 9 exposure.visibility ++ " " ++
    Text.padded 11 exposure.mutability ++ " " ++
    Text.padded 30 (" ".intercalate exposure.modifiers) ++ " " ++ (policy.mark function).words

/-- The lines for a contract: its heading and a line for each function. -/
def contractLines (policy : Policy) (contract : Tree.Contract) : List String :=
  contract.heading :: contract.functions.map policy.functionLine

/-- The lines for the source in a file. -/
def summary (policy : Policy) (file : String) (unit : Tree.SourceUnit) : List String :=
  ("Parsed: " ++ file) :: unit.contracts.flatMap policy.contractLines

end Policy

/-- A reading as a JSON object. -/
def Reading.toJson (reading : Reading) : Json :=
  .object
    [("success", .bool reading.success),
     ("ast", (reading.unit.map (·.toJson)).getD .null),
     ("diagnostics", .array (reading.diagnostics.map (·.toJson)))]

end Interlock
