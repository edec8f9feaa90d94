import Interlock.Failure
import Interlock.Log
import Interlock.Parser.SourceUnit
import Interlock.Policy
import Interlock.Violation

/-!
# The recovery rule on one source

The rule looks at the first contract of a source, not at interfaces and libraries, and there at the
functions that have a name.  A source with errors is not judged at all; warnings are logged.
-/

namespace Interlock

/-- What a check has found and logged, and the failure that ended it, if any. -/
structure Trace where
  violations : List Violation
  log : List LogRecord
  failure : Option Failure
  deriving DecidableEq, Repr

/-- The contract that the rule looks at. -/
def Tree.SourceUnit.primary? (unit : Tree.SourceUnit) : Option Tree.Contract :=
  unit.contracts.find? (·.kind = .contract)

/-- The functions that the rule looks at: constructors, fallback and receive functions have no
name. -/
def Tree.Contract.named (contract : Tree.Contract) : List Tree.Function :=
  contract.functions.filter (·.name ≠ "")

namespace Policy

/-- Whether a function complies. -/
def accepts (policy : Policy) (function : Tree.Function) : Bool :=
  policy.permits function.exposure

/-- The violations of a contract in the source at `path`, in order. -/
def violations (policy : Policy) (path : String) (contract : Tree.Contract) :
    List Violation :=
  (contract.named.filter (!policy.accepts ·)).map fun function =>
    ⟨path, function.name, contract.name, function.position, function.exposure⟩

end Policy

namespace Reading

/-- The log of a reading: its warnings, unless it was given up. -/
def log (path : String) (reading : Reading) : List LogRecord :=
  if reading.gaveUp then []
  else (Diagnostic.warnings reading.diagnostics).map (.parseWarning path)

/-- The tree of a reading without errors, or the failure to parse the source at `path`. -/
def tree (path : String) (reading : Reading) : Except Failure Tree.SourceUnit :=
  if reading.gaveUp then .error .tooDeep
  else
    match reading.unit, reading.success with
    | some unit, true => .ok unit
    | _, _ => .error (.unparsable path reading.diagnostics)

end Reading

/-- Checks one source. -/
def Policy.checkSource [StackRoom] (policy : Policy) (path text : String) : Trace :=
  let reading := Reading.ofSource path text
  let log := reading.log path
  match reading.tree path with
  | .error failure => ⟨[], log, some failure⟩
  | .ok unit =>
      match unit.primary? with
      | none => ⟨[], log ++ [.nothingToCheck path], none⟩
      | some contract => ⟨policy.violations path contract, log, none⟩

end Interlock
