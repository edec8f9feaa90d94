import Interlock.Compliance
import Interlock.FileSystem.Walk
import Interlock.SourceFile

/-!
# Checking files

Files are checked in order, and the violations come in the order of the files and of the functions
in them.  A check may be asked for a number of violations only; it then stops at the last one, and
nothing behind it is read.  A failure ends the check, and what was found before it is kept in the
trace.
-/

namespace Interlock

namespace Trace

/-- The trace of nothing. -/
def empty : Trace := ⟨[], [], none⟩

/-- A trace that follows some violations and log records. -/
def after (trace : Trace) (violations : List Violation) (log : List LogRecord) : Trace :=
  { trace with violations := violations ++ trace.violations, log := log ++ trace.log }

/-- The trace up to a number of violations within one source, if that number is reached there. -/
def cut? (trace : Trace) : Option Nat → Option Trace
  | none => none
  | some count =>
      if count ≤ trace.violations.length then
        some { trace with violations := trace.violations.take count, failure := none }
      else none

/-- The violations of a check that was completed, or its failure. -/
def result (trace : Trace) : Except Failure (List Violation) :=
  match trace.failure with
  | some failure => .error failure
  | none => .ok trace.violations

end Trace

namespace Policy

variable [StackRoom]

/-- Checks the files at the given paths; `limit` is the number of violations asked for, or `none`
for all. -/
def check (policy : Policy) (system : FileSystem) : Option Nat → List String → Trace
  | some 0, _ => .empty
  | _, [] => .empty
  | limit, path :: rest =>
      let key := system.key path
      if !policy.isSource key then policy.check system limit rest
      else if policy.isExcluded key then
        (policy.check system limit rest).after [] [.skipped key]
      else
        match system.load path with
        | .error failure => ⟨[], [.checking key], some failure⟩
        | .ok file =>
            let trace := (policy.checkSource file.key file.text).after [] [.checking key]
            match trace.failure, trace.cut? limit with
            | some _, _ => trace
            | none, some cut => cut
            | none, none =>
                (policy.check system (limit.map (· - trace.violations.length)) rest).after
                  trace.violations trace.log

/-- The first violation, if there is one. -/
def evaluate (policy : Policy) (system : FileSystem) (paths : List String) :
    Except Failure (Option Violation) :=
  (policy.check system (some 1) paths).result.map (·.head?)

/-- Every violation. -/
def collect (policy : Policy) (system : FileSystem) (paths : List String) :
    Except Failure (List Violation) :=
  (policy.check system none paths).result

/-- Checks every file in and below a directory, for all violations or for the first one. -/
def checkTree (policy : Policy) (system : FileSystem) (root : String) (all : Bool) : Trace :=
  let root := Path.parse root
  match system.walk StackRoom.directories root with
  | .error failure => ⟨[], [], some failure⟩
  | .ok files =>
      (policy.check system (if all then none else some 1) (files.map (·.display))).after []
        [.filesEnumerated files.length root.display]

end Policy

end Interlock
