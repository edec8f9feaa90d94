import Interlock.Diagnostic
import Interlock.Reader

/-!
# Strict and tolerant reading

Parsing reads tokens and records findings.  In strict mode every oddity is a fault and the first
fault ends the reading; in tolerant mode an oddity becomes a warning, a fault becomes an error, and
reading goes on at the next statement until too many errors have been found.
-/

namespace Interlock

/-- How a reading treats what it meets. -/
inductive Mode where
  | strict
  | tolerant
  deriving DecidableEq, Repr

namespace Parser

/-- The tokens left, the findings so far, and how many of them are errors. -/
structure State where
  rest : List Token
  findings : Array Finding
  errors : Nat
  deriving DecidableEq, Repr

/-- The state in front of a token list; comments are left out. -/
def State.ofTokens (tokens : List Token) : State :=
  ⟨Token.withoutComments tokens, #[], 0⟩

/-- A tolerant reading stops when it has this many errors. -/
def errorLimit : Nat := 100

end Parser

/-- A computation that reads tokens and records findings. -/
abbrev Parser := EStateM Fault Parser.State

namespace Parser

/-- Runs are compared by what they answer and by the states behind them. -/
instance decidableEqRun {α : Type} [DecidableEq α] : DecidableEq (EStateM.Result Fault State α)
  | .ok answer after, .ok other last =>
      decidable_of_iff (answer = other ∧ after = last) (by simp)
  | .error fault after, .error other last =>
      decidable_of_iff (fault = other ∧ after = last) (by simp)
  | .ok _ _, .error _ _ | .error _ _, .ok _ _ => isFalse nofun

/-- A reader is a parser that records nothing. -/
def ofReader {α : Type} (reader : Reader α) : Parser α := fun state =>
  match reader state.rest with
  | .ok value rest => .ok value { state with rest := rest }
  | .error fault rest => .error fault { state with rest := rest }

instance : MonadLift Reader Parser where
  monadLift := ofReader

/-- Records a finding. -/
def record (finding : Finding) : Parser Unit :=
  modify fun state =>
    { state with
      findings := state.findings.push finding
      errors := if finding.isError then state.errors + 1 else state.errors }

/-- Meets an oddity: a fault in strict mode, a warning in tolerant mode. -/
def remark (mode : Mode) (oddity : Remark) : Parser Unit :=
  match mode with
  | .strict => throw oddity.fault
  | .tolerant => record (.remark oddity)

/-- Whether the error limit is reached. -/
def exhausted : Parser Bool := do
  return errorLimit ≤ (← get).errors

/-- Runs a parser and answers its fault instead of failing with it.  A stack without room is no
fault that can be answered. -/
def attempt {α : Type} (parser : Parser α) : Parser (Except Fault α) := fun state =>
  match parser state with
  | .ok value left => .ok (.ok value) left
  | .error fault left =>
      if fault.problem = .tooDeep then .error fault left else .ok (.error fault) left

/-- Repeats a parsing step until it answers `done` or takes nothing. -/
def loop {β : Type} (value : β) (step : β → Parser (ForInStep β)) : Parser β :=
  repeatSteps (fun state : State => state.rest.length) step value

/-- The tokens from the start of the next statement on, inside `depth` open braces: behind a
semicolon or a closing brace that leaves no brace open, and in front of a closing brace that none
of them opened. -/
def nextStatementFrom (depth : Nat) : List Token → List Token
  | [] => []
  | token :: rest =>
      match token.kind, depth with
      | .endOfFile, _ => token :: rest
      | .semicolon, 0 => rest
      | .opening .brace, depth => nextStatementFrom (depth + 1) rest
      | .closing .brace, 0 => token :: rest
      | .closing .brace, 1 => rest
      | .closing .brace, depth + 2 => nextStatementFrom (depth + 1) rest
      | _, depth => nextStatementFrom depth rest

/-- Goes on at the next statement. -/
def resume : Parser Unit :=
  modify fun state => { state with rest := nextStatementFrom 0 state.rest }

end Parser

end Interlock
