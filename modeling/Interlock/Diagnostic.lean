import Interlock.Fault
import Interlock.Json
import Interlock.Token.Lexer

/-!
# Diagnostics

A tolerant reading records what it met as findings.  A finding keeps its cause and its tokens; a
diagnostic is the record that is printed for it.  Only findings of severity error make a reading
fail.
-/

namespace Interlock

/-- How grave a diagnostic is. -/
inductive Severity where
  | error
  | warning
  | other (label : String)
  deriving DecidableEq, Repr

namespace Severity

/-- The word for a severity. -/
def label : Severity → String
  | error => "error"
  | warning => "warning"
  | other label => label

/-- The severity that a word stands for. -/
def ofLabel : String → Severity
  | "error" => error
  | "warning" => warning
  | label => other label

end Severity

/-- A diagnostic: the range it is about, its severity, its code and its message. -/
structure Diagnostic where
  first : Position
  last : Position
  severity : Severity
  code : String
  message : String
  deriving DecidableEq, Repr

namespace Diagnostic

/-- A diagnostic on one line. -/
def display (diagnostic : Diagnostic) : String :=
  toString diagnostic.first.line ++ ":" ++ toString diagnostic.first.column ++ " " ++
    diagnostic.severity.label ++ " " ++ diagnostic.code ++ ": " ++ diagnostic.message

/-- A diagnostic as a JSON object. -/
def toJson (diagnostic : Diagnostic) : Json :=
  .object
    [("line", .int diagnostic.first.line), ("column", .int diagnostic.first.column),
     ("end_line", .int diagnostic.last.line), ("end_column", .int diagnostic.last.column),
     ("severity", .string diagnostic.severity.label), ("code", .string diagnostic.code),
     ("message", .string diagnostic.message)]

/-- The diagnostics of severity error. -/
def errors (diagnostics : List Diagnostic) : List Diagnostic :=
  diagnostics.filter (·.severity = .error)

/-- The diagnostics of severity warning. -/
def warnings (diagnostics : List Diagnostic) : List Diagnostic :=
  diagnostics.filter (·.severity = .warning)

end Diagnostic

/-- An oddity that a tolerant reading passes over and a strict one refuses. -/
inductive Remark where
  | straySemicolon (token : Token)
  | unrecognizedDirective (start : Token) (tokens : List Token)
  | duplicateSpecifier (token : Token) (previous : String)
  deriving DecidableEq, Repr

namespace Remark

/-- The token that a remark is placed at. -/
def token : Remark → Token
  | straySemicolon token => token
  | unrecognizedDirective start _ => start
  | duplicateSpecifier token _ => token

/-- The refusal of a strict reading. -/
def fault (remark : Remark) : Fault where
  token := some remark.token
  problem :=
    match remark with
    | straySemicolon _ => .straySemicolon
    | unrecognizedDirective start _ => .unrecognizedStatement start.text
    | duplicateSpecifier token previous => .duplicateSpecifier token.text previous

/-- The code of a remark. -/
def code : Remark → String
  | straySemicolon _ => "STRAY_SEMICOLON"
  | unrecognizedDirective _ _ => "UNRECOGNIZED_DIRECTIVE"
  | duplicateSpecifier _ _ => "DUPLICATE_SPECIFIER"

/-- The warning of a tolerant reading. -/
def message : Remark → String
  | straySemicolon _ => "Ignoring stray ';'"
  | unrecognizedDirective _ tokens =>
      "Ignoring unrecognized directive " ++
        Text.quoted (" ".intercalate (tokens.map (·.text)))
  | duplicateSpecifier token previous =>
      "Ignoring duplicate specifier " ++ Text.quoted token.text ++ " (keeping " ++
        Text.quoted previous ++ ")"

end Remark

/-- What a tolerant reading records. -/
inductive Finding where
  | remark (remark : Remark)
  | fault (fault : Fault)
  | unclosedContract (fault : Fault)
  | tooManyErrors (limit : Nat)
  | lexical (error : LexError)
  deriving DecidableEq, Repr

namespace Finding

/-- Remarks are warnings, all else is an error. -/
def severity : Finding → Severity
  | remark _ => .warning
  | _ => .error

/-- Whether a finding makes the reading fail. -/
def isError (finding : Finding) : Bool := finding.severity = .error

/-- Whether a finding is that the stack has no room, with which a reading is given up. -/
def isTooDeep : Finding → Bool
  | fault cause => cause.problem = .tooDeep
  | _ => false

/-- The code of a finding. -/
def code : Finding → String
  | remark cause => cause.code
  | fault _ => "PARSE_ERROR"
  | unclosedContract _ => "UNCLOSED_BLOCK"
  | tooManyErrors _ => "TOO_MANY_ERRORS"
  | lexical _ => "LEXER_ERROR"

/-- The message of a finding. -/
def message : Finding → String
  | remark cause => cause.message
  | fault cause => cause.problem.message
  | unclosedContract cause => cause.problem.message
  | tooManyErrors limit => "Too many errors (" ++ toString limit ++ "+), stopping"
  | lexical error => error.problem.message

/-- The token that a finding is placed at. -/
def token : Finding → Option Token
  | remark cause => some cause.token
  | fault cause => cause.token
  | unclosedContract cause => cause.token
  | tooManyErrors _ => none
  | lexical _ => none

/-- Where a finding begins and ends: at its token, or at the character that begins no token. -/
def range : Finding → Position × Position
  | lexical error => (error.position, ⟨error.position.line, error.position.column + 1⟩)
  | finding =>
      match finding.token with
      | some token =>
          (token.position, ⟨token.position.line, token.position.column + token.text.length⟩)
      | none => (.none, .none)

/-- The diagnostic of a finding. -/
def toDiagnostic (finding : Finding) : Diagnostic :=
  ⟨finding.range.1, finding.range.2, finding.severity, finding.code, finding.message⟩

end Finding

end Interlock
