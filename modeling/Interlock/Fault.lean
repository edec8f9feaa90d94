import Interlock.Token
import Interlock.Tree

/-!
# Faults in declarations

A fault says what is wrong with a token list and at which token it shows.  Causes are values; the
wording of each stands in one function.  A fault that shows at the end of a list that lacks its
end mark has no token.
-/

namespace Interlock

/-- What can be wrong with a token list. -/
inductive Problem where
  /-- A token of another kind stands here; `none` is the end of the file. -/
  | expectedKind (kind : Token.Kind) (found : Option Token)
  | expectedName (what : String)
  | expectedOpener
  | unclosedGroup (shape : Bracket) (opener : Token)
  | mismatchedCloser (closer : Token) (shape : Bracket)
  | unterminatedStatement
  | expectedSemicolon
  | expectedBlock
  | unclosedBlock
  | expectedSemicolonAfter (text : String)
  | expectedExpressionAfter (text : String)
  | expectedAssemblyBlock
  | unexpected (text : String)
  | unexpectedAtTopLevel (text : String)
  | unexpectedInContract (text : String)
  | unrecognizedStatement (text : String)
  | straySemicolon
  | duplicateSpecifier (text previous : String)
  | expectedImportPath
  | expectedUsingFor
  | expectedContractBody (kind : Tree.ContractKind) (name : String)
  | unclosedContract (kind : Tree.ContractKind) (name : String)
  | expectedParameters (label : String)
  | unclosedHeader (label : String)
  | unexpectedInHeader (text label : String)
  | expectedReturnParameters
  | unclosedModifier (name : String)
  | unexpectedInModifier (text name : String)
  | expectedEventParameters (name : String)
  | expectedSemicolonAfterEvent (name : String)
  | expectedStructBody (name : String)
  | expectedEnumBody (name : String)
  | expectedMappingTypes
  | expectedTypeName
  | expectedVariableName (start : String)
  | unexpectedAfterVariable (text name : String)
  | expectedInitializer (name : String)
  /-- A declaration should begin where no token is left, not even the end mark. -/
  | nothingLeft
  /-- The stack has no room for a further block.  This is no fault of the source. -/
  | tooDeep
  /-- A problem in the words of the caller. -/
  | worded (message : String)
  deriving DecidableEq, Repr

/-- The wording of a problem. -/
def Problem.message : Problem → String
  | expectedKind kind none => "Expected " ++ kind.label ++ ", got end of file"
  | expectedKind kind (some found) =>
      "Expected " ++ kind.label ++ ", got " ++ found.kind.label ++ " " ++ Text.quoted found.text
  | expectedName what => "Expected " ++ what
  | expectedOpener => "Expected an opening bracket"
  | unclosedGroup shape opener =>
      "Unexpected end of file, missing closing '" ++ shape.closer.toString ++ "' for '" ++
        opener.text ++ "' at line " ++ toString opener.position.line
  | mismatchedCloser closer shape =>
      "Mismatched '" ++ closer.text ++ "', expected '" ++ shape.closer.toString ++ "'"
  | unterminatedStatement => "Expected ';', got end of file"
  | expectedSemicolon => "Expected ';'"
  | expectedBlock => "Expected '\x7b'"
  | unclosedBlock => "Unexpected end of file, missing closing '\x7d'"
  | expectedSemicolonAfter text => "Expected ';' after " ++ Text.quoted text
  | expectedExpressionAfter text => "Expected expression after " ++ Text.quoted text
  | expectedAssemblyBlock => "Expected '\x7b' after assembly"
  | unexpected text => "Unexpected " ++ Text.quoted text
  | unexpectedAtTopLevel text => "Unexpected " ++ Text.quoted text ++ " at top level"
  | unexpectedInContract text => "Unexpected " ++ Text.quoted text ++ " in contract body"
  | unrecognizedStatement text =>
      "Unrecognized top-level statement starting with " ++ Text.quoted text
  | straySemicolon => "Unexpected ';'"
  | duplicateSpecifier text previous =>
      "Duplicate specifier " ++ Text.quoted text ++ " (already " ++ Text.quoted previous ++ ")"
  | expectedImportPath => "Expected import path"
  | expectedUsingFor => "Expected 'for' in using declaration"
  | expectedContractBody kind name => "Expected '\x7b' to open " ++ kind.word ++ " " ++ name
  | unclosedContract kind name =>
      "Unexpected end of file in " ++ kind.word ++ " " ++ name ++ " (missing closing '\x7d')"
  | expectedParameters label => "Expected '(' after function " ++ label
  | unclosedHeader label => "Unexpected end of file in header of function " ++ label
  | unexpectedInHeader text label =>
      "Unexpected " ++ Text.quoted text ++ " in header of function " ++ label
  | expectedReturnParameters => "Expected '(' after returns"
  | unclosedModifier name => "Unexpected end of file in modifier " ++ name
  | unexpectedInModifier text name =>
      "Unexpected " ++ Text.quoted text ++ " in modifier " ++ name
  | expectedEventParameters name => "Expected '(' after event " ++ name
  | expectedSemicolonAfterEvent name => "Expected ';' after event " ++ name
  | expectedStructBody name => "Expected '\x7b' after struct " ++ name
  | expectedEnumBody name => "Expected '\x7b' after enum " ++ name
  | expectedMappingTypes => "Expected '(' after mapping"
  | expectedTypeName => "Expected type name after '.'"
  | expectedVariableName start =>
      "Expected variable name in declaration starting with " ++ Text.quoted start
  | unexpectedAfterVariable text name =>
      "Unexpected " ++ Text.quoted text ++ " after variable " ++ name
  | expectedInitializer name => "Expected initializer for " ++ name
  | nothingLeft => "Nothing left to read"
  | tooDeep => "maximum recursion depth exceeded"
  | worded message => message

/-- A problem and the token where it shows. -/
structure Fault where
  problem : Problem
  token : Option Token
  deriving DecidableEq, Repr

/-- Where a fault shows. -/
def Fault.position (fault : Fault) : Position :=
  (fault.token.map (·.position)).getD .none

/-- A fault as it is reported on its own. -/
structure FaultReport where
  short : String
  message : String
  token : Option Token
  position : Position
  deriving DecidableEq, Repr

namespace FaultReport

/-- Reads a zero as the absence of a number. -/
def given : Option Int → Option Int
  | some 0 => none
  | number => number

/-- The report of a message with a token, a line or a column.  The sentence takes its position
from the token first; the reported line and column are the given ones first. -/
def of (short : String) (token : Option Token) (line column : Option Int) : FaultReport where
  short := short
  token := token
  position :=
    let place := (token.map (·.position)).getD .none
    ⟨(given line).getD place.line, (given column).getD place.column⟩
  message :=
    let placed (line column : Int) : String :=
      "Parse error at line " ++ toString line ++ ", column " ++ toString column ++ ": " ++ short
    match token, given line with
    | some token, _ => placed token.position.line token.position.column
    | none, some line => placed line (column.getD 0)
    | none, none => "Parse error: " ++ short

end FaultReport

/-- The report of a fault. -/
def Fault.report (fault : Fault) : FaultReport :=
  .of fault.problem.message fault.token none none

end Interlock
