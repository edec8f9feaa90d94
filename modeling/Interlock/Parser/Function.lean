import Interlock.Parser
import Interlock.Reader.Declaration

/-!
# Function definitions

Behind its parameters a function has header items in any order: visibility and mutability
keywords, `virtual`, `override`, `returns` and modifiers.  The first keyword of each sort counts and
a further one is an oddity; of several `override` or `returns` the last one counts.  A block or a
semicolon ends the function.
-/

namespace Interlock.Parser

/-- The header items read so far. -/
structure Header where
  visibility : Option Visibility := none
  mutability : Option Mutability := none
  modifiers : List Tree.Invocation := []
  isVirtual : Bool := false
  overrides : Option (List String) := none
  returnParameters : Option String := none
  hasBody : Bool := false
  deriving DecidableEq, Repr

/-- Reads the header item that the word at the front begins. -/
def headerItem (mode : Mode) (header : Header) (token : Token) : Parser Header := do
  let _ ← Reader.advance
  match Visibility.ofWord? token.text, Mutability.ofWord? token.text with
  | some visibility, _ =>
      match header.visibility with
      | some previous =>
          remark mode (.duplicateSpecifier token previous.word)
          return header
      | none => return { header with visibility := visibility }
  | none, some mutability =>
      match header.mutability with
      | some previous =>
          remark mode (.duplicateSpecifier token previous.word)
          return header
      | none => return { header with mutability := mutability }
  | none, none =>
      if token.text = "virtual" then return { header with isVirtual := true }
      else if token.text = "override" then
        let names ← Reader.parenthesized?
        let bases := (names.map fun group => Text.commaItems group.text).getD []
        return { header with overrides := bases }
      else if token.text = "returns" then
        let group ← Reader.shaped .paren .expectedReturnParameters
        return { header with returnParameters := group.text }
      else
        let modifier ← Reader.invocation token
        return { header with modifiers := header.modifiers ++ [modifier] }

/-- One step through a header: an item, or the end of the function. -/
def headerStep (limit : Nat) (mode : Mode) (label : String) (header : Header) :
    Parser (ForInStep Header) := do
  match ← Reader.current with
  | none => Reader.failAt (.unclosedHeader label) none
  | some token =>
      match token.kind with
      | .endOfFile => Reader.failAt (.unclosedHeader label) token
      | .opening .brace =>
          Reader.block limit
          return .done { header with hasBody := true }
      | .semicolon =>
          let _ ← Reader.advance
          return .done header
      | .identifier => return .yield (← headerItem mode header token)
      | _ => Reader.failAt (.unexpectedInHeader token.text label) token

/-- Reads the name of a function, which only the role `function` has and may lack. -/
def functionName (kind : Tree.FunctionKind) : Reader String := do
  if kind = .function && (← Reader.at? .identifier) then
    return ((← Reader.advance).map (·.text)).getD ""
  else return ""

/-- Reads a function behind its keyword `start`; `limit` blocks may be open inside its body.  A
function without a name is the fallback. -/
def function (limit : Nat) (mode : Mode) (kind : Tree.FunctionKind) (start : Token) :
    Parser Tree.Function := do
  let name ← functionName kind
  let labelElse (other : String) : String := if name = "" then other else name
  let parameters ← Reader.shaped .paren (.expectedParameters (labelElse start.text))
  let header ← loop {} (headerStep limit mode (labelElse kind.word))
  return {
    name := name
    kind := if name = "" && kind = .function then .fallback else kind
    parameters := parameters.text
    returnParameters := header.returnParameters
    explicitVisibility := header.visibility
    explicitMutability := header.mutability
    modifiers := header.modifiers
    isVirtual := header.isVirtual
    overrides := header.overrides
    hasBody := header.hasBody
    position := start.position }

end Interlock.Parser
