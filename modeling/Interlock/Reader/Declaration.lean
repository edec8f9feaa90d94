import Interlock.Reader.Block
import Interlock.Reader.Statement
import Interlock.Text.Blank

/-!
# Declarations that begin with a keyword

Each reader here is called with the keyword taken and handed over as `start`; the node it answers
stands at that keyword.  None of them can meet an oddity that is passed over, so they are the same
for strict and for tolerant reading.
-/

namespace Interlock.Reader

/-- The texts of tokens, joined by blanks. -/
def spaced (tokens : List Token) : String :=
  " ".intercalate (tokens.map (·.text))

/-- Reads the further names of a dotted name whose names so far are `names`. -/
def dotted (what : String) (names : List String) : Reader String := do
  let all ← loop names fun names => do
    if ← at? .dot then
      let _ ← advance
      let name ← expectName what
      return .yield (names ++ [name.text])
    else return .done names
  return ".".intercalate all

/-- Reads a group if one in parentheses is at the front. -/
def parenthesized? : Reader (Option Group) := do
  if ← at? (.opening .paren) then return some (← group) else return none

/-- Reads a group of a given shape. -/
def shaped (shape : Bracket) (problem : Problem) : Reader Group := do
  if ← at? (.opening shape) then group else fail problem

/-- Reads a version or feature directive. -/
def pragma (start : Token) : Reader Tree.Pragma := do
  let name ← expectName "pragma name"
  let tokens ← statement
  return ⟨name.text, String.join (tokens.map (·.text)), start.position⟩

/-- Reads an import; the first string of it is the path. -/
def importPath (start : Token) : Reader Tree.Import := do
  let tokens ← statement
  match tokens.find? (·.kind = .string) with
  | some path => return ⟨path.text, start.position⟩
  | none => failAt .expectedImportPath start

/-- Reads an error or a named type. -/
def declaration (start : Token) : Reader Tree.Declaration := do
  let name ← expectName (start.text ++ " name")
  let tokens ← statement
  return ⟨start.text, name.text, spaced tokens, start.position⟩

/-- Reads an event. -/
def event (start : Token) : Reader Tree.Event := do
  let name ← expectName "event name"
  let parameters ← shaped .paren (.expectedEventParameters name.text)
  let isAnonymous ← atWord? "anonymous"
  if isAnonymous then
    let _ ← advance
  let _ ← expectElse .semicolon (.expectedSemicolonAfterEvent name.text)
  return ⟨name.text, parameters.text, isAnonymous, start.position⟩

/-- Reads a record type. -/
def struct (start : Token) : Reader Tree.Struct := do
  let name ← expectName "struct name"
  let members ← shaped .brace (.expectedStructBody name.text)
  return ⟨name.text, members.text, start.position⟩

/-- Reads an enumeration type. -/
def enum (start : Token) : Reader Tree.Enum := do
  let name ← expectName "enum name"
  let values ← shaped .brace (.expectedEnumBody name.text)
  return ⟨name.text, Text.commaItems values.text, start.position⟩

/-- Reads a directive that attaches a library to a type; the first `for` divides the two. -/
def usingFor (start : Token) : Reader Tree.UsingFor := do
  let tokens ← statement
  let library := tokens.takeWhile (·.text ≠ "for")
  match tokens.dropWhile (·.text ≠ "for") with
  | [] => failAt .expectedUsingFor start
  | _ :: typeName => return ⟨spaced library, spaced typeName, start.position⟩

/-- Reads a modifier in a function header; `start` is the first word of its name. -/
def invocation (start : Token) : Reader Tree.Invocation := do
  let name ← dotted "modifier name" [start.text]
  let arguments ← parenthesized?
  return ⟨name, arguments.map (·.text), start.position⟩

/-- One step through the end of a modifier definition; the value says whether it is virtual. -/
def modifierStep (limit : Nat) (name : String) (isVirtual : Bool) :
    Reader (ForInStep Bool) := do
  match ← current with
  | none => failAt (.unclosedModifier name) none
  | some token =>
      match token.kind with
      | .endOfFile => failAt (.unclosedModifier name) token
      | .opening .brace =>
          block limit
          return .done isVirtual
      | .semicolon =>
          let _ ← advance
          return .done isVirtual
      | _ =>
          if token.isWord "virtual" then
            let _ ← advance
            return .yield true
          else if token.isWord "override" then
            let _ ← advance
            let _ ← parenthesized?
            return .yield isVirtual
          else failAt (.unexpectedInModifier token.text name) token

/-- Reads the definition of a modifier; `limit` blocks may be open inside its body. -/
def modifier (limit : Nat) (start : Token) : Reader Tree.Modifier := do
  let name ← expectName "modifier name"
  let parameters ← parenthesized?
  let isVirtual ← loop false (modifierStep limit name.text)
  return ⟨name.text, parameters.map (·.text), isVirtual, start.position⟩

/-- Reads the list of bases behind `is`.  The arguments of a base are not kept. -/
def bases : Reader (List String) :=
  loop [] fun names => do
    let first ← expectName "base contract name"
    let name ← dotted "base contract name" [first.text]
    let _ ← parenthesized?
    let names := names ++ [name]
    if ← at? .comma then
      let _ ← advance
      return .yield names
    else return .done names

end Interlock.Reader
