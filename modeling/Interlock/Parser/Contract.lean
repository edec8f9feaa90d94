import Interlock.Parser.Function
import Interlock.Reader.Variable
import Interlock.StackRoom

/-!
# Contracts

A contract has a name, perhaps bases, and a body of members in braces.  In tolerant mode a member
with a fault is left out and the body goes on at the next statement.
-/

namespace Interlock.Parser

variable [StackRoom]

/-- The state variable that the statement at the front declares; `start` is its first token. -/
def stateVariable (start : Token) (tokens : List Token) : Parser Tree.Variable :=
  match Tree.Variable.ofTokens start tokens with
  | .ok node => return node
  | .error fault => throw fault

/-- The role of a function that a keyword in front of a parenthesis announces. -/
def bareKind? : String → Option Tree.FunctionKind
  | "constructor" => some .constructor
  | "fallback" => some .fallback
  | "receive" => some .receive
  | _ => none

/-- Reads the member that begins with the keyword `token`, which is at the front.  The answer is
`none`, and nothing is read, when the word is no keyword here. -/
def keywordMember? (mode : Mode) (token : Token) : Parser (Option Tree.Member) := do
  let next ← Reader.peek 1
  let nextIs (kind : Token.Kind) : Bool := next.any (·.kind = kind)
  match bareKind? token.text with
  | some kind =>
      if nextIs (.opening .paren) then
        let _ ← Reader.advance
        return some (.function (← function StackRoom.member mode kind token))
      else return none
  | none =>
      match token.text with
      | "function" =>
          let _ ← Reader.advance
          return some (.function (← function StackRoom.member mode .function token))
      | "modifier" =>
          let _ ← Reader.advance
          return some (.modifier (← Reader.modifier StackRoom.member token))
      | "event" =>
          let _ ← Reader.advance
          return some (.event (← Reader.event token))
      | "struct" =>
          let _ ← Reader.advance
          return some (.struct (← Reader.struct token))
      | "enum" =>
          let _ ← Reader.advance
          return some (.enum (← Reader.enum token))
      | "using" =>
          let _ ← Reader.advance
          return some (.usingFor (← Reader.usingFor token))
      | "error" | "type" =>
          if nextIs .identifier then
            let _ ← Reader.advance
            return some (.declaration (← Reader.declaration token))
          else return none
      | _ => return none

/-- Reads a member of a contract, or nothing but a stray semicolon. -/
def contractPart (mode : Mode) : Parser (Option Tree.Member) := do
  let token ← Reader.front
  match token.kind with
  | .semicolon =>
      let _ ← Reader.advance
      remark mode (.straySemicolon token)
      return none
  | .identifier =>
      match ← keywordMember? mode token with
      | some member => return some member
      | none =>
          let tokens ← Reader.statement
          return some (.stateVariable (← stateVariable token tokens))
  | _ => Reader.failAt (.unexpectedInContract token.text) token

/-- Reads a member into a list of members; in tolerant mode a fault is recorded and the next
statement is looked for. -/
def memberInto (mode : Mode) (members : Array Tree.Member) : Parser (Array Tree.Member) :=
  match mode with
  | .strict => do
      return (← contractPart mode).elim members members.push
  | .tolerant => do
      match ← attempt (contractPart mode) with
      | .ok member => return member.elim members members.push
      | .error fault =>
          record (.fault fault)
          resume
          return members

/-- Meets the end of the file inside a contract. -/
def unclosed (mode : Mode) (kind : Tree.ContractKind) (name : String)
    (token : Option Token) : Parser Unit :=
  let fault : Fault := ⟨.unclosedContract kind name, token⟩
  match mode with
  | .strict => throw fault
  | .tolerant => record (.unclosedContract fault)

/-- One step through the body of a contract. -/
def bodyStep (mode : Mode) (kind : Tree.ContractKind) (name : String)
    (members : Array Tree.Member) : Parser (ForInStep (Array Tree.Member)) := do
  if mode = .tolerant && (← exhausted) then return .done members
  let token ← Reader.current
  match token.map Token.kind with
  | none | some .endOfFile =>
      unclosed mode kind name token
      return .done members
  | some (.closing .brace) =>
      let _ ← Reader.advance
      return .done members
  | _ => return .yield (← memberInto mode members)

/-- Reads a contract behind its keywords; `start` is the first of them. -/
def contract (mode : Mode) (kind : Tree.ContractKind) (isAbstract : Bool) (start : Token) :
    Parser Tree.Contract := do
  let name ← Reader.expectName (kind.word ++ " name")
  let bases ← if ← Reader.atWord? "is" then
      let _ ← Reader.advance
      Reader.bases
    else pure []
  let _ ← Reader.expectElse (.opening .brace) (.expectedContractBody kind name.text)
  let members ← loop #[] (bodyStep mode kind name.text)
  return ⟨name.text, kind, isAbstract, bases, members.toList, start.position⟩

end Interlock.Parser
