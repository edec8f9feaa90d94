import Interlock.Parser.Contract

/-!
# Source units

`Tree.SourceUnit.parse` reads a token list strictly, `Reading.ofTokens` reads it tolerantly, and
both have a form for source text.  A tolerant reading always answers a tree, unless the text cannot
be split into tokens or the stack has no room for a block in it.
-/

namespace Interlock

variable [StackRoom]

namespace Parser

/-- Reads the top-level element that begins with the keyword `token`, which is at the front.  The
answer is `none`, and nothing is read, when the word is no keyword here. -/
def keywordElement? (mode : Mode) (token : Token) : Parser (Option Tree.Element) := do
  match Tree.ContractKind.ofWord? token.text with
  | some kind =>
      let _ ← Reader.advance
      return some (.contract (← contract mode kind false token))
  | none =>
      match token.text with
      | "pragma" =>
          let _ ← Reader.advance
          return some (.pragma (← Reader.pragma token))
      | "import" =>
          let _ ← Reader.advance
          return some (.importPath (← Reader.importPath token))
      | "abstract" =>
          if (← Reader.peek 1).any (·.text = "contract") then
            let _ ← Reader.advance
            let _ ← Reader.advance
            return some (.contract (← contract mode .contract true token))
          else return none
      | "function" =>
          let _ ← Reader.advance
          return some (.member (.function (← function StackRoom.free mode .function token)))
      | "struct" =>
          let _ ← Reader.advance
          return some (.member (.struct (← Reader.struct token)))
      | "enum" =>
          let _ ← Reader.advance
          return some (.member (.enum (← Reader.enum token)))
      | "event" =>
          let _ ← Reader.advance
          return some (.member (.event (← Reader.event token)))
      | "using" =>
          let _ ← Reader.advance
          return some (.member (.usingFor (← Reader.usingFor token)))
      | "error" | "type" =>
          let _ ← Reader.advance
          return some (.member (.declaration (← Reader.declaration token)))
      | _ => return none

/-- Reads a top-level element.  A stray semicolon and a statement that is no constant are
oddities. -/
def sourceElement (mode : Mode) : Parser (Option Tree.Element) := do
  let token ← Reader.front
  match token.kind with
  | .semicolon =>
      let _ ← Reader.advance
      remark mode (.straySemicolon token)
      return none
  | .identifier =>
      match ← keywordElement? mode token with
      | some element => return some element
      | none =>
          let tokens ← Reader.statement
          if tokens.any (·.isWord "constant") then
            return some (.member (.stateVariable (← stateVariable token tokens)))
          else
            remark mode (.unrecognizedDirective token tokens)
            return none
  | _ => Reader.failAt (.unexpectedAtTopLevel token.text) token

/-- Reads an element into a list of elements.  In tolerant mode a fault is recorded and the next
statement is looked for; a token at which neither gets on is passed over. -/
def elementInto (mode : Mode) (elements : Array Tree.Element) :
    Parser (Array Tree.Element) :=
  match mode with
  | .strict => do
      return (← sourceElement mode).elim elements elements.push
  | .tolerant => do
      let before := (← get).rest.length
      match ← attempt (sourceElement mode) with
      | .ok element => return element.elim elements elements.push
      | .error fault =>
          record (.fault fault)
          resume
          if (← get).rest.length = before then
            let _ ← Reader.advance
          return elements

/-- One step through a source unit. -/
def unitStep (mode : Mode) (elements : Array Tree.Element) :
    Parser (ForInStep (Array Tree.Element)) := do
  if mode = .tolerant && (← exhausted) then return .done elements
  if ← Reader.atEnd then return .done elements
  return .yield (← elementInto mode elements)

/-- Reads a source unit. -/
def sourceUnit (mode : Mode) (filename : String) : Parser Tree.SourceUnit := do
  let elements ← loop #[] (unitStep mode)
  if mode = .tolerant && (← exhausted) then record (.tooManyErrors errorLimit)
  return ⟨filename, elements.toList⟩

end Parser

/-- Why a source text cannot be read strictly. -/
inductive SourceFault where
  | lexical (error : LexError)
  | fault (fault : Fault)
  deriving DecidableEq, Repr

namespace Tree.SourceUnit

/-- Reads a token list strictly. -/
def ofTokens (filename : String) (tokens : List Token) : Except Fault Tree.SourceUnit :=
  match Parser.sourceUnit .strict filename (.ofTokens tokens) with
  | .ok unit _ => .ok unit
  | .error fault _ => .error fault

/-- Reads a source text strictly: the first problem ends the reading. -/
def parse (filename source : String) : Except SourceFault Tree.SourceUnit :=
  match Token.tokenize source with
  | .error error => .error (.lexical error)
  | .ok tokens => (ofTokens filename tokens).mapError .fault

end Tree.SourceUnit

/-- What a tolerant reading found. -/
structure Reading where
  unit : Option Tree.SourceUnit
  findings : List Finding
  deriving DecidableEq, Repr

namespace Reading

/-- Reads a token list tolerantly, and answers the tokens left over too. -/
def ofTokens (filename : String) (tokens : List Token) : Reading × List Token :=
  match Parser.sourceUnit .tolerant filename (.ofTokens tokens) with
  | .ok unit state => (⟨some unit, state.findings.toList⟩, state.rest)
  | .error fault state => (⟨none, state.findings.toList ++ [.fault fault]⟩, state.rest)

/-- Reads a source text tolerantly. -/
def ofSource (filename source : String) : Reading :=
  match Token.tokenize source with
  | .error error => ⟨none, [.lexical error]⟩
  | .ok tokens => (ofTokens filename tokens).1

/-- A reading succeeds when it found no error. -/
def success (reading : Reading) : Bool := !reading.findings.any (·.isError)

/-- Whether a reading was given up because the stack had no room.  Nothing is reported then. -/
def gaveUp (reading : Reading) : Bool := reading.findings.any (·.isTooDeep)

/-- The diagnostics of a reading. -/
def diagnostics (reading : Reading) : List Diagnostic :=
  reading.findings.map (·.toDiagnostic)

end Reading

end Interlock
