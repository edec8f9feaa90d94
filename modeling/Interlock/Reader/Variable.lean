import Interlock.Reader.Group

/-!
# State variables

The tokens of a statement make a state variable when they are a type, then specifiers, then a
name, and then nothing or an equals sign and an initializer that does not end on an operator
which lacks its operand.  Brackets of a statement are balanced already, so a group in it ends where
as many brackets have closed as have opened, whatever their shapes.
-/

namespace Interlock.Tree.Variable

/-- What is left behind a group inside which `depth + 1` brackets are open. -/
def pastGroup (depth : Nat) : List Token → List Token
  | [] => []
  | token :: rest =>
      match token.kind, depth with
      | .opening _, depth => pastGroup (depth + 1) rest
      | .closing _, 0 => rest
      | .closing _, depth + 1 => pastGroup depth rest
      | _, depth => pastGroup depth rest

theorem pastGroup_length (depth : Nat) (tokens : List Token) :
    (pastGroup depth tokens).length ≤ tokens.length := by
  induction tokens generalizing depth with
  | nil => simp [pastGroup]
  | cons token rest ih =>
      have shorter (depth : Nat) : (pastGroup depth rest).length ≤ rest.length + 1 := by
        have := ih depth
        omega
      unfold pastGroup
      simp only [List.length_cons]
      split
      · exact shorter _
      · omega
      · exact shorter _
      · exact shorter _

/-- What is left behind the further names of a dotted type name.  The error is the place where a
name is missing. -/
def pastQualifiers : List Token → Except (List Token) (List Token)
  | [] => .ok []
  | [token] => if token.kind = .dot then .error [] else .ok [token]
  | token :: name :: rest =>
      if token.kind ≠ .dot then .ok (token :: name :: rest)
      else if name.kind = .identifier then pastQualifiers rest
      else .error (name :: rest)

/-- What is left behind the array brackets of a type. -/
def pastIndexes (tokens : List Token) : List Token :=
  match tokens with
  | [] => []
  | token :: rest =>
      if token.kind = .opening .square then pastIndexes (pastGroup 0 rest)
      else token :: rest
termination_by tokens.length
decreasing_by
  have := pastGroup_length 0 rest
  simp only [List.length_cons]
  omega

/-- The words that may stand between a type and a name. -/
def specifiers : List String :=
  ["public", "internal", "private", "constant", "immutable", "override"]

/-- The specifiers at the front and what is left behind them; `override` may have a group. -/
def takeSpecifiers (seen : List String) (tokens : List Token) : List String × List Token :=
  match tokens with
  | [] => (seen, [])
  | token :: rest =>
      if token.kind = .identifier && specifiers.contains token.text then
        match rest with
        | next :: inner =>
            if token.text = "override" && next.kind = .opening .paren then
              takeSpecifiers (token.text :: seen) (pastGroup 0 inner)
            else takeSpecifiers (token.text :: seen) (next :: inner)
        | [] => (token.text :: seen, [])
      else (seen, token :: rest)
termination_by tokens.length
decreasing_by
  · have := pastGroup_length 0 inner
    simp only [List.length_cons]
    omega
  · simp

/-- The text of a type, with a blank only between two names. -/
def typeText : List Token → String
  | [] => ""
  | [token] => token.text
  | token :: next :: rest =>
      let blank :=
        if token.kind = .identifier && next.kind = .identifier then " " else ""
      token.text ++ blank ++ typeText (next :: rest)

/-- The visibility among the specifiers; a public variable is public whatever else it says. -/
def visibilityOf (words : List String) : Option Visibility :=
  [Visibility.publicly, .internally, .privately].find? fun visibility =>
    words.contains visibility.word

/-- The state variable that the tokens of a statement declare; `start` is the first token of the
statement.  A fault behind the last token is placed at the last token. -/
def ofTokens (start : Token) (tokens : List Token) : Except Fault Variable := do
  let failAt {α : Type} (place : List Token) (problem : Problem) : Except Fault α :=
    .error ⟨problem, place.head? <|> tokens.getLast? <|> some start⟩
  let afterName ← match tokens with
    | first :: rest =>
        if first.kind ≠ .identifier then failAt tokens (.unexpected start.text)
        else if first.text = "mapping" then
          match rest with
          | next :: inner =>
              if next.kind = .opening .paren then .ok (pastGroup 0 inner)
              else failAt rest .expectedMappingTypes
          | [] => failAt rest .expectedMappingTypes
        else
          match pastQualifiers rest with
          | .error place => failAt place .expectedTypeName
          | .ok left =>
              if first.text = "address" && left.head?.any (·.text = "payable") then .ok left.tail
              else .ok left
    | [] => failAt [] (.unexpected start.text)
  let afterType := pastIndexes afterName
  let typeTokens := tokens.take (tokens.length - afterType.length)
  let (words, afterSpecifiers) := takeSpecifiers [] afterType
  match afterSpecifiers with
  | [] => failAt [] (.expectedVariableName start.text)
  | name :: rest =>
      if name.kind ≠ .identifier then
        failAt afterSpecifiers (.expectedVariableName start.text)
      match rest with
      | [] => pure ()
      | following :: initializer =>
          if following.kind ≠ .operator || following.text ≠ "=" then
            failAt rest (.unexpectedAfterVariable following.text name.text)
          match initializer.getLast? with
          | none => failAt rest (.expectedInitializer name.text)
          | some last =>
              if last.isDangling then failAt [last] (.expectedExpressionAfter last.text)
      return {
        name := name.text
        typeName := typeText typeTokens
        visibility := visibilityOf words
        isConstant := words.contains "constant"
        isImmutable := words.contains "immutable"
        position := start.position }

end Interlock.Tree.Variable
