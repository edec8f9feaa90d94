import Interlock.Reader.Group

/-!
# Statements

A declaration that no keyword announces is a statement: everything up to the next semicolon that
stands outside all groups.  A closing brace outside all groups ends the scope, so a statement may
not hold one.
-/

namespace Interlock.Reader

/-- Reads on in the statement that begins with `start`; `seen` are its tokens so far, last
first.  A statement without an end is a fault of its first token. -/
def statementFrom (start : Option Token) (seen : List Token) (tokens : List Token) :
    EStateM.Result Fault (List Token) (List Token) :=
  match tokens with
  | [] => .error ⟨.unterminatedStatement, start⟩ []
  | token :: rest =>
      match token.kind with
      | .endOfFile => .error ⟨.unterminatedStatement, start⟩ (token :: rest)
      | .semicolon => .ok seen.reverse rest
      | .closing .brace => .error ⟨.expectedSemicolon, some token⟩ (token :: rest)
      | .opening _ =>
          match _read : group (token :: rest) with
          | .ok result left => statementFrom start (result.tokens.reverse ++ seen) left
          | .error fault left => .error fault left
      | _ => statementFrom start (token :: seen) rest
termination_by tokens.length
decreasing_by
  · exact group_length _read
  · simp

/-- Reads a statement and its semicolon, and answers the tokens before the semicolon. -/
def statement : Reader (List Token) := fun tokens =>
  statementFrom tokens.head? [] tokens

end Interlock.Reader
