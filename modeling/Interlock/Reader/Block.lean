import Interlock.Reader.Group

/-!
# Blocks of statements

A block is read for its structure only: simple statements end in a semicolon and not on an
operator that lacks its operand, blocks may be nested as deep as the stack has room, and inline
assembly is a balanced group whatever it holds.  Since nothing of a statement is kept, it is enough
to know how many blocks are open and which token the statement at hand ends on so far.
-/

namespace Interlock.Reader

/-- Reads the flags of inline assembly, if any, and its body. -/
def assembly (tokens : List Token) : EStateM.Result Fault (List Token) Unit :=
  match tokens with
  | [] => .error ⟨.expectedAssemblyBlock, none⟩ []
  | token :: rest =>
      match token.kind with
      | .endOfFile => .error ⟨.expectedAssemblyBlock, some token⟩ (token :: rest)
      | .opening .brace =>
          match group (token :: rest) with
          | .ok _ left => .ok () left
          | .error fault left => .error fault left
      | .opening .paren =>
          match _read : group (token :: rest) with
          | .ok _ left => assembly left
          | .error fault left => .error fault left
      | _ => assembly rest
termination_by tokens.length
decreasing_by
  · exact group_length _read
  · simp

/-- Inline assembly takes at least one token. -/
theorem assembly_length {tokens left : List Token} (read : assembly tokens = .ok () left) :
    left.length < tokens.length := by
  fun_induction assembly tokens with
  | case1 => simp at read
  | case2 => simp at read
  | case3 token rest _ result taken inner =>
      injection read with _ equal
      subst equal
      exact group_length inner
  | case4 => simp at read
  | case5 token rest _ result taken inner ih =>
      have shorter := group_length inner
      have := ih read
      omega
  | case6 => simp at read
  | case7 token rest _ _ _ ih =>
      have := ih read
      simp only [List.length_cons]
      omega

/-- Reads on inside a block with `depth` blocks open inside it, of at most `limit`, where the
statement at hand ends on `pending` so far. -/
def blockFrom (limit depth : Nat) (pending : Option Token) (tokens : List Token) :
    EStateM.Result Fault (List Token) Unit :=
  match tokens with
  | [] => .error ⟨.unclosedBlock, none⟩ []
  | token :: rest =>
      match token.kind with
      | .endOfFile => .error ⟨.unclosedBlock, some token⟩ (token :: rest)
      | .closing .brace =>
          match pending, depth with
          | some last, _ =>
              .error ⟨.expectedSemicolonAfter last.text, some token⟩ (token :: rest)
          | none, 0 => .ok () rest
          | none, depth + 1 => blockFrom limit depth none rest
      | .closing _ => .error ⟨.unexpected token.text, some token⟩ (token :: rest)
      | .opening .brace =>
          if depth < limit then blockFrom limit (depth + 1) none rest
          else .error ⟨.tooDeep, some token⟩ (token :: rest)
      | .opening _ =>
          match _read : group (token :: rest) with
          | .ok result left => blockFrom limit depth (some result.closer) left
          | .error fault left => .error fault left
      | .semicolon =>
          match pending.filter (·.isDangling) with
          | some last =>
              .error ⟨.expectedExpressionAfter last.text, some token⟩ (token :: rest)
          | none => blockFrom limit depth none rest
      | _ =>
          if pending.isNone && token.isWord "assembly" then
            match _read : assembly rest with
            | .ok _ left => blockFrom limit depth none left
            | .error fault left => .error fault left
          else blockFrom limit depth (some token) rest
termination_by tokens.length
decreasing_by
  · simp
  · simp
  · exact group_length _read
  · simp
  · have := assembly_length _read
    simp only [List.length_cons]
    omega
  · simp

/-- Reads a block of statements in braces; `limit` blocks may be open inside it. -/
def block (limit : Nat) : Reader Unit := do
  let _ ← expectElse (.opening .brace) .expectedBlock
  blockFrom limit 0 none

end Interlock.Reader
