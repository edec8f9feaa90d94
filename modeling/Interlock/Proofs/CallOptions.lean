import Interlock.Proofs.Grammar

/-!
# Call options in simple statements

A call may be given options: names with values in braces, between the expression that
is called and the arguments.  The reader of blocks knows a brace outside of all groups
only as the beginning of a block, so it reads the options as statements and misses a
semicolon at their closing brace.  A body of simple statements is therefore read to its
end exactly when no statement has call options outside of its groups.
-/

namespace Interlock

/-- Tokens that an expression may end on. -/
def Token.EndsExpression (token : Token) : Prop :=
  token.kind ∈ [.identifier, .string, .number, .closing .paren, .closing .square]

namespace Grammar

/-- Terms and call options behind a token.  Options stand behind an expression and in front of
arguments: a name, a colon and a value.  Further options are set off by commas and need no case of
their own, since commas, names and colons are terms. -/
inductive Wording : Option Token → List Token → Prop where
  | nil {previous : Option Token} : Wording previous []
  | token {previous : Option Token} {token : Token} {rest : List Token} :
      token.kind.isPlain → token.kind ≠ .semicolon → Wording (some token) rest →
      Wording previous (token :: rest)
  | group {previous : Option Token} {shape : Bracket} {group : Group} {rest : List Token} :
      shape ≠ .brace → group.Encloses shape → Wording (some group.closer) rest →
      Wording previous (group.tokens ++ rest)
  | options {previous opener name colon closer : Token} {value rest : List Token}
      {arguments : Group} :
      previous.EndsExpression → opener.kind = .opening .brace →
      name.kind = .identifier → name.text ≠ "assembly" →
      colon.kind = .operator → colon.text = ":" →
      Wording (some colon) value → value ≠ [] →
      closer.kind = .closing .brace → arguments.Encloses .paren →
      Wording (some arguments.closer) rest →
      Wording (some previous)
        (opener :: name :: colon :: (value ++ closer :: (arguments.tokens ++ rest)))

end Grammar

open Grammar

/-- A statement that is no block, with its semicolon. -/
structure SimpleStatement where
  words : List Token
  semicolon : Token
  worded : Wording none words
  nonempty : words ≠ []
  notAssembly : ¬ AnnouncesAssembly words
  complete : ¬ Dangles words
  ends : semicolon.kind = .semicolon

def SimpleStatement.tokens (statement : SimpleStatement) : List Token :=
  statement.words ++ [statement.semicolon]

theorem SimpleStatement.derived (statement : SimpleStatement) (reads : Terms statement.words) :
    Derives 0 .statement statement.tokens :=
  .simple reads statement.notAssembly statement.complete statement.ends

theorem derives_statements {statements : List SimpleStatement}
    (reads : ∀ statement ∈ statements, Terms statement.words) :
    Derives 0 .statements (statements.flatMap (·.tokens)) := by
  induction statements with
  | nil => exact .none
  | cons statement statements ih =>
      obtain ⟨first, later⟩ := List.forall_mem_cons.1 reads
      exact .some (statement.derived first) (ih later)

/-- A body that holds simple statements only. -/
structure SimpleBody where
  opener : Token
  statements : List SimpleStatement
  closer : Token
  opens : opener.kind = .opening .brace
  closes : closer.kind = .closing .brace

def SimpleBody.tokens (body : SimpleBody) : List Token :=
  body.opener :: (body.statements.flatMap (·.tokens) ++ [body.closer])

namespace Reader

/-- Whether a run misses a semicolon in front of a closing brace. -/
def MissesSemicolon (result : EStateM.Result Fault (List Token) Unit) : Prop :=
  ∃ (last brace : Token) (left : List Token), brace.kind = .closing .brace ∧
    result = .error ⟨.expectedSemicolonAfter last.text, some brace⟩ left

variable {limit depth : Nat}

theorem blockFrom_unsettled {last closer : Token} {rest : List Token}
    (closes : closer.kind = .closing .brace) :
    MissesSemicolon (blockFrom limit depth (some last) (closer :: rest)) := by
  refine ⟨last, closer, closer :: rest, closes, ?_⟩
  rw [blockFrom.eq_def]
  simp only [closes]

/-- Behind terms some token is pending. -/
theorem exists_pending_of_terms {terms : List Token} {pending : Option Token}
    (reads : Terms terms) (nonempty : terms ≠ [])
    (within : pending = none → ¬ AnnouncesAssembly terms) (limit depth : Nat)
    (rest : List Token) :
    ∃ last, blockFrom limit depth pending (terms ++ rest) =
      blockFrom limit depth (some last) rest := by
  refine ⟨terms.getLast nonempty, ?_⟩
  rw [blockFrom_terms reads within, List.getLast?_eq_some_getLast nonempty, Option.some_or]

/-- Whether no block can hold some tokens, since a semicolon is missed in them unless the stack has
no room before. -/
def Refused (tokens : List Token) : Prop :=
  ∀ limit depth pending rest, (pending = none → ¬ AnnouncesAssembly tokens) →
    MissesSemicolon (blockFrom limit depth pending (tokens ++ rest)) ∨
      LacksRoom (blockFrom limit depth pending (tokens ++ rest))

/-- What is refused is refused behind terms. -/
theorem Refused.behind {terms tokens : List Token} (reads : Terms terms) (nonempty : terms ≠ [])
    (refused : Refused tokens) : Refused (terms ++ tokens) := by
  intro limit depth pending rest within
  have apart : pending = none → ¬ AnnouncesAssembly terms :=
    fun isNone announces => within isNone (announces.append tokens)
  obtain ⟨last, same⟩ := exists_pending_of_terms reads nonempty apart limit depth
    (tokens ++ rest)
  rw [List.append_assoc, same]
  exact refused _ _ _ _ (fun isNone => nomatch isNone)

/-- Where no semicolon stands in front of a closing brace, one is missed. -/
theorem missesSemicolon_of_terms {terms : List Token} {closer : Token}
    (reads : Terms terms) (nonempty : terms ≠ []) (notAssembly : ¬ AnnouncesAssembly terms)
    (closes : closer.kind = .closing .brace) (limit depth : Nat) (rest : List Token) :
    MissesSemicolon (blockFrom limit depth none (terms ++ closer :: rest)) := by
  obtain ⟨last, same⟩ := exists_pending_of_terms reads nonempty (fun _ => notAssembly) limit depth
    (closer :: rest)
  rw [same]
  exact blockFrom_unsettled closes

/-- The braces of call options are taken for a block, and what stands in them for its statements:
a semicolon is missed in the value or behind it. -/
theorem refused_of_options {opener name colon closer : Token} {value : List Token}
    (opens : opener.kind = .opening .brace) (isName : name.kind = .identifier)
    (notAssembly : name.text ≠ "assembly") (isColon : colon.kind = .operator)
    (closes : closer.kind = .closing .brace) (inside : Terms value ∨ Refused value)
    (rest : List Token) : Refused (opener :: name :: colon :: (value ++ closer :: rest)) := by
  intro limit depth pending more _
  by_cases room : depth < limit
  case neg => exact .inr ⟨_, _, blockFrom_tooDeep opens room⟩
  have front : Terms [name, colon] :=
    .token (by rw [isName]; rfl) (by simp [isName])
      (.token (by rw [isColon]; rfl) (by simp [isColon]) .nil)
  have apart : ¬ AnnouncesAssembly ([name, colon] ++ value) := by
    rintro ⟨_, ⟨⟩, isWord⟩
    simp [Token.isWord, notAssembly] at isWord
  rw [List.cons_append, blockFrom_open opens room]
  rcases inside with reads | refused
  · have missed := missesSemicolon_of_terms (front.append reads) (List.cons_ne_nil _ _) apart
      closes limit (depth + 1) (rest ++ more)
    exact .inl (by simpa using missed)
  · have missed := refused.behind front (List.cons_ne_nil _ _) limit (depth + 1) none
      (closer :: (rest ++ more)) fun _ => apart
    simpa using missed

/-- A statement holds terms only, or a semicolon is missed in its first call options. -/
theorem terms_or_refused {previous : Option Token} {words : List Token}
    (worded : Wording previous words) : Terms words ∨ Refused words := by
  induction worded with
  | nil => exact .inl .nil
  | @token _ token _ plain notSemicolon _ ih =>
      have reads : Terms [token] := .token plain notSemicolon .nil
      exact ih.imp reads.append (.behind reads nofun)
  | @group _ _ group _ notBrace encloses _ ih =>
      have reads : Terms group.tokens := .of_group notBrace encloses
      exact ih.imp reads.append (.behind reads nofun)
  | options _ opens isName notAssembly isColon _ _ _ closes _ _ valueIH _ =>
      exact .inr (refused_of_options opens isName notAssembly isColon closes valueIH _)

theorem refused_of_statements {statements : List SimpleStatement}
    (optioned : ∃ statement ∈ statements, ¬ Terms statement.words) (limit : Nat)
    (rest : List Token) :
    MissesSemicolon (blockFrom limit 0 none (statements.flatMap (·.tokens) ++ rest)) ∨
      LacksRoom (blockFrom limit 0 none (statements.flatMap (·.tokens) ++ rest)) := by
  induction statements with
  | nil =>
      obtain ⟨_, member, -⟩ := optioned
      cases member
  | cons statement statements ih =>
      rw [List.flatMap_cons, List.append_assoc]
      rcases terms_or_refused statement.worded with reads | refused
      · rw [blockFrom_derived (statement.derived reads) 0 (.inr rfl) (Nat.zero_le limit)]
        obtain ⟨other, member, notTerms⟩ := optioned
        rcases List.mem_cons.1 member with rfl | member
        · exact absurd reads notTerms
        · exact ih ⟨other, member, notTerms⟩
      · rw [SimpleStatement.tokens, List.append_assoc]
        exact refused limit 0 none _ fun _ => statement.notAssembly

/-- A body of simple statements is read to its last token exactly when no statement has call
options outside of its groups.  Else a semicolon is missed at a closing brace, as long as the stack
has room for the braces of the body. -/
theorem simple_body_read_iff (limit : Nat) (body : SimpleBody) (rest : List Token) :
    (block limit (body.tokens ++ rest) = .ok () rest ↔
      ∀ statement ∈ body.statements, Terms statement.words) ∧
    ((∃ statement ∈ body.statements, ¬ Terms statement.words) →
      MissesSemicolon (block limit (body.tokens ++ rest)) ∨
        limit < braces (body.tokens ++ rest) ∧ LacksRoom (block limit (body.tokens ++ rest))) := by
  have refused (optioned : ∃ statement ∈ body.statements, ¬ Terms statement.words) :
      MissesSemicolon (block limit (body.tokens ++ rest)) ∨
        LacksRoom (block limit (body.tokens ++ rest)) := by
    rw [SimpleBody.tokens, List.cons_append, block_of_opening body.opens, List.append_assoc]
    exact refused_of_statements optioned limit _
  refine ⟨⟨fun run statement member => ?_, fun reads => ?_⟩, fun optioned => ?_⟩
  · by_contra notTerms
    rcases refused ⟨statement, member, notTerms⟩ with ⟨_, _, _, _, failed⟩ | ⟨_, _, failed⟩
    · cases run.symm.trans failed
    · cases run.symm.trans failed
  · exact block_of_derived (.block body.opens (derives_statements reads) body.closes)
      (Nat.zero_le limit) rest
  · refine (refused optioned).imp_right fun lacksRoom => ⟨?_, lacksRoom⟩
    obtain ⟨front, deepens, within⟩ := block_tooDeep_iff.1 lacksRoom
    exact deepens.lt_braces.trans_le within.sublist.countP_le

end Reader

/-! ## A call that is paid for -/

/-- A contract whose only function makes a call with a value. -/
def paidSource : String :=
  "contract C \x7b function f() public \x7b a.call\x7bvalue: 1\x7d(\"\"); \x7d \x7d"

/-- The statement in it. -/
def paidStatement : SimpleStatement where
  words :=
    [⟨.identifier, "a", ⟨1, 36⟩⟩, ⟨.dot, ".", ⟨1, 37⟩⟩, ⟨.identifier, "call", ⟨1, 38⟩⟩,
     ⟨.opening .brace, "\x7b", ⟨1, 42⟩⟩, ⟨.identifier, "value", ⟨1, 43⟩⟩,
     ⟨.operator, ":", ⟨1, 48⟩⟩, ⟨.number, "1", ⟨1, 50⟩⟩, ⟨.closing .brace, "\x7d", ⟨1, 51⟩⟩,
     ⟨.opening .paren, "(", ⟨1, 52⟩⟩, ⟨.string, "", ⟨1, 53⟩⟩, ⟨.closing .paren, ")", ⟨1, 55⟩⟩]
  semicolon := ⟨.semicolon, ";", ⟨1, 56⟩⟩
  worded :=
    have value : Wording (some ⟨.operator, ":", ⟨1, 48⟩⟩) [⟨.number, "1", ⟨1, 50⟩⟩] :=
      .token rfl nofun .nil
    have arguments : Group.Encloses .paren
        ⟨⟨.opening .paren, "(", ⟨1, 52⟩⟩, [⟨.string, "", ⟨1, 53⟩⟩],
          ⟨.closing .paren, ")", ⟨1, 55⟩⟩⟩ :=
      ⟨rfl, .plain rfl .nil, rfl⟩
    have called : Token.EndsExpression ⟨.identifier, "call", ⟨1, 38⟩⟩ := List.mem_cons_self ..
    .token rfl nofun (.token rfl nofun (.token rfl nofun
      (.options called rfl rfl (by decide) rfl rfl value nofun rfl arguments .nil)))
  nonempty := nofun
  notAssembly := by
    rintro ⟨_, ⟨⟩, isWord⟩
    cases isWord
  complete := by
    rintro ⟨_, ⟨⟩, dangling⟩
    cases dangling
  ends := rfl

def paidBody : SimpleBody where
  opener := ⟨.opening .brace, "\x7b", ⟨1, 34⟩⟩
  statements := [paidStatement]
  closer := ⟨.closing .brace, "\x7d", ⟨1, 58⟩⟩
  opens := rfl
  closes := rfl

theorem refused_paidStatement : Reader.Refused paidStatement.words := by
  have front : Terms [⟨.identifier, "a", ⟨1, 36⟩⟩, ⟨.dot, ".", ⟨1, 37⟩⟩,
      ⟨.identifier, "call", ⟨1, 38⟩⟩] :=
    .token rfl nofun (.token rfl nofun (.token rfl nofun .nil))
  have value : Terms [⟨.number, "1", ⟨1, 50⟩⟩] := .token rfl nofun .nil
  exact .behind front nofun
    (Reader.refused_of_options rfl rfl (by decide) rfl rfl (.inl value) _)

open StackRoom in
/-- The body of that function is no block for the reader, and the contract is read with errors. -/
theorem paidSource_refused :
    ∃ before rest, Token.tokenize paidSource = .ok (before ++ (paidBody.tokens ++ rest)) ∧
      Reader.block StackRoom.member (paidBody.tokens ++ rest) ≠ .ok () rest ∧
      (Reading.ofSource "C.sol" paidSource).success = false := by
  refine ⟨(Token.withoutComments (Token.scan paidSource).tokens).take 8,
    (Token.withoutComments (Token.scan paidSource).tokens).drop 22,
    Token.tokenize_eq_ok_iff.2 ?_, fun run => ?_, ?_⟩
  · decide +kernel
  · generalize List.drop 22 (Token.withoutComments (Token.scan paidSource).tokens) = rest at run
    have opened : Reader.block StackRoom.member (paidBody.tokens ++ rest) =
        Reader.blockFrom StackRoom.member 0 none (paidStatement.words ++
          (paidStatement.semicolon :: paidBody.closer :: rest)) :=
      Reader.block_of_opening paidBody.opens
    rw [opened] at run
    rcases refused_paidStatement StackRoom.member 0 none _ fun _ => paidStatement.notAssembly with
      ⟨_, _, _, _, failed⟩ | ⟨_, _, failed⟩
    all_goals cases run.symm.trans failed
  · decide +kernel

end Interlock
