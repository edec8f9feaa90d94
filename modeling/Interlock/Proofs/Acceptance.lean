import Interlock.Proofs.Nesting
import Interlock.Proofs.Order

/-!
# What an accepted source leaves loose

The readers of groups and blocks refuse brackets that do not match, but a statement
steps over closing brackets, and so does the head of inline assembly.  A source that
is read without errors therefore nests up to the brackets that were stepped over, and
it is balanced exactly when these are balanced in every scope.
-/

namespace Interlock

/-- Declarations that nest up to loose brackets. -/
def Nests (tokens : List Token) : Prop :=
  ∃ loose inner, Nest .declarations loose inner tokens

namespace Nests

theorem nil : Nests [] := ⟨[], [], .nil⟩

theorem append {first second : List Token} (left : Nests first) (right : Nests second) :
    Nests (first ++ second) := by
  obtain ⟨loose, inner, left⟩ := left
  obtain ⟨more, further, right⟩ := right
  exact ⟨_, _, left.append right⟩

theorem plain {token : Token} (plain : token.kind.isPlain) : Nests [token] :=
  ⟨[], [], .plain plain .nil⟩

theorem group {shape : Bracket} {group : Group} (encloses : group.Encloses shape) :
    Nests group.tokens := by
  refine ⟨[], [], ?_⟩
  rw [← List.append_nil group.tokens]
  exact .group encloses .nil

theorem scope {inside : Scope} {opener closer : Token} {own body : List Token}
    {nested : List (List Token)} (opens : opener.kind = .opening .brace)
    (within : Nest inside own nested body) (closes : closer.kind = .closing .brace) :
    Nests (opener :: (body ++ [closer])) :=
  ⟨_, _, .scope opens within closes .nil⟩

end Nests

/-! ## Runs that take nested tokens -/

/-- A computation that takes tokens which nest, whenever it answers. -/
def TakesNested {ε σ α : Type} (rest : σ → List Token) (run : EStateM ε σ α) : Prop :=
  ∀ ⦃before after : σ⦄ ⦃value : α⦄, run before = .ok value after →
    ∃ taken, rest before = taken ++ rest after ∧ Nests taken

namespace TakesNested

variable {ε σ α β : Type} {rest : σ → List Token}

theorem pure (value : α) : TakesNested rest (pure value : EStateM ε σ α) := by
  intro before after found run
  obtain ⟨-, rfl⟩ := pure_eq_ok_iff.1 run
  exact ⟨[], rfl, .nil⟩

theorem bind {first : EStateM ε σ α} {next : α → EStateM ε σ β} (left : TakesNested rest first)
    (right : ∀ value, TakesNested rest (next value)) : TakesNested rest (first >>= next) := by
  intro before after value run
  obtain ⟨found, between, firstRun, nextRun⟩ := bind_eq_ok_iff.1 run
  obtain ⟨taken, split, nests⟩ := left firstRun
  obtain ⟨more, further, moreNests⟩ := right found nextRun
  exact ⟨taken ++ more, by rw [split, further, List.append_assoc], nests.append moreNests⟩

theorem repeatSteps {size : σ → Nat} {step : β → EStateM ε σ (ForInStep β)}
    (steps : ∀ value, TakesNested rest (step value)) (value : β) :
    TakesNested rest (repeatSteps size step value) := by
  intro before after result run
  have chain := steps_of_repeatSteps run
  clear run
  induction chain with
  | done run => exact steps _ run
  | next run _ _ ih =>
      obtain ⟨taken, split, nests⟩ := steps _ run
      obtain ⟨more, further, moreNests⟩ := ih
      exact ⟨taken ++ more, by rw [split, further, List.append_assoc], nests.append moreNests⟩
  | stall run _ => exact steps _ run

end TakesNested

namespace Reader

variable {α : Type}

theorem nested_failAt (problem : Problem) (token : Option Token) :
    TakesNested id (failAt problem token : Reader α) := by
  intro before after value run
  cases run

theorem nested_current {next : Option Token → Reader α}
    (branches : ∀ front, TakesNested id (next front)) : TakesNested id (current >>= next) := by
  intro before after value run
  exact branches before.head? run

theorem nested_at? (kind : Token.Kind) : TakesNested id (at? kind) :=
  nested_current fun _ => .pure _

theorem nested_expectElse {kind : Token.Kind} (plain : kind.isPlain) (problem : Problem) :
    TakesNested id (expectElse kind problem) := by
  intro before after token run
  obtain ⟨rfl, -, same⟩ := expectElse_eq_ok_iff.1 run
  exact ⟨[token], rfl, .plain (same ▸ plain)⟩

theorem nested_group : TakesNested id group := by
  intro before after result run
  obtain ⟨shape, encloses, split⟩ := group_encloses run
  exact ⟨result.tokens, split, .group encloses⟩

/-! ## Statements and blocks -/

theorem nests_phrase {phrase : List Token} (reads : Phrase phrase) : Nests phrase := by
  induction reads with
  | nil => exact .nil
  | @token token rest notOpening notBrace notSemicolon notEnd _ ih =>
      cases kind : token.kind with
      | opening shape => exact absurd kind (notOpening shape)
      | endOfFile => exact absurd kind notEnd
      | closing shape =>
          obtain ⟨loose, inner, nest⟩ := ih
          refine ⟨_, _, .stray kind ?_ nest⟩
          rintro rfl
          exact notBrace kind
      | _ => exact (Nests.plain (by rw [kind]; rfl)).append ih
  | group encloses _ ih => exact (Nests.group encloses).append ih

theorem nested_statement : TakesNested id statement := by
  intro before after phrase run
  obtain ⟨reads, semicolon, ends, split⟩ := statement_eq_ok_iff.1 run
  refine ⟨phrase ++ [semicolon], by simpa using split, ?_⟩
  exact (nests_phrase reads).append (.plain (by rw [ends]; rfl))

/-- The head of inline assembly is read up to the first brace. -/
theorem assembly_split {tokens left : List Token} (run : assembly tokens = .ok () left) :
    ∃ flags head body, AssemblyHead flags head ∧ Group.Encloses .brace body ∧
      tokens = head ++ (body.tokens ++ left) := by
  fun_induction assembly tokens with
  | case1 => cases run
  | case2 => cases run
  | case3 token rest opens result taken read =>
      cases run
      obtain ⟨encloses, split⟩ := group_encloses_of_opening opens read
      exact ⟨[], [], result, .nil, encloses, split⟩
  | case4 => cases run
  | case5 token rest opens result between read ih =>
      obtain ⟨encloses, split⟩ := group_encloses_of_opening opens read
      obtain ⟨flags, head, body, reads, closed, rfl⟩ := ih run
      refine ⟨flags, result.tokens ++ head, body, .group encloses reads, closed, ?_⟩
      simpa using split
  | case6 => cases run
  | case7 token rest notEnd notBrace notParen ih =>
      obtain ⟨flags, head, body, reads, closed, rfl⟩ := ih run
      have loosely (isLoose : token.Loose) : AssemblyHead (token :: flags) (token :: head) :=
        .loose isLoose reads
      cases kind : token.kind with
      | endOfFile => exact absurd kind notEnd
      | closing shape =>
          exact ⟨_, token :: head, body, loosely (.inr ⟨shape, kind⟩), closed, rfl⟩
      | opening shape =>
          cases shape with
          | brace => exact absurd kind notBrace
          | paren => exact absurd kind notParen
          | square => exact ⟨_, token :: head, body, loosely (.inl kind), closed, rfl⟩
      | _ => exact ⟨_, token :: head, body, .plain (by rw [kind]; rfl) reads, closed, rfl⟩

/-- What ends a block with some blocks open inside it: statements and a closing brace for each
of them. -/
inductive Closes : Nat → List Token → Prop where
  | last {loose body : List Token} {inner : List (List Token)} {closer : Token} :
      Nest .statements loose inner body → closer.kind = .closing .brace →
      Closes 0 (body ++ [closer])
  | next {depth : Nat} {loose body rest : List Token} {inner : List (List Token)}
      {closer : Token} :
      Nest .statements loose inner body → closer.kind = .closing .brace → Closes depth rest →
      Closes (depth + 1) (body ++ closer :: rest)

theorem Closes.prepend {depth : Nat} {loose first tokens : List Token}
    {inner : List (List Token)} (closes : Closes depth tokens)
    (nest : Nest .statements loose inner first) : Closes depth (first ++ tokens) := by
  cases closes with
  | last within isBrace =>
      rw [← List.append_assoc]
      exact .last (nest.append within) isBrace
  | next within isBrace further =>
      rw [← List.append_assoc]
      exact .next (nest.append within) isBrace further

/-- An opening brace is answered by the first closing one. -/
theorem Closes.enter {depth : Nat} {opener : Token} {tokens : List Token}
    (opens : opener.kind = .opening .brace) (closes : Closes (depth + 1) tokens) :
    Closes depth (opener :: tokens) := by
  cases closes with
  | @next _ _ body rest _ closer within isBrace further =>
      have scope : Nest .statements [] _ (opener :: (body ++ [closer])) :=
        .scope opens within isBrace .nil
      simpa using further.prepend scope

theorem closes_blockFrom {limit depth : Nat} {pending : Option Token}
    {tokens left : List Token} (run : blockFrom limit depth pending tokens = .ok () left) :
    ∃ taken, tokens = taken ++ left ∧ Closes depth taken := by
  fun_induction blockFrom limit depth pending tokens with
  | case1 => cases run
  | case2 => cases run
  | case3 => cases run
  | case4 token rest closes =>
      cases run
      exact ⟨[token], rfl, .last .nil closes⟩
  | case5 token rest closes depth ih =>
      obtain ⟨taken, rfl, further⟩ := ih run
      exact ⟨token :: taken, rfl, .next .nil closes further⟩
  | case6 => cases run
  | case7 depth pending token rest opens room ih =>
      obtain ⟨taken, rfl, further⟩ := ih run
      exact ⟨token :: taken, rfl, further.enter opens⟩
  | case8 => cases run
  | case9 depth pending token rest shape notBrace opens result between read ih =>
      obtain ⟨encloses, split⟩ := group_encloses_of_opening opens read
      obtain ⟨taken, rfl, further⟩ := ih run
      refine ⟨result.tokens ++ taken, by simpa using split, ?_⟩
      have nest : Nest .statements [] [] (result.tokens ++ []) := .group encloses .nil
      rw [List.append_nil] at nest
      exact further.prepend nest
  | case10 => cases run
  | case11 => cases run
  | case12 depth pending token rest ends settled ih =>
      obtain ⟨taken, rfl, further⟩ := ih run
      have nest : Nest .statements [] [] [token] := .plain (by rw [ends]; rfl) .nil
      exact ⟨token :: taken, rfl, further.prepend nest⟩
  | case13 depth pending token rest isAssembly _ between read _ _ _ _ _ _ ih =>
      rw [Bool.and_eq_true] at isAssembly
      obtain ⟨flags, head, body, reads, closed, rfl⟩ := assembly_split read
      obtain ⟨taken, rfl, further⟩ := ih run
      have nest := Nest.assembly isAssembly.2 reads closed .nil
      simp only [List.append_nil] at nest
      exact ⟨token :: (head ++ body.tokens) ++ taken, by simp, further.prepend nest⟩
  | case14 => cases run
  | case15 depth pending token rest notAssembly notEnd _ notClosing _ notOpening notSemicolon
      ih =>
      obtain ⟨taken, rfl, further⟩ := ih run
      have plain : token.kind.isPlain := Token.Kind.isPlain_of_ne notEnd notOpening notClosing
      have nest : Nest .statements [] [] [token] := .plain plain .nil
      exact ⟨token :: taken, rfl, further.prepend nest⟩

theorem nested_block (limit : Nat) : TakesNested id (block limit) := by
  intro before after value run
  obtain ⟨opener, between, opened, inside⟩ := bind_eq_ok_iff.1 run
  obtain ⟨rfl, -, opens⟩ := expectElse_eq_ok_iff.1 opened
  obtain ⟨taken, rfl, closes⟩ := closes_blockFrom inside
  cases closes with
  | @last _ body _ closer within isBrace =>
      exact ⟨opener :: (body ++ [closer]), rfl, .scope opens within isBrace⟩

/-! ## Declarations -/

theorem nested_advance {token : Token} (plain : token.kind.isPlain)
    {taking : Option Token → Reader α} (behind : ∀ found, TakesNested id (taking found))
    {rest after : List Token} {value : α}
    (run : (advance >>= taking) (token :: rest) = .ok value after) :
    ∃ taken, token :: rest = taken ++ after ∧ Nests taken := by
  rw [advance_bind] at run
  obtain ⟨taken, split, nests⟩ := behind _ run
  exact ⟨token :: taken, congrArg (token :: ·) split, (Nests.plain plain).append nests⟩

theorem nested_parenthesized? : TakesNested id parenthesized? := by
  apply (nested_at? _).bind
  intro found
  split
  · exact nested_group.bind fun _ => .pure _
  · exact .pure _

theorem nested_modifierStep (limit : Nat) (name : String) (isVirtual : Bool) :
    TakesNested id (modifierStep limit name isVirtual) := by
  intro tokens left answer run
  cases tokens with
  | nil => cases run
  | cons token rest =>
      rw [modifierStep] at run
      obtain ⟨branch, same, run⟩ := branch_of_current_bind run
      simp only [List.head?_cons] at same
      split at same
      next =>
        subst same
        cases run
      next =>
        subst same
        exact ((nested_block limit).bind fun _ => .pure _) run
      next ends =>
        subst same
        exact nested_advance (by rw [ends]; rfl) (fun _ => .pure _) run
      next =>
        split at same
        next isWord =>
          subst same
          exact nested_advance (Token.isPlain_of_isWord isWord) (fun _ => .pure _) run
        next =>
          split at same <;> subst same
          next isWord =>
            exact nested_advance (Token.isPlain_of_isWord isWord)
              (fun _ => nested_parenthesized?.bind fun _ => .pure _) run
          next => cases run

/-- What is put together from parts takes tokens that nest. -/
theorem Built.nested {reader : Reader α} (built : Built reader) : TakesNested id reader := by
  induction built with
  | pure value => exact .pure value
  | bind _ _ first second => exact first.bind second
  | fail _ => exact nested_current fun front => nested_failAt _ front
  | at? kind => exact nested_at? kind
  | @ask _ asked next _ plain taken _ _ behind other =>
      intro tokens left value run
      have asking : next (tokens.head?.any asked) tokens = .ok value left := run
      cases answer : tokens.head?.any asked with
      | false =>
          rw [answer] at asking
          exact other asking
      | true =>
          cases tokens with
          | nil => cases answer
          | cons token rest =>
              rw [answer, taken] at asking
              exact nested_advance (plain token answer) behind asking
  | expectElse plain _ => exact nested_expectElse plain _
  | group => exact nested_group
  | statement => exact nested_statement
  | loop value _ steps => exact .repeatSteps steps value

theorem nested_modifier (limit : Nat) (start : Token) : TakesNested id (modifier limit start) := by
  rw [modifier]
  apply (nested_expectElse rfl _).bind
  intro name
  apply nested_parenthesized?.bind
  intro parameters
  exact (TakesNested.repeatSteps (nested_modifierStep limit _) _).bind fun _ => .pure _

theorem nested_importPath (start : Token) : TakesNested id (importPath start) := by
  apply nested_statement.bind
  intro phrase
  split
  · exact .pure _
  · exact nested_failAt _ _

theorem nested_usingFor (start : Token) : TakesNested id (usingFor start) := by
  apply nested_statement.bind
  intro phrase
  dsimp only
  split
  · exact nested_failAt _ _
  · exact .pure _

end Reader

/-! ## Functions -/

namespace Parser

variable {α : Type}

theorem nested_ofReader {reader : Reader α} (nested : TakesNested id reader) :
    TakesNested State.rest (ofReader reader) := by
  intro before after value run
  exact nested (ofReader_eq_ok_iff.1 run).1

theorem nested_headerItem {header result : Header} {token : Token} {rest : List Token}
    {findings : Array Finding} {errors : Nat} {after : State} (plain : token.kind.isPlain)
    (run : headerItem .tolerant header token ⟨token :: rest, findings, errors⟩ =
      .ok result after) :
    ∃ taken, token :: rest = taken ++ after.rest ∧ Nests taken := by
  rcases headerItem_built header token with ⟨previous, again⟩ | ⟨item, built, same⟩
  · rw [again, advance_bind, bind_of_ok (remark_tolerant _ _)] at run
    obtain ⟨-, rfl⟩ := pure_eq_ok_iff.1 run
    exact ⟨[token], rfl, .plain plain⟩
  · rw [same, advance_bind] at run
    obtain ⟨taken, split, nests⟩ := nested_ofReader built.nested run
    exact ⟨token :: taken, congrArg (token :: ·) split, (Nests.plain plain).append nests⟩

theorem nested_headerStep (limit : Nat) (label : String) (header : Header) :
    TakesNested State.rest (headerStep limit .tolerant label header) := by
  rintro ⟨tokens, findings, errors⟩ after answer run
  cases tokens with
  | nil => cases run
  | cons token rest =>
      rw [headerStep] at run
      obtain ⟨branch, same, run⟩ := branch_of_current_bind run
      simp only [List.head?_cons] at same
      split at same <;> subst same
      next => cases run
      next => exact ((nested_ofReader (Reader.nested_block limit)).bind fun _ => .pure _) run
      next ends =>
        cases run
        exact ⟨[token], rfl, .plain (by rw [ends]; rfl)⟩
      next isWord =>
        obtain ⟨found, between, itemRun, answered⟩ := bind_eq_ok_iff.1 run
        obtain ⟨-, rfl⟩ := pure_eq_ok_iff.1 answered
        exact nested_headerItem (by rw [isWord]; rfl) itemRun
      next => cases run

theorem nested_function (limit : Nat) (kind : Tree.FunctionKind) (start : Token) :
    TakesNested State.rest (function limit .tolerant kind start) := by
  rw [function]
  apply (nested_ofReader (built_functionName kind).nested).bind
  intro name
  apply (nested_ofReader (Reader.built_shaped _ (by simp)).nested).bind
  intro parameters
  exact (TakesNested.repeatSteps (nested_headerStep limit _) _).bind fun _ => .pure _

theorem Announced.nested {limit : Nat} {token : Token} {parser : Parser α}
    (announced : Announced limit token parser) :
    TakesNested State.rest parser := by
  cases announced with
  | function kind give => exact (nested_function limit kind token).bind fun _ => .pure _
  | modifier give =>
      exact (nested_ofReader (Reader.nested_modifier limit token)).bind fun _ => .pure _
  | reader give built => exact (nested_ofReader built.nested).bind fun _ => .pure _
  | importPath give =>
      exact (nested_ofReader (Reader.nested_importPath token)).bind fun _ => .pure _
  | usingFor give =>
      exact (nested_ofReader (Reader.nested_usingFor token)).bind fun _ => .pure _

/-! ## Pieces -/

section Pieces

variable {keyword : Mode → Token → Parser (Option α)}
variable {dispatch : Token → Option Token → Option (Mode → Parser α)}
variable {settle : Mode → Token → List Token → Parser (Option α)} {refuse : String → Problem}

/-- Settling a statement takes nothing. -/
theorem Settled.rest_eq {token : Token} {phrase : List Token}
    {settle : Mode → Parser (Option α)} (settled : Settled token phrase settle)
    {answer : Option α} {before after : State} (run : settle .tolerant before = .ok answer after) :
    after.rest = before.rest := by
  cases settled with
  | refused fault refuses =>
      rw [refuses] at run
      cases run
  | given value gives =>
      rw [gives] at run
      obtain ⟨-, rfl⟩ := pure_eq_ok_iff.1 run
      rfl
  | odd oddly =>
      rw [oddly, bind_of_ok (remark_tolerant _ _)] at run
      obtain ⟨-, rfl⟩ := pure_eq_ok_iff.1 run
      rfl

/-- A piece nests when what its word announces does. -/
theorem nests_of_piece (dispatches : Dispatches keyword dispatch)
    (settled : ∀ token phrase, Settled token phrase fun mode => settle mode token phrase)
    {answer : Option α} {remarks : List Remark} {taken kept : List Token}
    (announced : ∀ {token rest parser value after}, taken = token :: rest →
      dispatch token rest.head? = some parser →
      Quiet (parser .tolerant) value ⟨rest, #[], 0⟩ after →
      ∃ own, rest = own ++ after.rest ∧ Nests own)
    (reads : Piece (piece keyword settle refuse) answer remarks taken kept) : Nests taken := by
  have limit : 0 < errorLimit := by decide
  have run := reads.tolerant [] #[] 0 limit
  rw [List.append_nil] at run
  obtain ⟨token, rest, front, ⟨isSemicolon, -, ending⟩ | ⟨isWord, more⟩⟩ :=
    piece_cases dispatches run
  · rw [show taken = token :: rest from front, ← ending]
    exact .plain (by rw [isSemicolon]; rfl)
  · rcases more with ⟨parser, value, found, -, parsed⟩ | ⟨phrase, left, -, stated, settledRun⟩
    · obtain ⟨own, split, nests⟩ := announced front found ⟨parsed, limit, rfl⟩
      rw [show taken = token :: rest from front, split, State.note_rest, List.append_nil]
      exact (Nests.plain (by rw [isWord]; rfl)).append nests
    · have ending : [] = left := (settled token phrase).rest_eq settledRun
      obtain ⟨own, split, nests⟩ := Reader.nested_statement stated
      rw [show taken = own ++ left from split, ← ending, List.append_nil]
      exact nests

theorem nests_of_pieces {parser : Mode → Parser (Option α)}
    {values : List α} {remarks : List Remark} {taken kept : List Token}
    (pieces : Pieces parser values remarks taken kept)
    (each : ∀ {answer remarks own kept}, (∀ token ∈ own, token ∈ taken) →
      Piece parser answer remarks own kept → Nests own) : Nests taken := by
  induction pieces with
  | nil => exact .nil
  | cons piece _ ih =>
      apply Nests.append
      · exact each (fun token member => List.mem_append_left _ member) piece
      · apply ih
        intro answer remarks own kept inside
        exact each fun token member => List.mem_append_right _ (inside token member)

end Pieces

/-! ## Contracts and sources -/

variable [StackRoom]

theorem nests_contractPart {answer : Option Tree.Member} {remarks : List Remark}
    {taken kept : List Token} (reads : Piece contractPart answer remarks taken kept) :
    Nests taken := by
  rw [contractPart_eq_piece] at reads
  apply nests_of_piece dispatches_member _ _ reads
  · intro token phrase
    exact settled_stateVariable token phrase Tree.Member.stateVariable
  · intro token rest parser value after _ found quiet
    exact (announced_member found).nested quiet.run

/-- A contract that is read without errors nests, its body being a scope. -/
theorem nests_contract {kind : Tree.ContractKind} {isAbstract : Bool} {start : Token}
    {value : Tree.Contract} {before after : State}
    (quiet : Quiet (contract .tolerant kind isAbstract start) value before after) :
    ∃ taken, before.rest = taken ++ after.rest ∧ Nests taken := by
  obtain ⟨run, limit, errors⟩ := quiet
  rw [contract_eq] at run
  obtain ⟨front, named, frontRun, run⟩ := bind_eq_ok_iff.1 run
  obtain ⟨opener, inside, openRun, run⟩ := bind_eq_ok_iff.1 run
  obtain ⟨members, ended, loopRun, answered⟩ := bind_eq_ok_iff.1 run
  obtain ⟨-, rfl⟩ := pure_eq_ok_iff.1 answered
  obtain ⟨frontRead, -, frontErrors⟩ := ofReader_eq_ok_iff.1 frontRun
  obtain ⟨openRead, -, openErrors⟩ := ofReader_eq_ok_iff.1 openRun
  have same : inside.errors = before.errors := openErrors.trans frontErrors
  have body : Quiet (loop #[] (bodyStep .tolerant kind front.1.text)) members inside ended :=
    ⟨loopRun, same ▸ limit, errors.trans same.symm⟩
  obtain ⟨own, split, nests⟩ := (built_contractFront kind).nested frontRead
  obtain ⟨between, -, opens⟩ := Reader.expectElse_eq_ok_iff.1 openRead
  obtain ⟨_, _, parts, _, closer, closes, bodySplit, pieces, -⟩ := parts_of_body body
  obtain ⟨loose, inner, nest⟩ := nests_of_pieces pieces fun _ reads => nests_contractPart reads
  refine ⟨own ++ opener :: (parts ++ [closer]), ?_, nests.append (.scope opens nest closes)⟩
  rw [show before.rest = own ++ named.rest from split, between, bodySplit]
  simp

theorem nests_sourceElement {answer : Option Tree.Element} {remarks : List Remark}
    {taken kept : List Token} (worded : ∀ token ∈ taken, token.text = "contract" →
      token.kind.isPlain) (reads : Piece sourceElement answer remarks taken kept) :
    Nests taken := by
  rw [sourceElement_eq_piece] at reads
  apply nests_of_piece dispatches_element settled_element _ reads
  intro token rest parser value after front found quiet
  obtain ⟨run, limit, errors⟩ := quiet
  rcases announced_element found with announced | ⟨kind, same⟩ | ⟨isContract, same⟩
  · exact announced.nested run
  · rw [same] at run
    obtain ⟨contract, between, contractRun, answered⟩ := bind_eq_ok_iff.1 run
    obtain ⟨-, rfl⟩ := pure_eq_ok_iff.1 answered
    exact nests_contract ⟨contractRun, limit, errors⟩
  · rw [same] at run
    cases rest with
    | nil => cases isContract
    | cons second rest =>
        have plain : second.kind.isPlain :=
          worded second (by simp [front]) (of_decide_eq_true isContract)
        rw [advance_bind] at run
        obtain ⟨contract, between, contractRun, answered⟩ := bind_eq_ok_iff.1 run
        obtain ⟨-, rfl⟩ := pure_eq_ok_iff.1 answered
        obtain ⟨own, split, nests⟩ := nests_contract ⟨contractRun, limit, errors⟩
        exact ⟨second :: own, congrArg (second :: ·) split, (Nests.plain plain).append nests⟩

end Parser

/-! ## Sources -/

/-- Brackets are single characters. -/
theorem Lexeme.Spelled.isPlain {kind : Token.Kind} {value lexeme rest : List Char}
    (spelled : Lexeme.Spelled kind value lexeme rest) (long : 1 < value.length) :
    kind.isPlain := by
  cases spelled with
  | punctuation => exact absurd long (by simp)
  | _ => rfl

theorem Token.Laid.isPlain {before text : List Char} {tokens : List Token}
    (laid : Token.Laid before text tokens) :
    ∀ token ∈ tokens, 1 < token.text.toList.length → token.kind.isPlain := by
  induction laid with
  | ending =>
      intro token member long
      rw [List.mem_singleton.1 member] at long
      exact absurd (show 1 < "".toList.length from long) (by decide)
  | token _ _ spelled _ ih =>
      intro other member long
      rcases List.mem_cons.1 member with rfl | member
      · exact spelled.isPlain long
      · exact ih other member long

section Source

variable [StackRoom] {filename source : String} {tokens : List Token}

omit [StackRoom] in
/-- A reading that goes to the end of a text leaves the end mark. -/
theorem left_of_atEnd (lexed : Token.tokenize source = .ok tokens) {left : List Token}
    {findings : List Finding} (walk : Walk tokens left findings) (ended : Parser.AtEnd left) :
    ∃ body mark, tokens = body ++ [mark] ∧ mark.kind = .endOfFile ∧ left = [mark] := by
  obtain ⟨body, mark, rfl, isEnd, -, inner⟩ := Token.exists_endMark lexed
  refine ⟨body, mark, rfl, isEnd, ?_⟩
  have dropped : (body ++ [mark]).dropWhile (·.kind ≠ .endOfFile) = [mark] := by
    rw [List.dropWhile_append_of_pos (by simpa using inner)]
    simp [isEnd]
  have suffix := suffix_dropWhile walk.suffix ended
  rw [dropped] at suffix
  obtain ⟨bar, inside, -⟩ := walk.barred (barred_of_tokenize lexed)
  obtain ⟨taken, split⟩ := suffix
  rcases List.append_eq_singleton_iff.1 split with ⟨-, same⟩ | ⟨-, same⟩
  · exact same
  · rw [same] at inside
    cases inside

/-- A source that is read without errors is elements up to its end mark. -/
theorem elements_of_success (lexed : Token.tokenize source = .ok tokens)
    (success : (Reading.ofTokens filename tokens).1.success = true) :
    ∃ found remarks body kept mark, tokens = body ++ [mark] ∧ mark.kind = .endOfFile ∧
      Parser.Pieces Parser.sourceElement found remarks body kept := by
  obtain ⟨found, remarks, taken, kept, rest, split, ended, pieces⟩ :=
    Parser.success_iff_elements.1 success
  obtain ⟨findings, -, walk, -⟩ := diagnostics_split filename tokens
  rw [Parser.reading_of_elements split ended pieces] at walk
  rw [Token.withoutComments_of_tokenize lexed] at walk split
  obtain ⟨_, mark, _, isEnd, rfl⟩ := left_of_atEnd lexed walk ended
  exact ⟨found, remarks, taken, kept, mark, split, isEnd, pieces⟩

/-- A source that is read without errors nests up to its end mark. -/
theorem nests_of_success (lexed : Token.tokenize source = .ok tokens)
    (success : (Reading.ofTokens filename tokens).1.success = true) :
    ∃ body mark, tokens = body ++ [mark] ∧ mark.kind = .endOfFile ∧ Nests body := by
  obtain ⟨_, _, body, _, mark, split, isEnd, pieces⟩ := elements_of_success lexed success
  refine ⟨body, mark, split, isEnd, ?_⟩
  apply Parser.nests_of_pieces pieces
  intro answer remarks own kept inside reads
  apply Parser.nests_sourceElement _ reads
  intro token member isContract
  obtain ⟨all, laid, kept⟩ := Token.laid_of_tokenize lexed
  have among : token ∈ tokens := by
    rw [split]
    exact List.mem_append_left _ (inside token member)
  rw [kept] at among
  exact laid.isPlain token (List.mem_filter.1 among).1 (by rw [isContract]; decide)

/-- A source that is read without errors is balanced exactly when the brackets that were stepped
over are, in every scope. -/
theorem accepted_balanced_iff (filename source : String) (tokens : List Token)
    (lexed : Token.tokenize source = .ok tokens)
    (accepted : (Reading.ofSource filename source).success = true) :
    ∃ body mark, tokens = body ++ [mark] ∧ mark.kind = .endOfFile ∧
      (∃ loose inner, Nest .declarations loose inner body) ∧
      ∀ loose inner, Nest .declarations loose inner body →
        (Balanced body ↔ Balanced loose ∧ ∀ own ∈ inner, Balanced own) := by
  have read : Reading.ofSource filename source = (Reading.ofTokens filename tokens).1 := by
    rw [Reading.ofSource, lexed]
  rw [read] at accepted
  obtain ⟨body, mark, shape, isEnd, nests⟩ := nests_of_success lexed accepted
  exact ⟨body, mark, shape, isEnd, nests, fun loose inner nest => nest.balanced_iff⟩

end Source

/-! ## Brackets that are stepped over -/

/-- A contract with a closing parenthesis too many. -/
def straySource : String := "contract C \x7b uint x = 1 ) ; \x7d"

/-- Its tokens in front of the end mark. -/
def strayBody : List Token :=
  [⟨.identifier, "contract", ⟨1, 1⟩⟩, ⟨.identifier, "C", ⟨1, 10⟩⟩,
   ⟨.opening .brace, "\x7b", ⟨1, 12⟩⟩, ⟨.identifier, "uint", ⟨1, 14⟩⟩,
   ⟨.identifier, "x", ⟨1, 19⟩⟩, ⟨.operator, "=", ⟨1, 21⟩⟩, ⟨.number, "1", ⟨1, 23⟩⟩,
   ⟨.closing .paren, ")", ⟨1, 25⟩⟩, ⟨.semicolon, ";", ⟨1, 27⟩⟩,
   ⟨.closing .brace, "\x7d", ⟨1, 29⟩⟩]

/-- In the scope of the contract the parenthesis is loose. -/
theorem strayBody_nest :
    Nest .declarations [] [[⟨.closing .paren, ")", ⟨1, 25⟩⟩]] strayBody := by
  have statement : Nest .declarations [⟨.closing .paren, ")", ⟨1, 25⟩⟩] []
      [⟨.identifier, "uint", ⟨1, 14⟩⟩, ⟨.identifier, "x", ⟨1, 19⟩⟩, ⟨.operator, "=", ⟨1, 21⟩⟩,
       ⟨.number, "1", ⟨1, 23⟩⟩, ⟨.closing .paren, ")", ⟨1, 25⟩⟩, ⟨.semicolon, ";", ⟨1, 27⟩⟩] :=
    .plain rfl (.plain rfl (.plain rfl (.plain rfl (.stray rfl nofun (.plain rfl .nil)))))
  exact .plain rfl (.plain rfl (.scope rfl statement rfl .nil))

open StackRoom in
/-- The contract is accepted, and what is loose in it decides that it is not balanced. -/
theorem straySource_balanced_iff :
    (Reading.ofSource "C.sol" straySource).success = true ∧
      (Balanced strayBody ↔
        Balanced [] ∧ ∀ own ∈ [[⟨.closing .paren, ")", ⟨1, 25⟩⟩]], Balanced own) := by
  have lexed : Token.tokenize straySource =
      .ok (strayBody ++ [⟨.endOfFile, "", ⟨1, 30⟩⟩]) :=
    Token.tokenize_eq_ok_iff.2 (by decide +kernel)
  have accepted : (Reading.ofSource "C.sol" straySource).success = true := by decide +kernel
  obtain ⟨body, mark, shape, -, -, decided⟩ :=
    accepted_balanced_iff "C.sol" straySource _ lexed accepted
  obtain ⟨rfl, -⟩ := List.append_inj' shape rfl
  exact ⟨accepted, decided [] _ strayBody_nest⟩

/-- The head of inline assembly with a closing brace too many. -/
def assemblySource : String :=
  "contract C \x7b function f() public \x7b assembly \x7d \x7b \x7d \x7d \x7d"

open StackRoom in
/-- It is accepted, although its braces are not balanced. -/
theorem assemblySource_accepted :
    ∃ body mark, Token.tokenize assemblySource = .ok (body ++ [mark]) ∧
      mark.kind = .endOfFile ∧ (Reading.ofSource "C.sol" assemblySource).success = true ∧
      ¬ Balanced body := by
  refine ⟨(Token.withoutComments (Token.scan assemblySource).tokens).dropLast,
    ⟨.endOfFile, "", ⟨1, 54⟩⟩, Token.tokenize_eq_ok_iff.2 ?_, rfl, ?_, ?_⟩
  · decide +kernel
  · decide +kernel
  · decide +kernel

end Interlock
