import Interlock.Proofs.Agreement
import Interlock.Proofs.Moving.Declaration

/-!
# Source units of moved tokens

Functions, contracts and whole source units are read alike from moved tokens,
strictly and tolerantly: the tree, the findings and what is left are moved with the
tokens, and nothing else changes.  Neither the error limit nor the search for the
next statement depends on where tokens stand.
-/

namespace Interlock

/-! ## Findings and states -/

section Data

variable (move : Position → Position)

/-- A remark on moved tokens. -/
def Remark.moved : Remark → Remark
  | .straySemicolon token => .straySemicolon (token.moved move)
  | .unrecognizedDirective start tokens =>
      .unrecognizedDirective (start.moved move) (tokens.map (·.moved move))
  | .duplicateSpecifier token previous => .duplicateSpecifier (token.moved move) previous

/-- A finding at another position. -/
def Finding.moved : Finding → Finding
  | .remark cause => .remark (cause.moved move)
  | .fault cause => .fault (cause.moved move)
  | .unclosedContract cause => .unclosedContract (cause.moved move)
  | .tooManyErrors limit => .tooManyErrors limit
  | .lexical error => .lexical { error with position := move error.position }

@[simp] theorem Finding.moved_severity (finding : Finding) :
    (finding.moved move).severity = finding.severity := by
  cases finding <;> rfl

@[simp] theorem Finding.moved_isTooDeep (finding : Finding) :
    (finding.moved move).isTooDeep = finding.isTooDeep := by
  cases finding with
  | fault fault => exact decide_eq_decide.2 (fault.problem.moved_eq_tooDeep move)
  | _ => rfl

@[simp] theorem Finding.moved_isError (finding : Finding) :
    (finding.moved move).isError = finding.isError := by
  rw [isError, isError, moved_severity]

@[simp] theorem Finding.moved_code (finding : Finding) :
    (finding.moved move).code = finding.code := by
  cases finding with
  | remark cause => cases cause <;> rfl
  | _ => rfl

theorem Remark.moved_fault (remark : Remark) :
    (remark.moved move).fault = remark.fault.moved move := by
  cases remark <;> rfl

namespace Parser

/-- Header items whose modifiers are moved. -/
def Header.moved (header : Header) : Header :=
  { header with modifiers := header.modifiers.map (·.moved move) }

@[simp] theorem Header.moved_visibility (header : Header) :
    (header.moved move).visibility = header.visibility := rfl

@[simp] theorem Header.moved_mutability (header : Header) :
    (header.moved move).mutability = header.mutability := rfl

/-- A state whose tokens and findings are moved. -/
def State.moved (state : State) : State :=
  ⟨state.rest.map (·.moved move), state.findings.map (·.moved move), state.errors⟩

end Parser

end Data

/-! ## Parsers -/

namespace Parser

variable {α β : Type} {move : Position → Position}

/-- A parser on moved tokens runs as another one does on the tokens. -/
abbrev Moves (move : Position → Position) (onValue : α → α) (first second : Parser α) : Prop :=
  Carries (State.moved move) (Fault.moved move) onValue first second

theorem Moves.ofReader {onValue : α → α} {first second : Reader α}
    (moves : Reader.Moves move onValue first second) :
    Moves move onValue (liftM first) (liftM second) := by
  intro state
  have read := moves state.rest
  simp only [liftM_eq_ofReader, Parser.ofReader, State.moved, read]
  cases first state.rest <;> rfl

theorem Moves.loop {onValue : β → β} {step other : β → Parser (ForInStep β)}
    (steps : ∀ value, Moves move (onStep onValue) (step value) (other (onValue value)))
    (value : β) : Moves move onValue (loop value step) (loop (onValue value) other) := by
  apply Carries.repeatSteps
  · intro state
    exact List.length_map _
  · exact steps

/-- A repetition that collects nodes begins with none. -/
theorem Moves.collect {node : Type} {onNode : node → node}
    {step : Array node → Parser (ForInStep (Array node))}
    (steps : ∀ nodes,
      Moves move (onStep (Array.map onNode)) (step nodes) (step (nodes.map onNode))) :
    Moves move (Array.map onNode) (Parser.loop #[] step) (Parser.loop #[] step) := by
  have runs := Moves.loop steps #[]
  rwa [Array.map_empty] at runs

theorem moves_throw {onValue : α → α} (fault : Fault) :
    Moves move onValue (throw fault) (throw (fault.moved move)) :=
  fun _ => rfl

theorem moves_record (finding : Finding) :
    Moves move id (record finding) (record (finding.moved move)) := by
  intro state
  change EStateM.Result.ok () _ = EStateM.Result.ok () _
  simp only [State.moved, Array.map_push, Finding.moved_isError]

theorem moves_remark (mode : Mode) (oddity : Remark) :
    Moves move id (remark mode oddity) (remark mode (oddity.moved move)) := by
  cases mode with
  | strict =>
      change Moves move id (throw oddity.fault) (throw (oddity.moved move).fault)
      rw [Remark.moved_fault]
      exact moves_throw oddity.fault
  | tolerant => exact moves_record (.remark oddity)

theorem moves_exhausted : Moves move id exhausted exhausted := fun _ => rfl

/-- The outcome of an attempt, moved. -/
def onOutcome (move : Position → Position) (onValue : α → α) : Except Fault α → Except Fault α
  | .ok value => .ok (onValue value)
  | .error fault => .error (fault.moved move)

theorem moves_attempt {onValue : α → α} {first second : Parser α}
    (moves : Moves move onValue first second) :
    Moves move (onOutcome move onValue) (attempt first) (attempt second) := by
  intro state
  rw [attempt, attempt, moves state]
  cases first state with
  | ok value left => rfl
  | error fault left =>
      have same : (fault.moved move).problem = .tooDeep ↔ fault.problem = .tooDeep :=
        Problem.moved_eq_tooDeep move fault.problem
      by_cases noRoom : fault.problem = .tooDeep
      · simp only [carried_error, same, noRoom, if_true]
      · simp only [carried_error, same, noRoom, if_false]
        rfl

theorem nextStatementFrom_moved (depth : Nat) (tokens : List Token) :
    nextStatementFrom depth (tokens.map (·.moved move)) =
      (nextStatementFrom depth tokens).map (·.moved move) := by
  induction tokens generalizing depth with
  | nil => rfl
  | cons token rest ih =>
      simp only [nextStatementFrom, List.map_cons, Token.moved_kind]
      cases token.kind with
      | endOfFile => rfl
      | semicolon =>
          cases depth with
          | zero => rfl
          | succ depth => exact ih (depth + 1)
      | opening shape =>
          cases shape with
          | brace => exact ih (depth + 1)
          | _ => exact ih depth
      | closing shape =>
          cases shape with
          | brace =>
              match depth with
              | 0 => rfl
              | 1 => rfl
              | depth + 2 => exact ih (depth + 1)
          | _ => exact ih depth
      | _ => exact ih depth

theorem moves_resume : Moves move id resume resume := by
  intro state
  change EStateM.Result.ok () _ = EStateM.Result.ok () _
  simp only [State.moved, nextStatementFrom_moved]

/-! ### Functions -/

theorem moves_headerItem (mode : Mode) (header : Header) (token : Token) :
    Moves move (Header.moved move) (headerItem mode header token)
      (headerItem mode (header.moved move) (token.moved move)) := by
  apply (Moves.ofReader Reader.moves_advance).bind
  intro taken
  simp only [Token.moved_text]
  cases Visibility.ofWord? token.text with
  | some visibility =>
      rw [Header.moved_visibility]
      cases header.visibility with
      | some previous =>
          apply (moves_remark mode (.duplicateSpecifier token previous.word)).bind
          exact fun _ => .pure rfl
      | none => exact .pure rfl
  | none =>
  cases Mutability.ofWord? token.text with
  | some mutability =>
      rw [Header.moved_mutability]
      cases header.mutability with
      | some previous =>
          apply (moves_remark mode (.duplicateSpecifier token previous.word)).bind
          exact fun _ => .pure rfl
      | none => exact .pure rfl
  | none =>
      apply Carries.ite .rfl
      · exact .pure rfl
      apply Carries.ite .rfl
      · apply (Moves.ofReader Reader.moves_parenthesized?).bind
        intro names
        apply Carries.pure
        cases names with
        | none => rfl
        | some group =>
            simp only [Option.map_some, Reader.moved_group_text]
            rfl
      apply Carries.ite .rfl
      · apply (Moves.ofReader (Reader.moves_shaped _ .expectedReturnParameters)).bind
        intro group
        apply Carries.pure
        simp only [Reader.moved_group_text]
        rfl
      · apply (Moves.ofReader (Reader.moves_invocation token)).bind
        intro modifier
        apply Carries.pure
        simp only [Header.moved, List.map_append]
        rfl

theorem moves_headerStep (limit : Nat) (mode : Mode) (label : String) (header : Header) :
    Moves move (onStep (Header.moved move)) (headerStep limit mode label header)
      (headerStep limit mode label (header.moved move)) := by
  apply (Moves.ofReader Reader.moves_current).bind
  intro found
  cases found with
  | none => exact Moves.ofReader (Reader.moves_failAt (.unclosedHeader label) none)
  | some token =>
      simp only [Option.map_some, Token.moved_kind, Token.moved_text]
      split
      · exact Moves.ofReader (Reader.moves_failAt (.unclosedHeader label) (some token))
      · exact (Moves.ofReader (Reader.moves_block limit)).bind fun _ => .pure rfl
      · exact (Moves.ofReader Reader.moves_advance).bind fun _ => .pure rfl
      · exact (moves_headerItem mode header token).bind fun _ => .pure rfl
      · apply Moves.ofReader
        exact Reader.moves_failAt (.unexpectedInHeader token.text label) (some token)

theorem moves_functionName (kind : Tree.FunctionKind) :
    Reader.Moves move id (functionName kind) (functionName kind) := by
  apply (Reader.moves_at? _).bind
  intro found
  apply Carries.ite .rfl
  · apply Reader.moves_advance.bind
    intro taken
    apply Carries.pure
    cases taken <;> rfl
  · exact .pure rfl

theorem moves_function (limit : Nat) (mode : Mode) (kind : Tree.FunctionKind) (start : Token) :
    Moves move (Tree.Function.moved move) (function limit mode kind start)
      (function limit mode kind (start.moved move)) := by
  apply (Moves.ofReader (moves_functionName kind)).bind
  intro name
  dsimp only [id]
  apply (Moves.ofReader (Reader.moves_shaped _ _)).bind
  intro parameters
  apply (Moves.loop (moves_headerStep limit mode _) {}).bind
  intro header
  apply Carries.pure
  rw [Reader.moved_group_text]
  rfl

theorem moves_stateVariable (start : Token) (tokens : List Token) :
    Moves move (Tree.Variable.moved move) (stateVariable start tokens)
      (stateVariable (start.moved move) (tokens.map (·.moved move))) := by
  rw [stateVariable, stateVariable, Tree.Variable.ofTokens_moved]
  cases Tree.Variable.ofTokens start tokens with
  | ok node => exact .pure rfl
  | error fault => exact moves_throw fault

/-! ### Contracts -/

/-- A declaration behind its keyword, as an answer of some kind. -/
theorem moves_announced {γ : Type} {onValue : α → α} {onResult : γ → γ} {first second : Parser α}
    {give : α → γ} (moves : Moves move onValue first second)
    (given : ∀ value, give (onValue value) = onResult (give value)) :
    Moves move onResult (do let _ ← (liftM Reader.advance : Parser _); return give (← first))
      (do let _ ← (liftM Reader.advance : Parser _); return give (← second)) := by
  apply (Moves.ofReader Reader.moves_advance).bind
  intro taken
  apply moves.bind
  intro value
  exact .pure (given value)

theorem any_moved (found : Option Token) (asked : Token → Bool)
    (same : ∀ token : Token, asked (token.moved move) = asked token) :
    (found.map (·.moved move)).any asked = found.any asked := by
  cases found with
  | none => rfl
  | some token => exact same token

variable [StackRoom]

theorem moves_keywordMember? (mode : Mode) (token : Token) :
    Moves move (Option.map (Tree.Member.moved move)) (keywordMember? mode token)
      (keywordMember? mode (token.moved move)) := by
  apply (Moves.ofReader (Reader.moves_peek 1)).bind
  intro next
  have seen (kind : Token.Kind) : (next.map (·.moved move)).any (·.kind = kind) =
      next.any (·.kind = kind) := any_moved next _ fun _ => rfl
  simp only [seen, Token.moved_text]
  generalize token.text = word
  split
  · apply Carries.ite .rfl
    · exact moves_announced (moves_function _ mode _ token) fun _ => rfl
    · exact .pure rfl
  · split
    · exact moves_announced (moves_function _ mode _ token) fun _ => rfl
    · exact moves_announced (.ofReader (Reader.moves_modifier token _)) fun _ => rfl
    · exact moves_announced (.ofReader (Reader.moves_event token)) fun _ => rfl
    · exact moves_announced (.ofReader (Reader.moves_struct token)) fun _ => rfl
    · exact moves_announced (.ofReader (Reader.moves_enum token)) fun _ => rfl
    · exact moves_announced (.ofReader (Reader.moves_usingFor token)) fun _ => rfl
    iterate 2
      apply Carries.ite .rfl
      · exact moves_announced (.ofReader (Reader.moves_declaration token)) fun _ => rfl
      · exact .pure rfl
    · exact .pure rfl

theorem moves_contractPart (mode : Mode) :
    Moves move (Option.map (Tree.Member.moved move)) (contractPart mode) (contractPart mode) := by
  apply (Moves.ofReader Reader.moves_front).bind
  intro token
  simp only [Token.moved_kind, Token.moved_text]
  split
  · apply (Moves.ofReader Reader.moves_advance).bind
    intro taken
    exact (moves_remark mode (.straySemicolon token)).bind fun _ => .pure rfl
  · apply (moves_keywordMember? mode token).bind
    intro member
    cases member with
    | some member => exact .pure rfl
    | none =>
        apply (Moves.ofReader Reader.moves_statement).bind
        intro tokens
        exact (moves_stateVariable token tokens).bind fun _ => .pure rfl
  · exact Moves.ofReader (Reader.moves_failAt (.unexpectedInContract token.text) (some token))

omit [StackRoom] in
theorem elim_push_moved {node : Type} (onNode : node → node) (nodes : Array node)
    (found : Option node) :
    (found.map onNode).elim (nodes.map onNode) (nodes.map onNode).push =
      (found.elim nodes nodes.push).map onNode := by
  cases found with
  | none => rfl
  | some value => exact Array.map_push.symm

theorem moves_memberInto (mode : Mode) (members : Array Tree.Member) :
    Moves move (Array.map (Tree.Member.moved move)) (memberInto mode members)
      (memberInto mode (members.map (·.moved move))) := by
  cases mode with
  | strict =>
      apply (moves_contractPart .strict).bind
      intro member
      exact .pure (elim_push_moved _ members member)
  | tolerant =>
      apply (moves_attempt (moves_contractPart .tolerant)).bind
      intro result
      cases result with
      | ok member => exact .pure (elim_push_moved _ members member)
      | error fault =>
          apply (moves_record (.fault fault)).bind
          intro recorded
          exact moves_resume.bind fun _ => .pure rfl

omit [StackRoom] in
theorem moves_unclosed (mode : Mode) (kind : Tree.ContractKind) (name : String)
    (token : Option Token) :
    Moves move id (unclosed mode kind name token)
      (unclosed mode kind name (token.map (·.moved move))) := by
  cases mode with
  | strict => exact moves_throw ⟨.unclosedContract kind name, token⟩
  | tolerant => exact moves_record (.unclosedContract ⟨.unclosedContract kind name, token⟩)

theorem moves_bodyStep (mode : Mode) (kind : Tree.ContractKind) (name : String)
    (members : Array Tree.Member) :
    Moves move (onStep (Array.map (Tree.Member.moved move))) (bodyStep mode kind name members)
      (bodyStep mode kind name (members.map (·.moved move))) := by
  apply moves_exhausted.bind
  intro full
  apply Carries.ite .rfl
  · exact .pure rfl
  apply (Moves.ofReader Reader.moves_current).bind
  intro token
  have kinds : (token.map (·.moved move)).map Token.kind = token.map Token.kind := by
    cases token <;> rfl
  rw [kinds]
  split
  · exact (moves_unclosed mode kind name token).bind fun _ => .pure rfl
  · exact (moves_unclosed mode kind name token).bind fun _ => .pure rfl
  · exact (Moves.ofReader Reader.moves_advance).bind fun _ => .pure rfl
  · exact (moves_memberInto mode members).bind fun _ => .pure rfl

theorem moves_contract (mode : Mode) (kind : Tree.ContractKind) (isAbstract : Bool)
    (start : Token) :
    Moves move (Tree.Contract.moved move) (contract mode kind isAbstract start)
      (contract mode kind isAbstract (start.moved move)) := by
  apply (Moves.ofReader (Reader.moves_expectName _)).bind
  intro name
  apply (Moves.ofReader (Reader.moves_atWord? _)).bind
  intro hasBases
  have body (bases : List String) : Moves move (Tree.Contract.moved move)
      (do
        let _ ← (liftM (Reader.expectElse (.opening .brace)
          (.expectedContractBody kind name.text)) : Parser Token)
        let members ← loop #[] (bodyStep mode kind name.text)
        return Tree.Contract.mk name.text kind isAbstract bases members.toList start.position)
      (do
        let _ ← (liftM (Reader.expectElse (.opening .brace)
          (.expectedContractBody kind name.text)) : Parser Token)
        let members ← loop #[] (bodyStep mode kind name.text)
        return Tree.Contract.mk name.text kind isAbstract bases members.toList
          (move start.position)) := by
    apply (Moves.ofReader (Reader.moves_expectElse _ (.expectedContractBody kind name.text))).bind
    intro brace
    apply (Moves.collect (moves_bodyStep mode kind name.text)).bind
    intro members
    apply Carries.pure
    rw [Array.toList_map]
    rfl
  cases hasBases with
  | false => exact body []
  | true =>
      apply (Moves.ofReader Reader.moves_advance).bind
      intro taken
      exact (Moves.ofReader Reader.moves_bases).bind body

/-! ### Source units -/

theorem moves_keywordElement? (mode : Mode) (token : Token) :
    Moves move (Option.map (Tree.Element.moved move)) (keywordElement? mode token)
      (keywordElement? mode (token.moved move)) := by
  unfold keywordElement?
  simp only [Token.moved_text]
  generalize token.text = word
  split
  · exact moves_announced (moves_contract mode _ false token) fun _ => rfl
  · split
    · exact moves_announced (.ofReader (Reader.moves_pragma token)) fun _ => rfl
    · exact moves_announced (.ofReader (Reader.moves_importPath token)) fun _ => rfl
    · apply (Moves.ofReader (Reader.moves_peek 1)).bind
      intro next
      rw [any_moved next (·.text = "contract") fun _ => rfl]
      apply Carries.ite .rfl
      · apply (Moves.ofReader Reader.moves_advance).bind
        intro taken
        exact moves_announced (moves_contract mode .contract true token) fun _ => rfl
      · exact .pure rfl
    · exact moves_announced (moves_function _ mode _ token) fun _ => rfl
    · exact moves_announced (.ofReader (Reader.moves_struct token)) fun _ => rfl
    · exact moves_announced (.ofReader (Reader.moves_enum token)) fun _ => rfl
    · exact moves_announced (.ofReader (Reader.moves_event token)) fun _ => rfl
    · exact moves_announced (.ofReader (Reader.moves_usingFor token)) fun _ => rfl
    · exact moves_announced (.ofReader (Reader.moves_declaration token)) fun _ => rfl
    · exact moves_announced (.ofReader (Reader.moves_declaration token)) fun _ => rfl
    · exact .pure rfl

theorem moves_sourceElement (mode : Mode) :
    Moves move (Option.map (Tree.Element.moved move)) (sourceElement mode)
      (sourceElement mode) := by
  apply (Moves.ofReader Reader.moves_front).bind
  intro token
  simp only [Token.moved_kind, Token.moved_text]
  split
  · apply (Moves.ofReader Reader.moves_advance).bind
    intro taken
    exact (moves_remark mode (.straySemicolon token)).bind fun _ => .pure rfl
  · apply (moves_keywordElement? mode token).bind
    intro element
    cases element with
    | some element => exact .pure rfl
    | none =>
        apply (Moves.ofReader Reader.moves_statement).bind
        intro tokens
        rw [List.any_map]
        apply Carries.ite .rfl
        · exact (moves_stateVariable token tokens).bind fun _ => .pure rfl
        · exact (moves_remark mode (.unrecognizedDirective token tokens)).bind fun _ => .pure rfl
  · exact Moves.ofReader (Reader.moves_failAt (.unexpectedAtTopLevel token.text) (some token))

omit [StackRoom] in
theorem moves_passElement (size : Nat) (elements : Array Tree.Element) (fault : Fault) :
    Moves move (Array.map (Tree.Element.moved move)) (passElement size elements fault)
      (passElement size (elements.map (·.moved move)) (fault.moved move)) := by
  apply (moves_record (.fault fault)).bind
  intro recorded
  apply moves_resume.bind
  intro resumed state
  have lengths : (State.moved move state).rest.length = size ↔ state.rest.length = size := by
    rw [State.moved, List.length_map]
  have passed : Moves move (Array.map (Tree.Element.moved move))
      (if state.rest.length = size then do
          let _ ← (liftM Reader.advance : Parser _)
          return elements
        else return elements)
      (if (State.moved move state).rest.length = size then do
          let _ ← (liftM Reader.advance : Parser _)
          return elements.map (·.moved move)
        else return elements.map (·.moved move)) := by
    apply Carries.ite lengths
    · exact (Moves.ofReader Reader.moves_advance).bind fun _ => .pure rfl
    · exact .pure rfl
  exact passed state

theorem moves_elementInto (mode : Mode) (elements : Array Tree.Element) :
    Moves move (Array.map (Tree.Element.moved move)) (elementInto mode elements)
      (elementInto mode (elements.map (·.moved move))) := by
  cases mode with
  | strict =>
      apply (moves_sourceElement .strict).bind
      intro element
      exact .pure (elim_push_moved _ elements element)
  | tolerant =>
      intro state
      have lengths : (State.moved move state).rest.length = state.rest.length := List.length_map _
      rw [elementInto_tolerant, elementInto_tolerant, lengths]
      refine ((moves_attempt (moves_sourceElement .tolerant)).bind fun result => ?_) state
      cases result with
      | ok element => exact .pure (elim_push_moved _ elements element)
      | error fault => exact moves_passElement _ elements fault

theorem moves_unitStep (mode : Mode) (elements : Array Tree.Element) :
    Moves move (onStep (Array.map (Tree.Element.moved move))) (unitStep mode elements)
      (unitStep mode (elements.map (·.moved move))) := by
  apply moves_exhausted.bind
  intro full
  apply Carries.ite .rfl
  · exact .pure rfl
  apply (Moves.ofReader Reader.moves_atEnd).bind
  intro atEnd
  apply Carries.ite .rfl
  · exact .pure rfl
  · exact (moves_elementInto mode elements).bind fun _ => .pure rfl

theorem moves_sourceUnit (mode : Mode) (filename : String) :
    Moves move (Tree.SourceUnit.moved move) (sourceUnit mode filename)
      (sourceUnit mode filename) := by
  apply (Moves.collect (moves_unitStep mode)).bind
  intro elements
  have answer : Moves move (Tree.SourceUnit.moved move)
      (pure ⟨filename, elements.toList⟩)
      (pure ⟨filename, (elements.map (·.moved move)).toList⟩) := by
    apply Carries.pure
    rw [Array.toList_map]
    rfl
  apply moves_exhausted.bind
  intro full
  apply Carries.ite .rfl
  · exact (moves_record (.tooManyErrors errorLimit)).bind fun _ => answer
  · exact answer

omit [StackRoom] in
theorem State.ofTokens_moved (tokens : List Token) :
    State.ofTokens (tokens.map (·.moved move)) = (State.ofTokens tokens).moved move := by
  have kept : Token.withoutComments (tokens.map (·.moved move)) =
      (Token.withoutComments tokens).map (·.moved move) := List.filter_map
  simp only [State.ofTokens, State.moved, kept, Array.map_empty]

end Parser

/-! ## Readings -/

section Readings

variable (move : Position → Position)

/-- A reading of moved tokens. -/
def Reading.moved (reading : Reading) : Reading :=
  ⟨reading.unit.map (·.moved move), reading.findings.map (·.moved move)⟩

variable [StackRoom]

/-- Moved tokens are read tolerantly as the tokens are, up to the move. -/
theorem Reading.ofTokens_moved (filename : String) (tokens : List Token) :
    Reading.ofTokens filename (tokens.map (·.moved move)) =
      ((Reading.ofTokens filename tokens).1.moved move,
        (Reading.ofTokens filename tokens).2.map (·.moved move)) := by
  rw [Reading.ofTokens, Reading.ofTokens, Parser.State.ofTokens_moved,
    Parser.moves_sourceUnit .tolerant filename]
  cases Parser.sourceUnit .tolerant filename (.ofTokens tokens) with
  | ok unit state => simp [Reading.moved, Parser.State.moved]
  | error fault state => simp [Reading.moved, Parser.State.moved, Finding.moved]

/-- Moved tokens are read strictly as the tokens are, up to the move. -/
theorem Tree.SourceUnit.ofTokens_moved (filename : String) (tokens : List Token) :
    Tree.SourceUnit.ofTokens filename (tokens.map (·.moved move)) =
      match Tree.SourceUnit.ofTokens filename tokens with
      | .ok unit => .ok (unit.moved move)
      | .error fault => .error (fault.moved move) := by
  rw [Tree.SourceUnit.ofTokens, Tree.SourceUnit.ofTokens, Parser.State.ofTokens_moved,
    Parser.moves_sourceUnit .strict filename]
  cases Parser.sourceUnit .strict filename (.ofTokens tokens) <;> rfl

end Readings

end Interlock
