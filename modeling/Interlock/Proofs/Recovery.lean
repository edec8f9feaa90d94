import Interlock.Proofs.Tolerance

/-!
# Tolerant reading always ends

In tolerant mode the body of a contract and a source are only given up when the
stack has no room for a block in them.  Every other step through them answers: it
takes a token or it is the last one, it walks on and never back, and it never counts
more errors than the limit.  So a tolerant reading with room enough answers a tree
whatever the tokens are, and stops in front of the end mark unless it has found too
many errors.
-/

namespace Interlock.Parser

variable {α β : Type}

/-! ## Steps -/

/-- A step that answers unless the stack has no room, walks on, and takes a token when it is not
the last one. -/
def Persistent (step : β → Parser (ForInStep β)) : Prop :=
  ∀ value before,
    (∃ answer after, step value before = .ok answer after ∧ before.Reaches after ∧
      ∀ found, answer = .yield found → after.rest.length < before.rest.length) ∨
    ∃ fault after, step value before = .error fault after ∧
      before.GivesUp before.rest fault after

/-- A repetition of such steps answers, and its last step is a step that ends it. -/
theorem Persistent.loop {step : β → Parser (ForInStep β)} (steps : Persistent step) (value : β)
    (before : State) :
    (∃ result after, Parser.loop value step before = .ok result after ∧ before.Reaches after ∧
      ∃ reached last, step reached last = .ok (.done result) after) ∨
    ∃ fault after, Parser.loop value step before = .error fault after ∧
      before.GivesUp before.rest fault after := by
  rcases steps value before with
      ⟨answer, between, run, reaches, shorter⟩ | ⟨fault, after, run, ends⟩
  · cases answer with
    | done result =>
        exact .inl ⟨result, between, loop_of_done run, reaches, value, before, run⟩
    | yield found =>
        have less := shorter found rfl
        rcases Persistent.loop steps found between with
            ⟨result, after, loopRun, further, last⟩ | ⟨fault, after, loopRun, ends⟩
        · exact .inl ⟨result, after, (loop_of_yield run less).trans loopRun,
            reaches.trans further, last⟩
        · exact .inr ⟨fault, after, (loop_of_yield run less).trans loopRun, .behind reaches ends⟩
  · exact .inr ⟨fault, after, loop_of_error run, ends⟩
termination_by before.rest.length

theorem walk_nextStatementFrom (depth : Nat) (tokens : List Token) :
    Walk tokens (nextStatementFrom depth tokens) [] := by
  induction tokens generalizing depth with
  | nil => exact .stop []
  | cons token rest ih =>
      rw [nextStatementFrom.eq_def]
      dsimp only
      split
      next => exact .stop _
      next ends => exact .take (Token.passable_of_kind ends (by simp)) (.stop rest)
      next opens => exact .take (Token.passable_of_kind opens (by simp)) (ih _)
      next => exact .stop _
      next closes => exact .take (Token.passable_of_kind closes (by simp)) (.stop rest)
      next closes => exact .take (Token.passable_of_kind closes (by simp)) (ih _)
      next notEnd _ _ _ _ _ => exact .take (fun ends => absurd ends notEnd) (ih _)

/-- The next statement is further on, unless the end or a closing brace is at the front. -/
theorem nextStatementFrom_length {token : Token} {rest : List Token}
    (notEnd : token.kind ≠ .endOfFile) (notCloser : token.kind ≠ .closing .brace) :
    (nextStatementFrom 0 (token :: rest)).length < (token :: rest).length := by
  have further (depth : Nat) :
      (nextStatementFrom depth rest).length < (token :: rest).length :=
    (walk_nextStatementFrom depth rest).length_lt
  rw [nextStatementFrom.eq_def]
  dsimp only
  split
  next ends => exact absurd ends notEnd
  next => simp
  next => exact further _
  next closes _ => exact absurd closes notCloser
  next => simp
  next => exact further _
  next => exact further _

/-! ## Bodies -/

section Body

variable {token : Token} {rest : List Token} {findings : Array Finding} {errors : Nat}

theorem settles_announced {limit : Nat} {parser : Parser α} (passable : token.Passable)
    (announced : Announced limit token parser) :
    Settles (token :: rest) ⟨rest, findings, errors⟩ (parser ⟨rest, findings, errors⟩) := by
  cases announced with
  | function kind give =>
      have walks := walks_function limit kind token ⟨rest, findings, errors⟩
      exact (walks.settles.map give).behind passable
  | modifier give =>
      have walks := Walks.ofReader (Reader.walks_modifier limit token) ⟨rest, findings, errors⟩
      exact (walks.settles.map give).behind passable
  | reader give built =>
      have walks := Walks.ofReader built.walks ⟨rest, findings, errors⟩
      exact (walks.settles.map give).behind passable
  | importPath give =>
      exact (settles_of_endsBehind (Reader.endsBehind_importPath token passable rest)).map give
  | usingFor give =>
      exact (settles_of_endsBehind (Reader.endsBehind_usingFor token passable rest)).map give

variable [StackRoom]

theorem passes_contractPart :
    Passes ⟨token :: rest, findings, errors⟩
      (contractPart .tolerant ⟨token :: rest, findings, errors⟩) := by
  rw [contractPart_eq_piece]
  apply passes_piece dispatches_member
  · intro token rest parser findings errors isWord found
    exact settles_announced (Token.passable_of_kind isWord (by simp)) (announced_member found)
  · intro token rest phrase left findings errors isWord run
    exact passes_stateVariable isWord run _
  · simp

theorem memberInto_persists (members : Array Tree.Member) (notEnd : token.kind ≠ .endOfFile)
    (notCloser : token.kind ≠ .closing .brace) (below : errors < errorLimit) :
    (∃ found after, memberInto .tolerant members ⟨token :: rest, findings, errors⟩ =
        .ok found after ∧ (State.mk (token :: rest) findings errors).Reaches after ∧
      after.rest.length < (token :: rest).length) ∨
    ∃ fault after, memberInto .tolerant members ⟨token :: rest, findings, errors⟩ =
        .error fault after ∧
      (State.mk (token :: rest) findings errors).GivesUp (token :: rest) fault after := by
  have passes : Passes ⟨token :: rest, findings, errors⟩ _ := passes_contractPart
  cases run : contractPart .tolerant ⟨token :: rest, findings, errors⟩ with
  | ok member after =>
      rw [run] at passes
      exact .inl ⟨_, after, memberInto_of_ok run, passes.1, passes.2⟩
  | error fault after =>
      rw [run] at passes
      by_cases noRoom : fault.problem = .tooDeep
      · exact .inr ⟨fault, after, bind_of_error (attempt_of_tooDeep run noRoom),
          givesUp_of_passes passes noRoom⟩
      obtain ⟨remarks, adds, walk⟩ := fails_of_passes passes noRoom
      have room := room_of_fault noRoom
      have resumed := walk_nextStatementFrom 0 after.rest
      refine .inl ⟨members, _, bind_of_ok (attempt_of_error run noRoom), ?_, ?_⟩
      · exact (State.Reaches.of_error remarks adds walk room below).trans (.of_walk resumed _ _)
      · change (nextStatementFrom 0 after.rest).length < _
        -- A fault that has taken nothing is passed over, as no brace is at the front.
        by_cases stuck : after.rest.length = (token :: rest).length
        · have same : after.rest = token :: rest := walk.suffix.eq_of_length stuck
          rw [same]
          exact nextStatementFrom_length notEnd notCloser
        · have atMost : after.rest.length ≤ (token :: rest).length := walk.length_le
          exact Nat.lt_of_le_of_lt resumed.length_le (Nat.lt_of_le_of_ne atMost stuck)

variable {kind : Tree.ContractKind} {name : String} {members : Array Tree.Member}

/-- The end of the tokens inside a body is an error. -/
theorem bodyStep_unclosed {tokens : List Token} (ended : AtEnd tokens)
    (below : errors < errorLimit) :
    bodyStep .tolerant kind name members ⟨tokens, findings, errors⟩ =
      .ok (.done members) (final (record
        (.unclosedContract ⟨.unclosedContract kind name, tokens.head?⟩)
        ⟨tokens, findings, errors⟩)) := by
  rw [bodyStep, exhausted_bind, not_exhausted fun _ => below]
  simp only [Bool.false_eq_true, if_false]
  rw [current_bind]
  cases tokens with
  | nil => rfl
  | cons token rest =>
      have isEnd : token.kind = .endOfFile := of_decide_eq_true ended
      simp only [List.head?_cons, Option.map_some, isEnd]
      rfl

/-- Neither at the end nor at the closing brace a step reads a member. -/
theorem bodyStep_of_memberInto (notEnd : token.kind ≠ .endOfFile)
    (notCloser : token.kind ≠ .closing .brace) (below : errors < errorLimit) :
    bodyStep .tolerant kind name members ⟨token :: rest, findings, errors⟩ =
      (memberInto .tolerant members >>= fun found => pure (ForInStep.yield found))
        ⟨token :: rest, findings, errors⟩ := by
  rw [bodyStep, exhausted_bind, not_exhausted fun _ => below]
  simp only [Bool.false_eq_true, if_false]
  rw [current_bind]
  simp only [List.head?_cons, Option.map_some]
  cases isKind : token.kind with
  | endOfFile => exact absurd isKind notEnd
  | closing shape =>
      cases shape with
      | brace => exact absurd isKind notCloser
      | _ => rfl
  | _ => rfl

variable (kind name) in
theorem persistent_bodyStep : Persistent (bodyStep .tolerant kind name) := by
  rintro members ⟨tokens, findings, errors⟩
  by_cases full : errorLimit ≤ errors
  · refine .inl ⟨.done members, _, ?_, .refl _, by simp⟩
    rw [bodyStep, exhausted_bind]
    simp only [full, decide_true, Bool.and_self, if_true]
    rfl
  have below : errors < errorLimit := Nat.lt_of_not_le full
  by_cases ended : AtEnd tokens
  · refine .inl ⟨.done members, _, bodyStep_unclosed ended below, ?_, by simp⟩
    exact .of_error [] (.refl _) (.single rfl trivial) rfl below
  cases tokens with
  | nil => exact absurd rfl ended
  | cons token rest =>
      have notEnd : token.kind ≠ .endOfFile := fun ends => ended (decide_eq_true ends)
      by_cases closes : token.kind = .closing .brace
      · refine .inl ⟨.done members, _, bodyStep_closer closes fun _ => below, ?_, by simp⟩
        exact .of_walk (.take (Token.passable_of_kind closes (by simp)) (.stop rest)) _ _
      rw [bodyStep_of_memberInto notEnd closes below]
      rcases memberInto_persists members notEnd closes below with
          ⟨found, after, run, reaches, shorter⟩ | ⟨fault, after, run, ends⟩
      · exact .inl ⟨.yield found, after, bind_of_ok run, reaches, fun _ _ => shorter⟩
      · exact .inr ⟨fault, after, bind_of_error run, ends⟩

theorem settles_contract (kind : Tree.ContractKind) (isAbstract : Bool) (start : Token)
    (before : State) :
    Settles before.rest before (contract .tolerant kind isAbstract start before) := by
  rw [contract_eq]
  apply (Walks.ofReader (built_contractFront kind).walks).bind_settles
  intro front between
  apply (Walks.ofReader (Reader.walks_expectElse _ (by simp))).bind_settles
  intro opener inside
  apply Settles.map
  rcases (persistent_bodyStep kind front.1.text).loop #[] inside with
      ⟨members, after, run, reaches, -⟩ | ⟨fault, after, run, ends⟩
  · rw [run]
    exact reaches
  · rw [run]
    exact .inr ends

end Body

/-! ## Sources -/

section Source

variable [StackRoom]

variable {token : Token} {rest : List Token} {findings : Array Finding} {errors : Nat}

theorem settles_element {parser : Mode → Parser Tree.Element} (isWord : token.kind = .identifier)
    (found : elementParser? token rest.head? = some parser) :
    Settles (token :: rest) ⟨rest, findings, errors⟩
      (parser .tolerant ⟨rest, findings, errors⟩) := by
  have passable := Token.passable_of_kind isWord (by simp)
  rcases announced_element found with announced | ⟨kind, same⟩ | ⟨isContract, same⟩
  · exact settles_announced passable announced
  · rw [same]
    exact ((settles_contract kind _ token ⟨rest, findings, errors⟩).map _).behind passable
  · -- The second word is taken for its text.
    rw [same]
    cases rest with
    | nil => cases isContract
    | cons second rest =>
        have also : second.Passable := fun _ => of_decide_eq_true isContract
        apply Settles.behind passable
        apply Settles.take also
        exact (settles_contract _ _ token ⟨rest, findings, errors⟩).map _

theorem passes_sourceElement :
    Passes ⟨token :: rest, findings, errors⟩
      (sourceElement .tolerant ⟨token :: rest, findings, errors⟩) := by
  rw [sourceElement_eq_piece]
  apply passes_piece dispatches_element settles_element
  · intro token rest phrase left findings errors isWord run
    split
    · exact passes_stateVariable isWord run fun node => Tree.Element.member (.stateVariable node)
    · exact passes_unrecognized isWord run
  · simp

omit [StackRoom] in
/-- Passing over a fault records it, goes on at the next statement, and takes a token if that is
where the element began. -/
theorem passElement_eq (size : Nat) (elements : Array Tree.Element) (fault : Fault)
    (before : State) :
    passElement size elements fault before =
      (if (nextStatementFrom 0 before.rest).length = size then do
          let _ ← Reader.advance
          return elements
        else return elements : Parser (Array Tree.Element))
        { final (record (.fault fault) before) with
          rest := nextStatementFrom 0 before.rest } := rfl

theorem elementInto_persists (elements : Array Tree.Element) (notEnd : token.kind ≠ .endOfFile)
    (below : errors < errorLimit) :
    (∃ found after, elementInto .tolerant elements ⟨token :: rest, findings, errors⟩ =
        .ok found after ∧ (State.mk (token :: rest) findings errors).Reaches after ∧
      after.rest.length < (token :: rest).length) ∨
    ∃ fault after, elementInto .tolerant elements ⟨token :: rest, findings, errors⟩ =
        .error fault after ∧
      (State.mk (token :: rest) findings errors).GivesUp (token :: rest) fault after := by
  have passes : Passes ⟨token :: rest, findings, errors⟩ _ := passes_sourceElement
  rw [elementInto_tolerant]
  cases run : sourceElement .tolerant ⟨token :: rest, findings, errors⟩ with
  | ok element after =>
      rw [run] at passes
      exact .inl ⟨_, after, bind_of_ok (attempt_of_ok run), passes.1, passes.2⟩
  | error fault after =>
      rw [run] at passes
      by_cases noRoom : fault.problem = .tooDeep
      · exact .inr ⟨fault, after, bind_of_error (attempt_of_tooDeep run noRoom),
          givesUp_of_passes passes noRoom⟩
      obtain ⟨remarks, adds, walk⟩ := fails_of_passes passes noRoom
      have room := room_of_fault noRoom
      have resumed := walk_nextStatementFrom 0 after.rest
      have reached := (State.Reaches.of_error remarks adds walk room below).trans
        (.of_walk resumed _ _)
      left
      rw [bind_of_ok (attempt_of_error run noRoom)]
      dsimp only
      rw [passElement_eq]
      by_cases stuck : (nextStatementFrom 0 after.rest).length = (token :: rest).length
      · have same : nextStatementFrom 0 after.rest = token :: rest :=
          (resumed.suffix.trans walk.suffix).eq_of_length stuck
        have passed : Walk (token :: rest) rest [] :=
          .take (fun ends => absurd ends notEnd) (.stop rest)
        rw [if_pos stuck]
        rw [same] at reached ⊢
        exact ⟨elements, _, rfl, reached.trans (.of_walk passed _ _), Nat.lt_succ_self _⟩
      · have atMost : (nextStatementFrom 0 after.rest).length ≤ (token :: rest).length :=
          (resumed.suffix.trans walk.suffix).length_le
        rw [if_neg stuck]
        exact ⟨elements, _, rfl, reached, Nat.lt_of_le_of_ne atMost stuck⟩

theorem unitStep_full {elements : Array Tree.Element} {before : State}
    (full : errorLimit ≤ before.errors) :
    unitStep .tolerant elements before = .ok (.done elements) before := by
  rw [unitStep, exhausted_bind]
  simp only [full, decide_true, Bool.and_self, if_true]
  rfl

/-- Away from the end a step reads an element. -/
theorem unitStep_of_elementInto {elements : Array Tree.Element} (notEnd : token.kind ≠ .endOfFile)
    (below : errors < errorLimit) :
    unitStep .tolerant elements ⟨token :: rest, findings, errors⟩ =
      (elementInto .tolerant elements >>= fun found => pure (ForInStep.yield found))
        ⟨token :: rest, findings, errors⟩ := by
  have goesOn : (token :: rest).head?.all (·.kind = .endOfFile) = false := by simpa using notEnd
  rw [unitStep, exhausted_bind, not_exhausted fun _ => below]
  simp only [Bool.false_eq_true, if_false, liftM_eq_ofReader]
  rw [bind_of_ok (ofReader_of_ok (atEnd_eq _) _ _), goesOn]
  rfl

/-- A step through a source is the last one when there are too many errors or nothing is
left. -/
theorem persistent_unitStep : Persistent (unitStep .tolerant) := by
  rintro elements ⟨tokens, findings, errors⟩
  by_cases full : errorLimit ≤ errors
  · exact .inl ⟨.done elements, _, unitStep_full full, .refl _, by simp⟩
  have below : errors < errorLimit := Nat.lt_of_not_le full
  by_cases ended : AtEnd tokens
  · exact .inl ⟨.done elements, _, unitStep_end ended fun _ => below, .refl _, by simp⟩
  cases tokens with
  | nil => exact absurd rfl ended
  | cons token rest =>
      have notEnd : token.kind ≠ .endOfFile := fun ends => ended (decide_eq_true ends)
      rw [unitStep_of_elementInto notEnd below]
      rcases elementInto_persists elements notEnd below with
          ⟨found, after, run, reaches, shorter⟩ | ⟨fault, after, run, ends⟩
      · exact .inl ⟨.yield found, after, bind_of_ok run, reaches, fun _ _ => shorter⟩
      · exact .inr ⟨fault, after, bind_of_error run, ends⟩

theorem unitStep_done {elements result : Array Tree.Element} {before after : State}
    (run : unitStep .tolerant elements before = .ok (.done result) after) :
    errorLimit ≤ after.errors ∨ AtEnd after.rest := by
  by_cases full : errorLimit ≤ before.errors
  · rw [unitStep_full full] at run
    cases run
    exact .inl full
  rw [unitStep, exhausted_bind, not_exhausted fun _ => Nat.lt_of_not_le full] at run
  simp only [Bool.false_eq_true, if_false, liftM_eq_ofReader] at run
  rw [bind_of_ok (ofReader_of_ok (atEnd_eq _) _ _)] at run
  cases ended : before.rest.head?.all (·.kind = .endOfFile) with
  | true =>
      rw [ended] at run
      cases run
      exact .inr ended
  | false =>
      rw [ended] at run
      obtain ⟨_, _, -, answered⟩ := bind_eq_ok_iff.1 run
      cases answered

/-- A reading is what is collected on the way through a source.  If that ended at the error
limit, the reading says so last. -/
theorem reading_of_loop (filename : String) {tokens : List Token}
    {elements : Array Tree.Element} {after : State}
    (run : loop #[] (unitStep .tolerant) (.ofTokens tokens) = .ok elements after) :
    Reading.ofTokens filename tokens =
      (⟨some ⟨filename, elements.toList⟩, after.findings.toList ++
        if errorLimit ≤ after.errors then [.tooManyErrors errorLimit] else []⟩, after.rest) := by
  have read : sourceUnit .tolerant filename (.ofTokens tokens) =
      (do
        if ← exhausted then record (.tooManyErrors errorLimit)
        return ⟨filename, elements.toList⟩ : Parser Tree.SourceUnit) after := by
    rw [sourceUnit, bind_of_ok run]
    simp only [decide_true, Bool.true_and]
  rw [exhausted_bind] at read
  by_cases full : errorLimit ≤ after.errors
  · simp only [full, decide_true, if_true] at read
    rw [Reading.ofTokens, read, if_pos full]
    change (Reading.mk _ (after.findings.push _).toList, _) = _
    rw [Array.toList_push]
  · simp only [full, decide_false, Bool.false_eq_true, if_false] at read
    rw [Reading.ofTokens, read, if_neg full, List.append_nil]
    rfl

/-- How a tolerant reading of some tokens ends, with the tokens that are left over. -/
inductive Finished (tokens : List Token) : Reading × List Token → Prop where
  | complete {unit : Tree.SourceUnit} {findings : List Finding} {left : List Token} :
      Roomy findings → Walk tokens left findings →
      findings.countP (·.isError) < errorLimit → AtEnd left →
      Finished tokens (⟨some unit, findings⟩, left)
  | stopped {unit : Tree.SourceUnit} {findings : List Finding} {left : List Token} :
      Roomy findings → Walk tokens left findings →
      findings.countP (·.isError) = errorLimit →
      Finished tokens (⟨some unit, findings ++ [.tooManyErrors errorLimit]⟩, left)
  | givenUp {fault : Fault} {findings : List Finding} {left : List Token} :
      Roomy findings → fault.problem = .tooDeep → Walk tokens left (findings ++ [.fault fault]) →
      Finished tokens (⟨none, findings ++ [.fault fault]⟩, left)

/-- A reading goes to the end, or until there are too many errors, unless it is given up. -/
theorem reading_finished (filename : String) (tokens : List Token) :
    Finished (Token.withoutComments tokens) (Reading.ofTokens filename tokens) := by
  rcases persistent_unitStep.loop #[] (.ofTokens tokens) with
      ⟨elements, after, run, reaches, _, _, last⟩ | ⟨fault, after, run, ends⟩
  · obtain ⟨findings, ⟨found, counted⟩, roomy, walk⟩ := reaches.walk
    have limit := reaches.limit (Nat.zero_le _)
    simp only [State.ofTokens, Array.toList_empty, List.nil_append, Nat.zero_add] at found counted
    rw [counted] at limit
    rw [reading_of_loop filename run, found]
    rcases Nat.lt_or_eq_of_le limit with below | full
    · have notFull : ¬ errorLimit ≤ after.errors := by omega
      rw [if_neg notFull, List.append_nil]
      exact .complete roomy walk below ((unitStep_done last).resolve_left notFull)
    · have isFull : errorLimit ≤ after.errors := by omega
      rw [if_pos isFull]
      exact .stopped roomy walk full
  · obtain ⟨findings, ⟨found, -⟩, roomy, walk⟩ := ends.walk
    simp only [State.ofTokens, Array.toList_empty, List.nil_append] at found
    rw [Reading.ofTokens, sourceUnit, bind_of_error run]
    dsimp only
    rw [found]
    exact .givenUp roomy ends.noRoom walk

end Source

end Interlock.Parser

namespace Interlock

/-- A reading answers a tree unless it is given up. -/
theorem Reading.gaveUp_eq_false_iff [StackRoom] {filename : String} {tokens : List Token} :
    (ofTokens filename tokens).1.gaveUp = false ↔
      ∃ unit, (ofTokens filename tokens).1.unit = some unit := by
  have finished := Parser.reading_finished filename tokens
  generalize ofTokens filename tokens = answer at finished
  cases finished with
  | complete roomy => simpa [gaveUp] using! roomy
  | stopped roomy =>
      have last : (Finding.tooManyErrors Parser.errorLimit).isTooDeep = false := rfl
      simpa [gaveUp, last] using! roomy
  | givenUp _ noRoom => simp [gaveUp, Finding.isTooDeep, noRoom]

open Interlock.Parser

/-! ## Repetitions that end by themselves -/

/-- A step that never puts a token back, whether it answers or fails, and takes one whenever it
goes on, so that its repetition ends. -/
structure Advances {ε σ β : Type} (rest : σ → List Token)
    (step : β → EStateM ε σ (ForInStep β)) : Prop where
  answers : ∀ ⦃value : β⦄ ⦃answer : ForInStep β⦄ ⦃before after : σ⦄,
    step value before = .ok answer after → rest after <:+ rest before
  fails : ∀ ⦃value : β⦄ ⦃fault : ε⦄ ⦃before after : σ⦄,
    step value before = .error fault after → rest after <:+ rest before
  takes : ∀ ⦃value found : β⦄ ⦃before after : σ⦄,
    step value before = .ok (.yield found) after → (rest after).length < (rest before).length

/-- A step that answers unless the stack has no room. -/
def Answers {β : Type} (step : β → Parser (ForInStep β)) : Prop :=
  ∀ value before, (∃ answer after, step value before = .ok answer after) ∨
    ∃ fault after, step value before = .error fault after ∧ fault.problem = .tooDeep

section Advancing

variable {β : Type}

theorem advances_of_walks {step : β → Reader (ForInStep β)}
    (walks : ∀ value, Reader.Walks (step value))
    (takes : ∀ {value found tokens left}, step value tokens = .ok (.yield found) left →
      left.length < tokens.length) : Advances id step where
  answers value answer tokens left run := by
    have walk := walks value tokens
    rw [run] at walk
    exact Walk.suffix walk
  fails value fault tokens left run := by
    have walk := walks value tokens
    rw [run] at walk
    exact Walk.suffix walk
  takes _ _ _ _ run := takes run

theorem answers_of_persistent {step : β → Parser (ForInStep β)} (steps : Persistent step) :
    Answers step := by
  intro value before
  rcases steps value before with ⟨answer, after, run, -⟩ | ⟨fault, after, run, ends⟩
  · exact .inl ⟨answer, after, run⟩
  · exact .inr ⟨fault, after, run, ends.noRoom⟩

theorem advances_of_persistent {step : β → Parser (ForInStep β)} (steps : Persistent step) :
    Advances State.rest step where
  answers value answer before after run := by
    rcases steps value before with ⟨found, reached, same, reaches, -⟩ | ⟨_, _, same, -⟩
    · rw [run] at same
      cases same
      exact reaches.suffix
    · rw [run] at same
      cases same
  fails value fault before after run := by
    rcases steps value before with ⟨found, reached, same, -⟩ | ⟨_, reached, same, ends⟩
    · rw [run] at same
      cases same
    · rw [run] at same
      cases same
      obtain ⟨more, -, -, walk⟩ := ends.walk
      exact walk.suffix
  takes value found before after run := by
    rcases steps value before with ⟨answer, reached, same, -, shorter⟩ | ⟨_, _, same, -⟩
    · rw [run] at same
      cases same
      exact shorter found rfl
    · rw [run] at same
      cases same

theorem advances_headerStep (limit : Nat) (label : String) :
    Advances State.rest (headerStep limit .tolerant label) where
  answers header answer before after run := by
    have ends := walks_headerStep limit label header before
    rw [run] at ends
    obtain ⟨remarks, -, walk⟩ := ends
    exact walk.suffix
  fails header fault before after run := by
    have ends := walks_headerStep limit label header before
    rw [run] at ends
    obtain ⟨remarks, -, walk⟩ := ends
    exact walk.suffix
  takes header found before after run := by
    obtain ⟨tokens, findings, errors⟩ := before
    rcases headerStep_cases run with
        ⟨_, _, impossible, -⟩ | ⟨_, token, more, same, front, -, item⟩
    · cases impossible
    · cases same
      cases front
      exact Nat.lt_succ_of_le (headerItem_length item)

theorem advances_modifierStep (limit : Nat) (name : String) :
    Advances id (Reader.modifierStep limit name) :=
  advances_of_walks (Reader.walks_modifierStep limit name) Reader.modifierStep_yield

theorem advances_dottedStep (what : String) : Advances id (Reader.dottedStep what) := by
  apply advances_of_walks fun names => (Reader.built_dottedStep what names).walks
  intro names found tokens left run
  cases tokens with
  | nil => cases run
  | cons token rest =>
      have behind : Reader.Walks (Reader.expectName what >>= fun name =>
          pure (ForInStep.yield (names ++ [name.text]))) :=
        ((Reader.built_expectName what).bind fun _ => .pure _).walks
      rw [Reader.dottedStep] at run
      obtain ⟨isDot, between, asked, run⟩ := bind_eq_ok_iff.1 run
      cases asked
      split at run
      · have walk := behind rest
        rw [Reader.advance_bind] at run
        rw [run] at walk
        exact Walk.length_lt walk
      · cases run

theorem advances_basesStep : Advances id Reader.basesStep := by
  apply advances_of_walks fun names => (Reader.built_basesStep names).walks
  intro names found tokens left run
  obtain ⟨first, between, named, run⟩ := bind_eq_ok_iff.1 run
  have walk := (Reader.built_behindBase names first).walks between
  rw [run] at walk
  exact Nat.lt_of_le_of_lt (Walk.length_le walk) (Reader.takes_expectElse _ _ named)

end Advancing

/-! ## Diagnostics -/

theorem Finding.code_of_arises {finding : Finding} (arises : finding.Arises) :
    finding.code ≠ "TOO_MANY_ERRORS" := by
  cases finding with
  | remark cause => cases cause <;> simp [Finding.code, Remark.code]
  | tooManyErrors limit => exact arises.elim
  | _ => simp [Finding.code]

/-- On a walk there is always something left to find fault with. -/
theorem Walk.not_nothingLeft {tokens left : List Token} {findings : List Finding}
    (walk : Walk tokens left findings) (fault : Fault) (member : .fault fault ∈ findings) :
    fault.problem ≠ .nothingLeft :=
  walk.arises _ member

/-- No diagnostic on a walk says that it was given up. -/
theorem Walk.codes {tokens left : List Token} {findings : List Finding}
    (walk : Walk tokens left findings) :
    ∀ diagnostic ∈ findings.map (·.toDiagnostic), diagnostic.code ≠ "TOO_MANY_ERRORS" := by
  intro diagnostic member
  obtain ⟨finding, inside, rfl⟩ := List.mem_map.1 member
  exact Finding.code_of_arises (walk.arises finding inside)

theorem errors_length (findings : List Finding) :
    (Diagnostic.errors (findings.map (·.toDiagnostic))).length =
      findings.countP (·.isError) := by
  rw [Diagnostic.errors, ← List.countP_eq_length_filter, List.countP_map]
  rfl

/-- What is left when a reading is at the end is behind all that stands in front of the first
end mark. -/
theorem suffix_dropWhile {tokens left : List Token} (suffix : left <:+ tokens)
    (ended : AtEnd left) : left <:+ tokens.dropWhile (·.kind ≠ .endOfFile) := by
  have kept : left.dropWhile (·.kind ≠ .endOfFile) = left := by
    cases left with
    | nil => rfl
    | cons token rest =>
        have isEnd : token.kind = .endOfFile := of_decide_eq_true ended
        simp [isEnd]
  obtain ⟨taken, rfl⟩ := suffix
  rw [List.dropWhile_append]
  split
  · exact ⟨[], by rw [List.nil_append, kept]⟩
  · exact List.suffix_append _ _

end Interlock
