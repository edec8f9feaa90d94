import Interlock.Proofs.Piece

/-!
# Bodies of contracts and sources

The body of a contract is a sequence of members up to its closing brace, and a source is
a sequence of elements up to its end.  Both are sequences of pieces, so a tolerant run
without errors can be repeated piece by piece.  Strictly it is repeated on the tokens
that are left without what the remarks are about.
-/

namespace Interlock.Parser

variable [StackRoom]

/-! ## Members -/

/-- The parser of what a word announces in a contract, if it is a keyword there; `next` is
the token behind the word. -/
def memberParser? (token : Token) (next : Option Token) : Option (Mode → Parser Tree.Member) :=
  match bareKind? token.text with
  | some kind =>
      if next.any (·.kind = .opening .paren) then
        some fun mode => return .function (← function StackRoom.member mode kind token)
      else none
  | none =>
      match token.text with
      | "function" =>
          some fun mode => return .function (← function StackRoom.member mode .function token)
      | "modifier" => some fun _ => return .modifier (← Reader.modifier StackRoom.member token)
      | "event" => some fun _ => return .event (← Reader.event token)
      | "struct" => some fun _ => return .struct (← Reader.struct token)
      | "enum" => some fun _ => return .enum (← Reader.enum token)
      | "using" => some fun _ => return .usingFor (← Reader.usingFor token)
      | "error" | "type" =>
          if next.any (·.kind = .identifier) then
            some fun _ => return .declaration (← Reader.declaration token)
          else none
      | _ => none

theorem keywordMember?_eq (mode : Mode) (token : Token) :
    keywordMember? mode token =
      (do announce mode (memberParser? token (← Reader.peek 1))) := by
  unfold keywordMember? memberParser?
  refine bind_congr fun next => ?_
  dsimp only
  cases bareKind? token.text with
  | some kind =>
      dsimp only
      split <;> simp only [announce, bind_assoc, pure_bind]
  | none =>
      dsimp only
      generalize token.text = word
      split
      iterate 6 simp only [announce, bind_assoc, pure_bind]
      iterate 2 (split <;> simp only [announce, bind_assoc, pure_bind])
      simp_all [announce]

theorem dispatches_member : Dispatches keywordMember? memberParser? where
  read := keywordMember?_eq
  replays := by
    intro token next parser found
    rw [memberParser?] at found
    split at found
    · split at found <;> cases found
      exact (replays_function _ _ token).map (agrees_function _ _ token) _
    · split at found
      · cases found
        exact (replays_function _ _ token).map (agrees_function _ _ token) _
      · cases found
        exact (ReplaysFront.of_reader (Reader.local_modifier token _)
          (Reader.takes_modifier token _)).map (.ofReader _) _
      · cases found
        exact (ReplaysFront.of_reader (Reader.local_event token)
          (Reader.takes_event token)).map (.ofReader _) _
      · cases found
        exact (ReplaysFront.of_reader (Reader.local_struct token)
          (Reader.takes_struct token)).map (.ofReader _) _
      · cases found
        exact (ReplaysFront.of_reader (Reader.local_enum token)
          (Reader.takes_enum token)).map (.ofReader _) _
      · cases found
        exact (ReplaysFront.of_reader (Reader.local_usingFor token)
          (Reader.takes_usingFor token)).map (.ofReader _) _
      iterate 2
        split at found <;> cases found
        exact (ReplaysFront.of_reader (Reader.local_declaration token)
          (Reader.takes_declaration token)).map (.ofReader _) _
      · cases found

/-- A statement in a contract is a state variable or refused. -/
theorem contractPart_eq_piece : contractPart =
    piece keywordMember?
      (fun _ token tokens => return some (.stateVariable (← stateVariable token tokens)))
      .unexpectedInContract := by
  funext mode
  rw [contractPart, piece]
  refine bind_congr fun token => ?_
  cases token.kind with
  | identifier =>
      refine bind_congr fun found => ?_
      cases found <;> rfl
  | _ => rfl

omit [StackRoom] in
theorem settled_stateVariable {α : Type} (token : Token) (tokens : List Token)
    (give : Tree.Variable → α) :
    Settled token tokens fun _ => do return some (give (← stateVariable token tokens)) := by
  rw [stateVariable]
  cases Tree.Variable.ofTokens token tokens with
  | ok node => exact .given (give node) fun _ => rfl
  | error fault => exact .refused fault fun _ => rfl

theorem exists_part {answer : Option Tree.Member} {before after : State}
    (quiet : Quiet (contractPart .tolerant) answer before after) :
    ∃ remarks taken kept, before.rest = taken ++ after.rest ∧
      Piece contractPart answer remarks taken kept := by
  rw [contractPart_eq_piece] at quiet ⊢
  exact exists_piece dispatches_member
    (fun token phrase => settled_stateVariable token phrase .stateVariable) quiet

/-! ## Bodies -/

section Body

variable {kind : Tree.ContractKind} {name : String} {members : Array Tree.Member}
variable {before after : State}

omit [StackRoom] in
/-- In tolerant mode a fault is counted. -/
theorem errors_lt_of_fault {α : Type} {parser : Mode → Parser (Option α)}
    (records : Records (parser .tolerant)) {fault : Fault} {left : State}
    (run : parser .tolerant before = .error fault left)
    (later : (final (record (.fault fault) left)).Extends after) :
    before.errors < after.errors := by
  have early := records before
  rw [run] at early
  have counted : (final (record (.fault fault) left)).errors = left.errors + 1 := rfl
  have := early.errors_le
  have := later.errors_le
  simp only [final] at *
  omega

/-- A quiet step reads the brace that closes the body, or a member. -/
theorem bodyStep_cases {answer : ForInStep (Array Tree.Member)}
    (quiet : Quiet (bodyStep .tolerant kind name members) answer before after) :
    (∃ closer, closer.kind = .closing .brace ∧ before.rest = closer :: after.rest ∧
      answer = .done members) ∨
    (∃ member, Quiet (contractPart .tolerant) member before after ∧
      answer = .yield (member.elim members members.push)) := by
  obtain ⟨run, limit, errors⟩ := quiet
  have going : decide (errorLimit ≤ before.errors) = false :=
    decide_eq_false (Nat.not_le.2 limit)
  rw [bodyStep, exhausted_bind, going] at run
  simp only [Bool.and_false, Bool.false_eq_true, if_false] at run
  obtain ⟨branch, same, run⟩ := branch_of_current_bind run
  obtain ⟨tokens, findings, count⟩ := before
  split at same <;> subst same
  next =>
    cases run
    exact absurd errors (Nat.succ_ne_self _)
  next =>
    cases run
    exact absurd errors (Nat.succ_ne_self _)
  next closes =>
    cases tokens with
    | nil => cases closes
    | cons closer rest =>
        rw [advance_bind] at run
        cases run
        exact .inl ⟨closer, Option.some.inj closes, rfl, rfl⟩
  next =>
    obtain ⟨_, _, intoRun, answered⟩ := bind_eq_ok_iff.1 run
    obtain ⟨rfl, rfl⟩ := pure_eq_ok_iff.1 answered
    cases partRun : contractPart .tolerant ⟨tokens, findings, count⟩ with
    | ok member left =>
        unfold memberInto at intoRun
        dsimp only at intoRun
        rw [bind_of_ok (attempt_of_ok partRun)] at intoRun
        obtain ⟨rfl, rfl⟩ := pure_eq_ok_iff.1 intoRun
        exact .inr ⟨member, ⟨partRun, limit, errors⟩, rfl⟩
    | error fault left =>
        unfold memberInto at intoRun
        dsimp only at intoRun
        by_cases noRoom : fault.problem = .tooDeep
        · rw [bind_of_error (attempt_of_tooDeep partRun noRoom)] at intoRun
          cases intoRun
        rw [bind_of_ok (attempt_of_error partRun noRoom)] at intoRun
        cases intoRun
        exact absurd errors.symm
          (Nat.ne_of_lt (errors_lt_of_fault agrees_contractPart.records partRun (.refl _)))

variable {rest : List Token} {findings : Array Finding} {errors : Nat}

omit [StackRoom] in
/-- Strict reading has no error limit; tolerant reading goes on below it. -/
theorem not_exhausted {mode : Mode} (going : mode = .tolerant → errors < errorLimit) :
    (decide (mode = .tolerant) && decide (errorLimit ≤ errors)) = false := by
  cases mode with
  | strict => rfl
  | tolerant => simpa using going rfl

theorem bodyStep_closer {mode : Mode} {closer : Token} (closes : closer.kind = .closing .brace)
    (going : mode = .tolerant → errors < errorLimit) :
    bodyStep mode kind name members ⟨closer :: rest, findings, errors⟩ =
      .ok (.done members) ⟨rest, findings, errors⟩ := by
  rw [bodyStep, exhausted_bind, not_exhausted going]
  simp only [Bool.false_eq_true, if_false]
  rw [current_bind]
  simp only [List.head?_cons, Option.map_some, closes]
  rfl

theorem memberInto_of_ok {mode : Mode} {member : Option Tree.Member}
    (run : contractPart mode before = .ok member after) :
    memberInto mode members before = .ok (member.elim members members.push) after := by
  cases mode with
  | strict => exact bind_of_ok run
  | tolerant => exact bind_of_ok (attempt_of_ok run)

theorem bodyStep_part {mode : Mode} {member : Option Tree.Member} (begins : BeginsPiece before.rest)
    (going : mode = .tolerant → before.errors < errorLimit)
    (run : contractPart mode before = .ok member after) :
    bodyStep mode kind name members before =
      .ok (.yield (member.elim members members.push)) after := by
  obtain ⟨token, rest, front, kinds⟩ := begins
  have read : (memberInto mode members >>= fun found => pure (ForInStep.yield found)) before =
      .ok (.yield (member.elim members members.push)) after :=
    bind_of_ok (memberInto_of_ok run)
  rw [bodyStep, exhausted_bind, not_exhausted going]
  simp only [Bool.false_eq_true, if_false]
  rw [current_bind]
  rcases kinds with isWord | isSemicolon
  · simpa only [front, List.head?_cons, Option.map_some, isWord] using read
  · simpa only [front, List.head?_cons, Option.map_some, isSemicolon] using read

/-- A quiet run through a body reads members up to the brace that closes it. -/
theorem parts_of_body {result : Array Tree.Member}
    (quiet : Quiet (loop members (bodyStep .tolerant kind name)) result before after) :
    ∃ found remarks taken kept closer, closer.kind = .closing .brace ∧
      before.rest = taken ++ closer :: after.rest ∧
      Pieces contractPart found remarks taken kept ∧ result = members ++ found.toArray := by
  obtain ⟨found, remarks, taken, kept, last, split, ⟨closer, closes, front⟩, pieces, same⟩ :=
    pieces_of_loop (fun before after =>
        ∃ closer, closer.kind = .closing .brace ∧ before.rest = closer :: after.rest)
      (fun quiet => (bodyStep_cases quiet).imp_left
        fun ⟨closer, closes, front, same⟩ => ⟨⟨closer, closes, front⟩, same⟩)
      exists_part
      (quietSteps_of_loop (fun members => (agrees_bodyStep kind name members).records) quiet)
  exact ⟨found, remarks, taken, kept, closer, closes, by rw [split, front], pieces, same⟩

/-- A body of members is read up to its brace, tolerantly and strictly. -/
theorem body_of_parts (kind : Tree.ContractKind) (name : String) {found : List Tree.Member}
    {remarks : List Remark} {taken kept : List Token}
    (pieces : Pieces contractPart found remarks taken kept)
    {closer : Token} (closes : closer.kind = .closing .brace) (members : Array Tree.Member) :
    Replay (fun mode => loop members (bodyStep mode kind name)) (members ++ found.toArray) remarks
      (taken ++ [closer]) (kept ++ [closer]) where
  pruned := by simpa using pieces.pruned.append (.refl [closer])
  tolerant rest findings errors limit := by
    rw [List.append_assoc, List.singleton_append]
    refine ((loop_pieces bodyStep_part pieces members (closer :: rest) findings errors).1
      limit).trans ?_
    exact loop_of_done (bodyStep_closer closes fun _ => limit)
  strict rest findings errors := by
    rw [List.append_assoc, List.singleton_append]
    refine (loop_pieces bodyStep_part pieces members (closer :: rest) findings errors).2.trans ?_
    exact loop_of_done (bodyStep_closer closes nofun)

theorem replays_body (kind : Tree.ContractKind) (name : String) :
    Replays fun mode => loop #[] (bodyStep mode kind name) := by
  intro result before after quiet
  obtain ⟨found, remarks, taken, kept, closer, closes, split, pieces, rfl⟩ := parts_of_body quiet
  exact ⟨remarks, taken ++ [closer], kept ++ [closer], by simp [split],
    body_of_parts kind name pieces closes #[]⟩

end Body

/-! ## Contracts -/

/-- Reads the name of a contract and its bases. -/
def contractFront (kind : Tree.ContractKind) : Reader (Token × List String) := do
  let name ← Reader.expectName (kind.word ++ " name")
  if ← Reader.atWord? "is" then
    let _ ← Reader.advance
    return (name, ← Reader.bases)
  else return (name, [])

omit [StackRoom] in
theorem local_contractFront (kind : Tree.ContractKind) :
    Reader.Local .front (contractFront kind) := by
  rw [contractFront]
  refine (Reader.local_expectName _).of_nothing.bind fun name => ?_
  refine (Reader.local_atWord? "is").bind fun hasBases => ?_
  split
  · refine (Reader.local_advance fun _ => Look.front_nil).bind fun _ => ?_
    exact Reader.local_bases.bind fun _ => .pure _
  · exact .pure _

/-- A contract is its front, the brace that opens it, and its body. -/
theorem contract_eq (mode : Mode) (kind : Tree.ContractKind) (isAbstract : Bool)
    (start : Token) :
    contract mode kind isAbstract start = (do
      let front ← ofReader (contractFront kind)
      let _ ← ofReader (Reader.expectElse (.opening .brace)
        (.expectedContractBody kind front.1.text))
      let members ← loop #[] (bodyStep mode kind front.1.text)
      return ⟨front.1.text, kind, isAbstract, front.2, members.toList, start.position⟩) := by
  rw [contract, contractFront, ofReader_bind, bind_assoc]
  refine bind_congr fun name => ?_
  rw [ofReader_bind, bind_assoc]
  refine bind_congr fun hasBases => ?_
  cases hasBases with
  | false => rfl
  | true =>
      simp only [if_true, ofReader_bind, bind_assoc]
      rfl

theorem replays_contract (kind : Tree.ContractKind) (isAbstract : Bool) (start : Token) :
    ReplaysFront fun mode => contract mode kind isAbstract start := by
  simp only [contract_eq]
  refine .reader_bind (local_contractFront kind) fun front => ?_
  refine .of_reader_bind (Reader.local_expectElse _ _) (Reader.takes_expectElse _ _) fun _ => ?_
  exact (replays_body kind front.1.text).map (.loop (agrees_bodyStep kind front.1.text) #[]) _

/-! ## Elements -/

/-- The parser of what a word announces at the top level, if it is a keyword there; `next`
is the token behind the word. -/
def elementParser? (token : Token) (next : Option Token) :
    Option (Mode → Parser Tree.Element) :=
  match Tree.ContractKind.ofWord? token.text with
  | some kind => some fun mode => return .contract (← contract mode kind false token)
  | none =>
      match token.text with
      | "pragma" => some fun _ => return .pragma (← Reader.pragma token)
      | "import" => some fun _ => return .importPath (← Reader.importPath token)
      | "abstract" =>
          if next.any (·.text = "contract") then
            some fun mode => do
              let _ ← Reader.advance
              return .contract (← contract mode .contract true token)
          else none
      | "function" =>
          some fun mode =>
            return .member (.function (← function StackRoom.free mode .function token))
      | "struct" => some fun _ => return .member (.struct (← Reader.struct token))
      | "enum" => some fun _ => return .member (.enum (← Reader.enum token))
      | "event" => some fun _ => return .member (.event (← Reader.event token))
      | "using" => some fun _ => return .member (.usingFor (← Reader.usingFor token))
      | "error" | "type" =>
          some fun _ => return .member (.declaration (← Reader.declaration token))
      | _ => none

theorem keywordElement?_eq (mode : Mode) (token : Token) :
    keywordElement? mode token =
      (do announce mode (elementParser? token (← Reader.peek 1))) := by
  -- Only one keyword looks behind itself; for the others looking changes nothing.
  have unseen {α : Type} (parser : Parser α) :
      parser = ((liftM (Reader.peek 1) : Parser _) >>= fun _ => parser) := rfl
  simp only [keywordElement?, elementParser?]
  cases Tree.ContractKind.ofWord? token.text with
  | some kind =>
      dsimp only
      simp only [announce, bind_assoc, pure_bind]
      exact unseen _
  | none =>
      dsimp only
      generalize token.text = word
      split
      iterate 2
        simp only [announce, bind_assoc, pure_bind]
        exact unseen _
      · refine bind_congr fun next => ?_
        split <;> simp only [announce, bind_assoc, pure_bind]
      iterate 7
        simp only [announce, bind_assoc, pure_bind]
        exact unseen _
      · refine (unseen _).trans (bind_congr fun _ => ?_)
        clear unseen
        simp_all [announce]

theorem dispatches_element : Dispatches keywordElement? elementParser? where
  read := keywordElement?_eq
  replays := by
    intro token next parser found
    have advances : Reader.Local .front Reader.advance :=
      Reader.local_advance fun _ => Look.front_nil
    rw [elementParser?] at found
    split at found
    · cases found
      exact (replays_contract _ _ token).map (agrees_contract _ _ token) _
    · split at found
      · cases found
        exact (ReplaysFront.of_reader (Reader.local_pragma token)
          (Reader.takes_pragma token)).map (.ofReader _) _
      · cases found
        exact (ReplaysFront.of_reader (Reader.local_importPath token)
          (Reader.takes_importPath token)).map (.ofReader _) _
      · split at found <;> cases found
        exact .reader_bind advances fun _ =>
          (replays_contract _ _ token).map (agrees_contract _ _ token) _
      · cases found
        exact (replays_function _ _ token).map (agrees_function _ _ token) _
      · cases found
        exact (ReplaysFront.of_reader (Reader.local_struct token)
          (Reader.takes_struct token)).map (.ofReader _) _
      · cases found
        exact (ReplaysFront.of_reader (Reader.local_enum token)
          (Reader.takes_enum token)).map (.ofReader _) _
      · cases found
        exact (ReplaysFront.of_reader (Reader.local_event token)
          (Reader.takes_event token)).map (.ofReader _) _
      · cases found
        exact (ReplaysFront.of_reader (Reader.local_usingFor token)
          (Reader.takes_usingFor token)).map (.ofReader _) _
      iterate 2
        cases found
        exact (ReplaysFront.of_reader (Reader.local_declaration token)
          (Reader.takes_declaration token)).map (.ofReader _) _
      · cases found

theorem sourceElement_eq_piece : sourceElement =
    piece keywordElement?
      (fun mode token tokens =>
        if tokens.any (·.isWord "constant") then
          return some (.member (.stateVariable (← stateVariable token tokens)))
        else do
          remark mode (.unrecognizedDirective token tokens)
          return none)
      .unexpectedAtTopLevel := by
  funext mode
  rw [sourceElement, piece]
  refine bind_congr fun token => ?_
  cases token.kind with
  | identifier =>
      refine bind_congr fun found => ?_
      cases found <;> rfl
  | _ => rfl

omit [StackRoom] in
/-- A statement at the top level is a constant, refused or odd. -/
theorem settled_element (token : Token) (phrase : List Token) :
    Settled token phrase fun mode =>
      if phrase.any (·.isWord "constant") then
        return some (Tree.Element.member (.stateVariable (← stateVariable token phrase)))
      else do
        remark mode (.unrecognizedDirective token phrase)
        return none := by
  by_cases constant : phrase.any (·.isWord "constant")
  · simp only [constant, if_true]
    exact settled_stateVariable token phrase fun node =>
      Tree.Element.member (.stateVariable node)
  · simp only [constant]
    exact .odd fun _ => rfl

theorem exists_element {answer : Option Tree.Element} {before after : State}
    (quiet : Quiet (sourceElement .tolerant) answer before after) :
    ∃ remarks taken kept, before.rest = taken ++ after.rest ∧
      Piece sourceElement answer remarks taken kept := by
  rw [sourceElement_eq_piece] at quiet ⊢
  exact exists_piece dispatches_element settled_element quiet

/-! ## Sources -/

section Source

variable {elements : Array Tree.Element} {before after : State}

/-- Whether a token list is at its end: nothing is left, or the end mark is at the front. -/
def AtEnd (tokens : List Token) : Prop := tokens.head?.all (·.kind = .endOfFile) = true

omit [StackRoom] in
theorem atEnd_eq (tokens : List Token) :
    Reader.atEnd tokens =
      .ok (tokens.head?.all (·.kind = .endOfFile)) tokens := by
  cases tokens <;> rfl

/-- A quiet step reads an element, unless it is at the end. -/
theorem unitStep_cases {answer : ForInStep (Array Tree.Element)}
    (quiet : Quiet (unitStep .tolerant elements) answer before after) :
    (AtEnd before.rest ∧ after = before) ∧ answer = .done elements ∨
    ∃ element, Quiet (sourceElement .tolerant) element before after ∧
      answer = .yield (element.elim elements elements.push) := by
  obtain ⟨run, limit, errors⟩ := quiet
  rw [unitStep, exhausted_bind, not_exhausted fun _ => limit] at run
  simp only [Bool.false_eq_true, if_false, liftM_eq_ofReader] at run
  rw [bind_of_ok (ofReader_of_ok (atEnd_eq _) _ _)] at run
  cases ended : before.rest.head?.all (·.kind = .endOfFile) with
  | true =>
      rw [ended] at run
      cases run
      exact .inl ⟨⟨ended, rfl⟩, rfl⟩
  | false =>
      rw [ended] at run
      obtain ⟨_, _, intoRun, answered⟩ := bind_eq_ok_iff.1 run
      obtain ⟨rfl, rfl⟩ := pure_eq_ok_iff.1 answered
      rw [elementInto_tolerant] at intoRun
      cases elementRun : sourceElement .tolerant before with
      | ok element left =>
          rw [bind_of_ok (attempt_of_ok elementRun)] at intoRun
          obtain ⟨rfl, rfl⟩ := pure_eq_ok_iff.1 intoRun
          exact .inr ⟨element, ⟨elementRun, limit, errors⟩, rfl⟩
      | error fault left =>
          by_cases noRoom : fault.problem = .tooDeep
          · rw [bind_of_error (attempt_of_tooDeep elementRun noRoom)] at intoRun
            cases intoRun
          rw [bind_of_ok (attempt_of_error elementRun noRoom)] at intoRun
          have passed := passElement_extends before.rest.length elements fault left
          dsimp only at intoRun
          rw [intoRun] at passed
          exact absurd errors.symm
            (Nat.ne_of_lt (errors_lt_of_fault agrees_sourceElement.records elementRun passed))

variable {mode : Mode}

theorem unitStep_end {findings : Array Finding} {errors : Nat} {rest : List Token}
    (ended : AtEnd rest) (going : mode = .tolerant → errors < errorLimit) :
    unitStep mode elements ⟨rest, findings, errors⟩ =
      .ok (.done elements) ⟨rest, findings, errors⟩ := by
  rw [unitStep, exhausted_bind, not_exhausted going]
  simp only [Bool.false_eq_true, if_false, liftM_eq_ofReader]
  rw [bind_of_ok (ofReader_of_ok (atEnd_eq _) _ _), show _ = true from ended]
  rfl

theorem unitStep_element {element : Option Tree.Element} (begins : BeginsPiece before.rest)
    (going : mode = .tolerant → before.errors < errorLimit)
    (run : sourceElement mode before = .ok element after) :
    unitStep mode elements before =
      .ok (.yield (element.elim elements elements.push)) after := by
  obtain ⟨tokens, findings, errors⟩ := before
  obtain ⟨token, rest, rfl, kinds⟩ := begins
  have goesOn : (token :: rest).head?.all (·.kind = .endOfFile) = false := by
    rcases kinds with kind | kind <;> simp [kind]
  have into : elementInto mode elements ⟨token :: rest, findings, errors⟩ =
      .ok (element.elim elements elements.push) after := by
    cases mode with
    | strict => exact bind_of_ok run
    | tolerant =>
        rw [elementInto_tolerant]
        exact bind_of_ok (attempt_of_ok run)
  rw [unitStep, exhausted_bind, not_exhausted going]
  simp only [Bool.false_eq_true, if_false, liftM_eq_ofReader]
  rw [bind_of_ok (ofReader_of_ok (atEnd_eq _) _ _), goesOn]
  exact bind_of_ok into

/-- A quiet run through a source reads elements up to its end. -/
theorem elements_of_source {filename : String} {unit : Tree.SourceUnit}
    (quiet : Quiet (sourceUnit .tolerant filename) unit before after) :
    ∃ found remarks taken kept, before.rest = taken ++ after.rest ∧ AtEnd after.rest ∧
      Pieces sourceElement found remarks taken kept ∧ unit = ⟨filename, found⟩ := by
  obtain ⟨run, limit, errors⟩ := quiet
  rw [sourceUnit] at run
  obtain ⟨elements, between, loopRun, later⟩ := bind_eq_ok_iff.1 run
  have grown : before.errors ≤ between.errors := by
    have extended := Records.loop (fun elements => (agrees_unitStep elements).records) #[] before
    rw [loopRun] at extended
    exact extended.errors_le
  rw [exhausted_bind] at later
  by_cases full : errorLimit ≤ between.errors
  · -- Too many errors would be one more of them.
    have counted : after.errors = between.errors + 1 := by
      simp only [full, decide_true, Bool.and_self, if_true] at later
      cases later
      rfl
    omega
  · simp only [full, decide_false, Bool.and_false, Bool.false_eq_true, if_false] at later
    cases later
    obtain ⟨found, remarks, taken, kept, last, split, ⟨ended, rfl⟩, pieces, rfl⟩ :=
      pieces_of_loop (fun before after => AtEnd before.rest ∧ after = before) unitStep_cases
        exists_element (quietSteps_of_loop
          (fun elements => (agrees_unitStep elements).records) ⟨loopRun, limit, errors⟩)
    exact ⟨found, remarks, taken, kept, split, ended, pieces, by simp⟩

/-- A source of elements is read up to its end, tolerantly and strictly. -/
theorem source_of_elements {found : List Tree.Element} {remarks : List Remark}
    {taken kept rest : List Token} (pieces : Pieces sourceElement found remarks taken kept)
    (ended : AtEnd rest) (filename : String) :
    sourceUnit .tolerant filename ⟨taken ++ rest, #[], 0⟩ =
        .ok ⟨filename, found⟩ ((State.mk rest #[] 0).note remarks) ∧
      sourceUnit .strict filename ⟨kept ++ rest, #[], 0⟩ =
        .ok ⟨filename, found⟩ ⟨rest, #[], 0⟩ := by
  have limit : 0 < errorLimit := by decide
  obtain ⟨tolerant, strict⟩ := loop_pieces unitStep_element pieces #[] rest #[] 0
  constructor
  · have read := (tolerant limit).trans (loop_of_done (unitStep_end ended fun _ => limit))
    refine (bind_of_ok read).trans ?_
    rw [exhausted_bind, not_exhausted fun _ => limit]
    change EStateM.Result.ok (Tree.SourceUnit.mk filename (#[] ++ found.toArray).toList) _ = _
    simp [State.note]
  · have read := strict.trans (loop_of_done (unitStep_end ended fun _ => limit))
    refine (bind_of_ok read).trans ?_
    simp
    rfl

/-- A reading without errors is a quiet run. -/
theorem quiet_of_success {filename : String} {tokens : List Token}
    (success : (Reading.ofTokens filename tokens).1.success = true) :
    ∃ unit after, Quiet (sourceUnit .tolerant filename) unit (.ofTokens tokens) after := by
  have extended := (agrees_sourceUnit filename).records (.ofTokens tokens)
  rw [Reading.ofTokens] at success
  cases run : sourceUnit .tolerant filename (.ofTokens tokens) with
  | error fault after =>
      rw [run] at success
      simp [Reading.success, Finding.isError, Finding.severity] at success
  | ok unit after =>
      rw [run] at success extended
      refine ⟨unit, after, run, show 0 < errorLimit by decide, ?_⟩
      obtain ⟨more, findings, errors⟩ := extended
      have none : more.countP (·.isError) = 0 := by
        simp only [final, State.ofTokens, Array.toList_empty, List.nil_append] at findings
        simpa [Reading.success, findings, List.countP_eq_zero] using success
      rw [final, none] at errors
      exact errors

/-- The reading of elements up to the end answers them and the remarks on them. -/
theorem reading_of_elements {filename : String} {tokens : List Token}
    {found : List Tree.Element} {remarks : List Remark} {taken kept rest : List Token}
    (split : Token.withoutComments tokens = taken ++ rest) (ended : AtEnd rest)
    (pieces : Pieces sourceElement found remarks taken kept) :
    Reading.ofTokens filename tokens =
      (⟨some ⟨filename, found⟩, remarks.map .remark⟩, rest) := by
  have read := (source_of_elements pieces ended filename).1
  rw [Reading.ofTokens, State.ofTokens, split, read]
  simp [State.note]

/-- A reading succeeds exactly when the tokens are elements up to the end. -/
theorem success_iff_elements {filename : String} {tokens : List Token} :
    (Reading.ofTokens filename tokens).1.success = true ↔
      ∃ found remarks taken kept rest, Token.withoutComments tokens = taken ++ rest ∧
        AtEnd rest ∧ Pieces sourceElement found remarks taken kept := by
  constructor
  · intro success
    obtain ⟨unit, after, quiet⟩ := quiet_of_success success
    obtain ⟨found, remarks, taken, kept, split, ended, pieces, -⟩ := elements_of_source quiet
    exact ⟨found, remarks, taken, kept, after.rest, split, ended, pieces⟩
  · rintro ⟨found, remarks, taken, kept, rest, split, ended, pieces⟩
    rw [reading_of_elements split ended pieces]
    simp [Reading.success, Finding.isError, Finding.severity]

end Source

end Interlock.Parser
