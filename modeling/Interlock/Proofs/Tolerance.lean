import Interlock.Proofs.Walk

/-!
# Tolerant runs

A tolerant run of a parser walks through the tokens as its readers do, and records
its findings on the way.  A run that fails has recorded nothing but remarks, so no
error is counted before the fault itself is.  A run that answers may have met errors,
but it never counts more of them than the limit; and so may a run that is given up
because the stack has no room for a block.  Here this is shown for headers and
functions, and for a piece of a body or a source whatever its words announce.
-/

namespace Interlock.Parser

variable {α β : Type}

/-- One state has some findings more than another, and has counted the errors among
them. -/
def State.Adds (before : State) (more : List Finding) (after : State) : Prop :=
  after.findings.toList = before.findings.toList ++ more ∧
    after.errors = before.errors + more.countP (·.isError)

namespace State.Adds

theorem refl (state : State) : state.Adds [] state := ⟨by simp, by simp⟩

theorem of_rest (state : State) (rest : List Token) :
    state.Adds [] { state with rest := rest } := refl state

theorem trans {first second third : State} {some more : List Finding}
    (left : first.Adds some second) (right : second.Adds more third) :
    first.Adds (some ++ more) third := by
  constructor
  · rw [right.1, left.1, List.append_assoc]
  · rw [right.2, left.2, List.countP_append, Nat.add_assoc]

theorem note (state : State) (remarks : List Remark) :
    state.Adds (remarks.map .remark) (state.note remarks) := by
  constructor
  · simp [State.note]
  · have none : (remarks.map Finding.remark).countP (·.isError) = 0 := by
      simp [List.countP_eq_zero, Finding.isError, Finding.severity]
    simp [none]

theorem record (state : State) (finding : Finding) :
    state.Adds [finding] (final (Parser.record finding state)) := by
  refine ⟨Array.toList_push, ?_⟩
  change (if finding.isError then state.errors + 1 else state.errors) = _
  cases counted : finding.isError <;> simp [counted]

/-- Remarks are no errors. -/
theorem errors_eq {before after : State} {remarks : List Remark}
    (adds : before.Adds (remarks.map .remark) after) : after.errors = before.errors := by
  rw [adds.2, (note before remarks).2.symm, State.note_errors]

end State.Adds

/-- One state is left by another with a fault: nothing but remarks are on record, and the fault
was met on a walk through some tokens. -/
def State.Fails (before : State) (tokens : List Token) (fault : Fault) (after : State) : Prop :=
  ∃ remarks : List Remark, before.Adds (remarks.map .remark) after ∧
    Walk tokens after.rest (remarks.map .remark ++ [.fault fault])

theorem State.Fails.take {before after : State} {token : Token} {tokens : List Token}
    {fault : Fault} (passable : token.Passable) (fails : before.Fails tokens fault after) :
    before.Fails (token :: tokens) fault after := by
  obtain ⟨remarks, adds, walk⟩ := fails
  exact ⟨remarks, adds, .take passable walk⟩

/-! ## Parsers that only remark -/

/-- How a run ends that records nothing but remarks.  It walks through the tokens that were
left, or through `tokens` if it fails. -/
def Ends (tokens : List Token) (before : State) : EStateM.Result Fault State α → Prop
  | .ok _ after => ∃ remarks : List Remark,
      before.Adds (remarks.map .remark) after ∧
        Walk before.rest after.rest (remarks.map .remark)
  | .error fault after => before.Fails tokens fault after

/-- A parser whose runs are walks with nothing but remarks on them. -/
def Walks (parser : Parser α) : Prop := ∀ before : State, Ends before.rest before (parser before)

section Closure

variable {parser : Parser α} {next : α → Parser β} {tokens : List Token} {before : State}

theorem Walks.pure (value : α) : Walks (pure value) :=
  fun before => ⟨[], .refl before, .stop before.rest⟩

theorem ends_ofReader {reader : Reader α} (ends : Reader.Ends before.rest (reader before.rest)) :
    Ends before.rest before (ofReader reader before) := by
  rw [ofReader]
  cases run : reader before.rest with
  | ok value left =>
      rw [run] at ends
      exact ⟨[], .of_rest before left, ends⟩
  | error fault left =>
      rw [run] at ends
      exact ⟨[], .of_rest before left, ends⟩

theorem Walks.ofReader {reader : Reader α} (walks : Reader.Walks reader) :
    Walks (ofReader reader) :=
  fun before => ends_ofReader (walks before.rest)

/-- What goes on behind an answer goes on from its state. -/
theorem Ends.after {value : α} {between : State} {result : EStateM.Result Fault State β}
    (first : Ends tokens before (.ok value between)) (later : Ends between.rest between result) :
    Ends before.rest before result := by
  obtain ⟨remarks, adds, walk⟩ := first
  cases result with
  | ok value after =>
      obtain ⟨more, moreAdds, moreWalk⟩ := later
      refine ⟨remarks ++ more, ?_, ?_⟩
      · rw [List.map_append]
        exact adds.trans moreAdds
      · rw [List.map_append]
        exact walk.trans moreWalk
  | error fault after =>
      obtain ⟨more, moreAdds, moreWalk⟩ := later
      refine ⟨remarks ++ more, ?_, ?_⟩
      · rw [List.map_append]
        exact adds.trans moreAdds
      · rw [List.map_append, List.append_assoc]
        exact walk.trans moreWalk

theorem Ends.bind (first : Ends before.rest before (parser before))
    (second : ∀ value, Walks (next value)) :
    Ends before.rest before ((parser >>= next) before) := by
  cases run : parser before with
  | error fault after =>
      rw [run] at first
      rw [bind_of_error run]
      exact first
  | ok value between =>
      rw [run] at first
      rw [bind_of_ok run]
      exact first.after (second value between)

theorem Walks.bind (first : Walks parser) (second : ∀ value, Walks (next value)) :
    Walks (parser >>= next) :=
  fun before => (first before).bind second

theorem walks_loop {step : β → Parser (ForInStep β)} (steps : ∀ value, Walks (step value))
    (value : β) : Walks (loop value step) := by
  intro before
  change Ends before.rest before
    (repeatSteps (fun state : State => state.rest.length) step value before)
  fun_induction repeatSteps (fun state : State => state.rest.length) step value before with
  | case1 value before fault left run =>
      have first := steps value before
      rwa [run] at first
  | case2 value before result left run =>
      have first := steps value before
      rw [run] at first
      exact first
  | case3 value before found left run shorter ih =>
      have first := steps value before
      rw [run] at first
      exact first.after ih
  | case4 value before found left run stuck =>
      have first := steps value before
      rw [run] at first
      exact first

/-- A run is the run of the branch that it takes. -/
theorem ends_of_branch {state : State}
    (branches : ∀ branch, parser = branch → Ends tokens before (branch state)) :
    Ends tokens before (parser state) :=
  branches parser rfl

end Closure

/-! ## Headers and functions -/

section Header

variable {token : Token} {rest : List Token} {findings : Array Finding} {errors : Nat}

/-- A token at the front is taken before the rest is read. -/
theorem Ends.take {result : EStateM.Result Fault State α} (passable : token.Passable)
    (ends : Ends rest ⟨rest, findings, errors⟩ result) :
    Ends (token :: rest) ⟨token :: rest, findings, errors⟩ result := by
  cases result with
  | ok value after =>
      obtain ⟨remarks, adds, walk⟩ := ends
      exact ⟨remarks, adds, .take passable walk⟩
  | error fault after => exact State.Fails.take passable ends

/-- A remark on a token that was taken. -/
theorem ends_remark (token : Token) {oddity : Remark} (place : oddity.token = token)
    (passable : token.Passable) (value : α) :
    Ends (token :: rest) ⟨token :: rest, findings, errors⟩
      ((remark .tolerant oddity >>= fun _ => pure value) ⟨rest, findings, errors⟩) := by
  rw [bind_of_ok (remark_tolerant _ _)]
  refine ⟨[oddity], .note ⟨rest, findings, errors⟩ [oddity], ?_⟩
  exact .mark (congrArg some place) trivial (.take passable (.stop rest))

theorem ends_headerItem (header : Header) (passable : token.Passable) :
    Ends (token :: rest) ⟨token :: rest, findings, errors⟩
      (headerItem .tolerant header token ⟨token :: rest, findings, errors⟩) := by
  rcases headerItem_built header token with ⟨previous, again⟩ | ⟨item, built, same⟩
  · rw [again, advance_bind]
    exact ends_remark token rfl passable header
  · rw [same, advance_bind]
    exact (Walks.ofReader built.walks ⟨rest, findings, errors⟩).take passable

theorem walks_headerStep (limit : Nat) (label : String) (header : Header) :
    Walks (headerStep limit .tolerant label header) := by
  rintro ⟨tokens, findings, errors⟩
  rw [headerStep, current_bind]
  cases tokens with
  | nil => exact ends_ofReader (Walk.single rfl (by simp))
  | cons token rest =>
      apply ends_of_branch
      intro branch same
      simp only [List.head?_cons] at same
      split at same <;> subst same
      next => exact ends_ofReader (Walk.single rfl (by simp))
      next => exact (Walks.ofReader (Reader.walks_block limit)).bind (fun _ => .pure _) _
      next ends =>
        exact (Walks.pure _ ⟨rest, findings, errors⟩).take (Token.passable_of_kind ends (by simp))
      next isWord =>
        have passable := Token.passable_of_kind isWord (by simp)
        exact (ends_headerItem header passable).bind fun _ => .pure _
      next => exact ends_ofReader (Walk.single rfl (by simp))

theorem walks_function (limit : Nat) (kind : Tree.FunctionKind) (start : Token) :
    Walks (function limit .tolerant kind start) := by
  rw [function]
  apply (Walks.ofReader (built_functionName kind).walks).bind
  intro name
  apply (Walks.ofReader (Reader.built_shaped _ (by simp)).walks).bind
  intro parameters
  exact (walks_loop (walks_headerStep limit _) _).bind fun _ => .pure _

end Header

/-! ## Runs that record errors -/

/-- Findings of which none is that the stack has no room. -/
def Roomy (findings : List Finding) : Prop := ∀ finding ∈ findings, finding.isTooDeep = false

theorem Roomy.nil : Roomy [] := fun _ member => absurd member List.not_mem_nil

theorem Roomy.append {some more : List Finding} (left : Roomy some) (right : Roomy more) :
    Roomy (some ++ more) := by
  intro finding member
  rcases List.mem_append.1 member with member | member
  · exact left finding member
  · exact right finding member

theorem Roomy.remarks (remarks : List Remark) : Roomy (remarks.map .remark) := by
  intro finding member
  obtain ⟨remark, -, rfl⟩ := List.mem_map.1 member
  rfl

/-- One state is reached from another by a walk that does not count beyond the limit. -/
structure State.Reaches (before after : State) : Prop where
  walk : ∃ more, before.Adds more after ∧ Roomy more ∧ Walk before.rest after.rest more
  limit : before.errors ≤ errorLimit → after.errors ≤ errorLimit

namespace State.Reaches

theorem refl (state : State) : state.Reaches state where
  walk := ⟨[], .refl state, .nil, .stop state.rest⟩
  limit := id

theorem trans {first second third : State} (left : first.Reaches second)
    (right : second.Reaches third) : first.Reaches third where
  walk := by
    obtain ⟨some, adds, roomy, walk⟩ := left.walk
    obtain ⟨more, moreAdds, moreRoomy, moreWalk⟩ := right.walk
    exact ⟨some ++ more, adds.trans moreAdds, roomy.append moreRoomy, walk.trans moreWalk⟩
  limit bound := right.limit (left.limit bound)

/-- Taking tokens records nothing. -/
theorem of_walk {tokens left : List Token} (walk : Walk tokens left []) (findings : Array Finding)
    (errors : Nat) : (State.mk tokens findings errors).Reaches ⟨left, findings, errors⟩ where
  walk := ⟨[], .refl _, .nil, walk⟩
  limit := id

/-- Remarks are not counted. -/
theorem of_remarks {before after : State} {remarks : List Remark}
    (adds : before.Adds (remarks.map .remark) after)
    (walk : Walk before.rest after.rest (remarks.map .remark)) : before.Reaches after where
  walk := ⟨_, adds, .remarks remarks, walk⟩
  limit bound := adds.errors_eq ▸ bound

/-- A walk with one error on it stays within the limit when it begins below. -/
theorem of_error {before after : State} (remarks : List Remark) {finding : Finding}
    (adds : before.Adds (remarks.map .remark) after)
    (walk : Walk before.rest after.rest (remarks.map .remark ++ [finding]))
    (room : finding.isTooDeep = false) (below : before.errors < errorLimit) :
    before.Reaches (final (record finding after)) where
  walk := ⟨_, adds.trans (.record after finding), (Roomy.remarks remarks).append (by simpa [Roomy]),
    walk⟩
  limit _ := by
    have counted := (Adds.record after finding).2
    have atMost : [finding].countP (·.isError) ≤ 1 := List.countP_le_length
    rw [adds.errors_eq] at counted
    omega

theorem suffix {before after : State} (reaches : before.Reaches after) :
    after.rest <:+ before.rest := by
  obtain ⟨more, -, -, walk⟩ := reaches.walk
  exact walk.suffix

end State.Reaches

/-- One state is left by another because the stack has no room.  What was found before that is on
record. -/
structure State.GivesUp (before : State) (tokens : List Token) (fault : Fault)
    (after : State) : Prop where
  noRoom : fault.problem = .tooDeep
  walk : ∃ more, before.Adds more after ∧ Roomy more ∧
    Walk tokens after.rest (more ++ [.fault fault])
  limit : before.errors ≤ errorLimit → after.errors ≤ errorLimit

namespace State.GivesUp

variable {before between after : State} {tokens : List Token} {fault : Fault}

theorem of_fails (fails : before.Fails tokens fault after) (noRoom : fault.problem = .tooDeep) :
    before.GivesUp tokens fault after := by
  obtain ⟨remarks, adds, walk⟩ := fails
  exact ⟨noRoom, ⟨_, adds, .remarks remarks, walk⟩, fun bound => adds.errors_eq ▸ bound⟩

theorem behind (reaches : before.Reaches between)
    (later : between.GivesUp between.rest fault after) :
    before.GivesUp before.rest fault after where
  noRoom := later.noRoom
  walk := by
    obtain ⟨some, adds, roomy, walk⟩ := reaches.walk
    obtain ⟨more, moreAdds, moreRoomy, moreWalk⟩ := later.walk
    refine ⟨some ++ more, adds.trans moreAdds, roomy.append moreRoomy, ?_⟩
    rw [List.append_assoc]
    exact walk.trans moreWalk
  limit bound := later.limit (reaches.limit bound)

theorem take {token : Token} (passable : token.Passable)
    (later : before.GivesUp tokens fault after) :
    before.GivesUp (token :: tokens) fault after where
  noRoom := later.noRoom
  walk := by
    obtain ⟨more, adds, roomy, walk⟩ := later.walk
    exact ⟨more, adds, roomy, .take passable walk⟩
  limit := later.limit

/-- Which tokens were left plays no part beyond the walk. -/
theorem of_rest {rest other : List Token} {findings : Array Finding} {errors : Nat}
    (later : (State.mk rest findings errors).GivesUp tokens fault after) :
    (State.mk other findings errors).GivesUp tokens fault after :=
  ⟨later.noRoom, later.walk, later.limit⟩

end State.GivesUp

/-- How a run ends that may record errors.  It fails with nothing but remarks on record, or it is
given up. -/
def Settles (tokens : List Token) (before : State) : EStateM.Result Fault State α → Prop
  | .ok _ after => before.Reaches after
  | .error fault after => before.Fails tokens fault after ∨ before.GivesUp tokens fault after

section Settling

variable {parser : Parser α} {next : α → Parser β} {tokens : List Token} {before : State}

theorem Ends.settles {result : EStateM.Result Fault State α} (ends : Ends tokens before result) :
    Settles tokens before result := by
  cases result with
  | error fault after => exact .inl ends
  | ok value after =>
      obtain ⟨remarks, adds, walk⟩ := ends
      exact .of_remarks adds walk

theorem Settles.map (settles : Settles tokens before (parser before)) (give : α → β) :
    Settles tokens before ((parser >>= fun value => pure (give value)) before) := by
  cases run : parser before with
  | error fault after =>
      rw [run] at settles
      rw [bind_of_error run]
      exact settles
  | ok value after =>
      rw [run] at settles
      rw [bind_of_ok run]
      exact settles

/-- What comes behind a run that only remarks may record errors. -/
theorem Walks.bind_settles (first : Walks parser)
    (second : ∀ value (between : State), Settles between.rest between (next value between)) :
    Settles before.rest before ((parser >>= next) before) := by
  have ends := first before
  cases run : parser before with
  | error fault after =>
      rw [run] at ends
      rw [bind_of_error run]
      exact .inl ends
  | ok value between =>
      rw [run] at ends
      rw [bind_of_ok run]
      have later := second value between
      cases laterRun : next value between with
      | ok value after =>
          rw [laterRun] at later
          exact State.Reaches.trans (Ends.settles ends) later
      | error fault after =>
          rw [laterRun] at later
          rcases later with fails | givesUp
          · have failed : Ends between.rest between
                (.error fault after : EStateM.Result Fault State β) := fails
            exact .inl (ends.after failed)
          · exact .inr (.behind (Ends.settles ends) givesUp)

variable {token : Token} {rest : List Token} {findings : Array Finding} {errors : Nat}
variable {result : EStateM.Result Fault State α}

/-- A fault of a run may show at the token in front of it. -/
theorem Settles.behind (passable : token.Passable)
    (settles : Settles rest before result) : Settles (token :: rest) before result := by
  cases result with
  | ok value after => exact settles
  | error fault after => exact settles.imp (.take passable) (.take passable)

theorem Settles.take (passable : token.Passable)
    (settles : Settles rest ⟨rest, findings, errors⟩ result) :
    Settles (token :: rest) ⟨token :: rest, findings, errors⟩ result := by
  cases result with
  | ok value after =>
      exact (State.Reaches.of_walk (.take passable (.stop rest)) _ _).trans settles
  | error fault after =>
      exact settles.imp (.take passable) fun later => (later.take passable).of_rest

theorem settles_of_endsBehind {reader : Reader α}
    (ends : Reader.EndsBehind token rest (reader rest)) :
    Settles (token :: rest) ⟨rest, findings, errors⟩
      (ofReader reader ⟨rest, findings, errors⟩) := by
  rw [ofReader]
  dsimp only
  cases run : reader rest with
  | ok value left =>
      rw [run] at ends
      exact State.Reaches.of_walk ends findings errors
  | error fault left =>
      rw [run] at ends
      exact .inl ⟨[], .of_rest ⟨rest, findings, errors⟩ left, ends⟩

end Settling

/-! ## Pieces -/

/-- How the reading of a piece ends.  A piece that is answered has at least one token. -/
def Passes (before : State) : EStateM.Result Fault State α → Prop
  | .ok _ after => before.Reaches after ∧ after.rest.length < before.rest.length
  | .error fault after =>
      before.Fails before.rest fault after ∨ before.GivesUp before.rest fault after

section Refusals

variable {before after : State} {fault : Fault}

/-- A run without room gives up. -/
theorem givesUp_of_passes (passes : Passes before (.error fault after : EStateM.Result _ _ α))
    (noRoom : fault.problem = .tooDeep) : before.GivesUp before.rest fault after := by
  rcases passes with fails | givesUp
  · exact .of_fails fails noRoom
  · exact givesUp

/-- A run with room fails with nothing but remarks on record. -/
theorem fails_of_passes (passes : Passes before (.error fault after : EStateM.Result _ _ α))
    (room : fault.problem ≠ .tooDeep) : before.Fails before.rest fault after := by
  rcases passes with fails | givesUp
  · exact fails
  · exact absurd givesUp.noRoom room

theorem room_of_fault (room : fault.problem ≠ .tooDeep) :
    (Finding.fault fault).isTooDeep = false := decide_eq_false room

end Refusals

section Pieces

variable {token : Token} {rest phrase left : List Token}
variable {findings : Array Finding} {errors : Nat}

/-- What is read behind a word passes. -/
theorem Settles.passes {result : EStateM.Result Fault State α} (passable : token.Passable)
    (settles : Settles (token :: rest) ⟨rest, findings, errors⟩ result) :
    Passes ⟨token :: rest, findings, errors⟩ result := by
  cases result with
  | error fault after => exact settles.imp_right (·.of_rest)
  | ok value after =>
      constructor
      · exact (State.Reaches.of_walk (.take passable (.stop rest)) _ _).trans settles
      · have shorter := (State.Reaches.suffix settles).length_le
        simp only [List.length_cons] at shorter ⊢
        omega

/-- The tokens of a statement and its semicolon are taken. -/
theorem taken_of_statement (isWord : token.kind = .identifier)
    (run : Reader.statement (token :: rest) = .ok phrase left) :
    ∃ semicolon, token :: rest = phrase ++ [semicolon] ++ left ∧ token ∈ phrase ∧
      ∀ taken ∈ phrase ++ [semicolon], taken.Passable := by
  have walk := Reader.walks_statement (token :: rest)
  rw [run] at walk
  obtain ⟨more, semicolon, rfl, -, rfl, -⟩ := statement_of_word isWord run
  obtain ⟨taken, split, passable⟩ := walk.exists_taken
  refine ⟨semicolon, by simp, by simp, ?_⟩
  have same : token :: more ++ [semicolon] = taken := by
    apply List.append_cancel_right
    rw [← split]
    simp
  rwa [same]

theorem passes_stateVariable (isWord : token.kind = .identifier)
    (run : Reader.statement (token :: rest) = .ok phrase left) (give : Tree.Variable → α) :
    Passes ⟨token :: rest, findings, errors⟩
      ((do return some (give (← stateVariable token phrase)) : Parser (Option α))
        ⟨left, findings, errors⟩) := by
  obtain ⟨semicolon, split, member, passable⟩ := taken_of_statement isWord run
  rw [stateVariable]
  cases settled : Tree.Variable.ofTokens token phrase with
  | ok node =>
      have walk := Walk.of_taken passable left
      rw [← split] at walk
      exact ⟨.of_walk walk _ _, Reader.takes_statement run⟩
  | error fault =>
      obtain ⟨known, shown, inside, place⟩ :=
        Tree.Variable.showsIn_ofTokens (List.ne_nil_of_mem member) fault settled
      have found : Walk (phrase ++ [semicolon] ++ left) left [.fault fault] :=
        .at_taken passable (.fault fault) (List.mem_append_left _ inside) place known.1 left
      rw [← split] at found
      exact .inl ⟨[], .of_rest _ left, found⟩

theorem passes_unrecognized (isWord : token.kind = .identifier)
    (run : Reader.statement (token :: rest) = .ok phrase left) :
    Passes ⟨token :: rest, findings, errors⟩
      ((remark .tolerant (.unrecognizedDirective token phrase) >>= fun _ =>
        pure (none : Option α)) ⟨left, findings, errors⟩) := by
  obtain ⟨semicolon, split, member, passable⟩ := taken_of_statement isWord run
  have found : Walk (phrase ++ [semicolon] ++ left) left
      ([.unrecognizedDirective token phrase].map .remark) :=
    .at_taken passable (.remark _) (List.mem_append_left _ member) rfl trivial left
  rw [← split] at found
  rw [bind_of_ok (remark_tolerant _ _)]
  exact ⟨.of_remarks (.note ⟨left, findings, errors⟩ _) found, Reader.takes_statement run⟩

variable {keyword : Mode → Token → Parser (Option α)}
variable {dispatch : Token → Option Token → Option (Mode → Parser α)}
variable {settle : Mode → Token → List Token → Parser (Option α)} {refuse : String → Problem}

/-- A piece passes when all that words announce settles and all statements pass. -/
theorem passes_piece (dispatches : Dispatches keyword dispatch)
    (announced : ∀ {token rest parser findings errors}, token.kind = .identifier →
      dispatch token rest.head? = some parser →
      Settles (token :: rest) ⟨rest, findings, errors⟩
        (parser .tolerant ⟨rest, findings, errors⟩))
    (stated : ∀ {token rest phrase left findings errors}, token.kind = .identifier →
      Reader.statement (token :: rest) = .ok phrase left →
      Passes ⟨token :: rest, findings, errors⟩
        (settle .tolerant token phrase ⟨left, findings, errors⟩))
    (known : ∀ text, refuse text ≠ .nothingLeft) :
    Passes ⟨token :: rest, findings, errors⟩
      (piece keyword settle refuse .tolerant ⟨token :: rest, findings, errors⟩) := by
  cases kind : token.kind with
  | semicolon =>
      have passable := Token.passable_of_kind kind (by simp)
      rw [piece_stray kind]
      refine ⟨.of_remarks (.note ⟨rest, findings, errors⟩ _) ?_, Nat.lt_succ_self _⟩
      exact .mark rfl trivial (.take passable (.stop rest))
  | identifier =>
      have passable := Token.passable_of_kind kind (by simp)
      cases looked : dispatch token rest.head? with
      | some parser =>
          rw [piece_announced dispatches kind looked]
          exact ((announced kind looked).map some).passes passable
      | none =>
          have ends := Reader.walks_statement (token :: rest)
          cases run : Reader.statement (token :: rest) with
          | ok phrase left =>
              rw [piece_of_statement dispatches kind looked run]
              exact stated kind run
          | error fault left =>
              rw [run] at ends
              have failed : ofReader Reader.statement ⟨token :: rest, findings, errors⟩ =
                  .error fault ⟨left, findings, errors⟩ := by
                rw [ofReader, run]
              have same : piece keyword settle refuse .tolerant ⟨token :: rest, findings, errors⟩ =
                  .error fault ⟨left, findings, errors⟩ := by
                rw [piece_word kind, bind_of_ok (dispatches.unannounced looked _ _ _)]
                exact bind_of_error failed
              rw [same]
              exact .inl ⟨[], .of_rest ⟨token :: rest, findings, errors⟩ left, ends⟩
  | _ =>
      rw [piece, front_bind]
      simp only [kind]
      exact .inl ⟨[], .refl _, Walk.single rfl (known _)⟩

end Pieces

end Interlock.Parser
