import Interlock.Proofs.Replay

/-!
# Pieces

The members of a contract and the elements of a source are read in the same way.  A
piece is what a keyword announces, a statement that is settled by its tokens, or a stray
semicolon.  Here that way of reading is one parser, and its quiet runs can be repeated:
a piece is the same wherever it stands.  A piece that answers nothing is left out when
its remarks are heeded; all others keep their first token.
-/

namespace Interlock.Parser

variable {α : Type}

/-- Reads a piece.  `keyword` reads what a keyword announces, `settle` answers a statement,
and `refuse` is the problem with a token that begins no piece. -/
def piece (keyword : Mode → Token → Parser (Option α))
    (settle : Mode → Token → List Token → Parser (Option α)) (refuse : String → Problem)
    (mode : Mode) : Parser (Option α) := do
  let token ← Reader.front
  match token.kind with
  | .semicolon =>
      let _ ← Reader.advance
      remark mode (.straySemicolon token)
      return none
  | .identifier =>
      match ← keyword mode token with
      | some found => return some found
      | none =>
          let tokens ← Reader.statement
          settle mode token tokens
  | _ => Reader.failAt (refuse token.text) token

/-- Goes on behind a word with the parser that it announces; without one nothing is read. -/
def announce (mode : Mode) : Option (Mode → Parser α) → Parser (Option α)
  | some parser => do
      let _ ← Reader.advance
      return some (← parser mode)
  | none => return none

/-- What a word announces depends on the word and the token behind it. -/
structure Dispatches (keyword : Mode → Token → Parser (Option α))
    (dispatch : Token → Option Token → Option (Mode → Parser α)) : Prop where
  read : ∀ mode token, keyword mode token = do
    announce mode (dispatch token (← Reader.peek 1))
  replays : ∀ {token next parser}, dispatch token next = some parser → ReplaysFront parser

namespace Dispatches

variable {keyword : Mode → Token → Parser (Option α)}
variable {dispatch : Token → Option Token → Option (Mode → Parser α)}
variable {token : Token} {rest : List Token}

theorem announced (dispatches : Dispatches keyword dispatch) {parser : Mode → Parser α}
    (found : dispatch token rest.head? = some parser) (mode : Mode) (findings : Array Finding)
    (errors : Nat) :
    keyword mode token ⟨token :: rest, findings, errors⟩ =
      (parser mode >>= fun found => pure (some found)) ⟨rest, findings, errors⟩ := by
  have next : (token :: rest)[1]? = rest.head? := by cases rest <;> rfl
  rw [dispatches.read, peek_bind, next, found]
  rfl

theorem unannounced (dispatches : Dispatches keyword dispatch)
    (absent : dispatch token rest.head? = none) (mode : Mode) (findings : Array Finding)
    (errors : Nat) :
    keyword mode token ⟨token :: rest, findings, errors⟩ =
      .ok none ⟨token :: rest, findings, errors⟩ := by
  have next : (token :: rest)[1]? = rest.head? := by cases rest <;> rfl
  rw [dispatches.read, peek_bind, next, absent]
  rfl

end Dispatches

/-- A statement is refused, answered or odd, and which of them does not depend on the mode. -/
inductive Settled (token : Token) (phrase : List Token)
    (settle : Mode → Parser (Option α)) : Prop where
  | refused (fault : Fault) : (∀ mode, settle mode = throw fault) → Settled token phrase settle
  | given (value : α) : (∀ mode, settle mode = pure (some value)) → Settled token phrase settle
  | odd : (∀ mode, settle mode =
      remark mode (.unrecognizedDirective token phrase) >>= fun _ => pure none) →
      Settled token phrase settle

/-- Whether a piece may begin at the front: at a word or a semicolon. -/
def BeginsPiece (tokens : List Token) : Prop :=
  ∃ token rest, tokens = token :: rest ∧ (token.kind = .identifier ∨ token.kind = .semicolon)

/-- A piece of a source: its tokens are read to the last one whatever stands behind them.
Strictly it answers the same without what its remarks are about; a piece without an answer
is then left out. -/
structure Piece (parser : Mode → Parser (Option α)) (answer : Option α)
    (remarks : List Remark) (taken kept : List Token) : Prop where
  pruned : Pruned remarks taken kept
  begins : BeginsPiece taken
  tolerant : ∀ rest findings errors, errors < errorLimit →
    parser .tolerant ⟨taken ++ rest, findings, errors⟩ =
      .ok answer ((State.mk rest findings errors).note remarks)
  left_out : answer = none → kept = []
  strict : answer ≠ none → BeginsPiece kept ∧ ∀ rest findings errors,
    parser .strict ⟨kept ++ rest, findings, errors⟩ = .ok answer ⟨rest, findings, errors⟩

section Reading

variable {keyword : Mode → Token → Parser (Option α)}
variable {dispatch : Token → Option Token → Option (Mode → Parser α)}
variable {settle : Mode → Token → List Token → Parser (Option α)} {refuse : String → Problem}
variable {token : Token} {rest : List Token} {findings : Array Finding} {errors : Nat}

theorem piece_stray (isSemicolon : token.kind = .semicolon) :
    piece keyword settle refuse .tolerant ⟨token :: rest, findings, errors⟩ =
      .ok none ((State.mk rest findings errors).note [.straySemicolon token]) := by
  rw [piece, front_bind]
  simp only [isSemicolon]
  rw [advance_bind, bind_of_ok (remark_tolerant _ _)]
  rfl

/-- A piece that begins with a word is what the word announces, or a statement. -/
theorem piece_word (isWord : token.kind = .identifier) (mode : Mode) :
    piece keyword settle refuse mode ⟨token :: rest, findings, errors⟩ =
      (keyword mode token >>= fun found =>
        match found with
        | some found => pure (some found)
        | none => ofReader Reader.statement >>= settle mode token)
        ⟨token :: rest, findings, errors⟩ := by
  rw [piece, front_bind]
  simp only [isWord]
  rfl

/-- Behind a word that announces a parser, the piece is what that parser reads. -/
theorem piece_announced (dispatches : Dispatches keyword dispatch)
    (isWord : token.kind = .identifier) {parser : Mode → Parser α}
    (found : dispatch token rest.head? = some parser) (mode : Mode) :
    piece keyword settle refuse mode ⟨token :: rest, findings, errors⟩ =
      (parser mode >>= fun value => pure (some value)) ⟨rest, findings, errors⟩ := by
  rw [piece_word isWord, bind_of_eq (dispatches.announced found mode findings errors), bind_assoc]
  simp only [pure_bind]

theorem piece_of_statement (dispatches : Dispatches keyword dispatch)
    (isWord : token.kind = .identifier) (absent : dispatch token rest.head? = none)
    {phrase left : List Token} (run : Reader.statement (token :: rest) = .ok phrase left)
    (mode : Mode) :
    piece keyword settle refuse mode ⟨token :: rest, findings, errors⟩ =
      settle mode token phrase ⟨left, findings, errors⟩ := by
  rw [piece_word isWord, bind_of_ok (dispatches.unannounced absent mode findings errors)]
  exact bind_of_ok (ofReader_of_ok run findings errors)

/-- A run that answers reads a stray semicolon, what a keyword announces, or a statement. -/
theorem piece_cases (dispatches : Dispatches keyword dispatch) {answer : Option α}
    {before after : State}
    (run : piece keyword settle refuse .tolerant before = .ok answer after) :
    ∃ token rest, before.rest = token :: rest ∧
      (token.kind = .semicolon ∧ answer = none ∧ after.rest = rest ∨
      token.kind = .identifier ∧
        ((∃ parser value, dispatch token rest.head? = some parser ∧ answer = some value ∧
          parser .tolerant ⟨rest, before.findings, before.errors⟩ = .ok value after) ∨
        (∃ phrase left, dispatch token rest.head? = none ∧
          Reader.statement before.rest = .ok phrase left ∧
          settle .tolerant token phrase ⟨left, before.findings, before.errors⟩ =
            .ok answer after))) := by
  obtain ⟨tokens, findings, errors⟩ := before
  cases tokens with
  | nil => cases run
  | cons token rest =>
  refine ⟨token, rest, rfl, ?_⟩
  cases kind : token.kind with
  | semicolon =>
      rw [piece_stray kind] at run
      cases run
      exact .inl ⟨rfl, rfl, rfl⟩
  | identifier =>
      refine .inr ⟨rfl, ?_⟩
      rw [piece_word kind] at run
      obtain ⟨found, between, read, later⟩ := bind_eq_ok_iff.1 run
      cases looked : dispatch token rest.head? with
      | some parser =>
          rw [dispatches.announced looked] at read
          obtain ⟨value, _, parsed, answered⟩ := bind_eq_ok_iff.1 read
          obtain ⟨rfl, rfl⟩ := pure_eq_ok_iff.1 answered
          obtain ⟨rfl, rfl⟩ := pure_eq_ok_iff.1 later
          exact .inl ⟨parser, value, rfl, rfl, parsed⟩
      | none =>
          rw [dispatches.unannounced looked] at read
          cases read
          obtain ⟨phrase, between, statementRun, settledRun⟩ := bind_eq_ok_iff.1 later
          obtain ⟨read, sameFindings, sameErrors⟩ := ofReader_eq_ok_iff.1 statementRun
          refine .inr ⟨phrase, between.rest, rfl, read, ?_⟩
          rw [← sameFindings, ← sameErrors]
          exact settledRun
  | _ =>
      rw [piece, front_bind] at run
      simp only [kind] at run
      cases run

/-- The tokens of a statement as a piece: behind the word `token` stand the rest of a phrase
and a semicolon. -/
theorem statement_of_word (isWord : token.kind = .identifier) {phrase left : List Token}
    (run : Reader.statement (token :: rest) = .ok phrase left) :
    ∃ more semicolon, phrase = token :: more ∧ semicolon.kind = .semicolon ∧
      rest = more ++ semicolon :: left ∧
      ∀ other, Reader.statement (token :: (more ++ semicolon :: other)) = .ok phrase other := by
  obtain ⟨reads, semicolon, ends, split⟩ := Reader.statement_eq_ok_iff.1 run
  cases phrase with
  | nil =>
      obtain ⟨rfl, -⟩ := List.cons.inj split
      rw [isWord] at ends
      cases ends
  | cons first more =>
      obtain ⟨rfl, rfl⟩ := List.cons.inj split
      refine ⟨more, semicolon, rfl, ends, rfl, fun other => ?_⟩
      exact Reader.statement_eq_ok_iff.2 ⟨reads, semicolon, ends, rfl⟩

/-- A statement is a piece by itself when its tokens settle it. -/
theorem piece_statement (dispatches : Dispatches keyword dispatch)
    (isWord : token.kind = .identifier) (absent : dispatch token rest.head? = none)
    {phrase left : List Token} (run : Reader.statement (token :: rest) = .ok phrase left)
    (settled : Settled token phrase fun mode => settle mode token phrase)
    {answer : Option α} {before after : State}
    (settledRun : settle .tolerant token phrase before = .ok answer after)
    (same : before.rest = left) :
    ∃ remarks taken kept, token :: rest = taken ++ after.rest ∧
      Piece (piece keyword settle refuse) answer remarks taken kept := by
  obtain ⟨more, semicolon, rfl, ends, rfl, again⟩ := statement_of_word isWord run
  have begins : BeginsPiece (token :: (more ++ [semicolon])) :=
    ⟨token, _, rfl, .inl isWord⟩
  -- Whether the word announces something depends on the token behind it, which is kept.
  have read (mode : Mode) (other : List Token) (findings : Array Finding) (errors : Nat) :
      piece keyword settle refuse mode
          ⟨token :: (more ++ [semicolon]) ++ other, findings, errors⟩ =
        settle mode token (token :: more) ⟨other, findings, errors⟩ := by
    have still : dispatch token (more ++ semicolon :: other).head? = none := by
      rw [← absent]
      cases more <;> rfl
    have shape : token :: (more ++ [semicolon]) ++ other =
        token :: (more ++ semicolon :: other) := by simp
    rw [shape]
    exact piece_of_statement dispatches isWord still (again other) mode
  cases settled with
  | refused fault refuses =>
      rw [refuses] at settledRun
      cases settledRun
  | given value gives =>
      rw [gives] at settledRun
      obtain ⟨rfl, rfl⟩ := pure_eq_ok_iff.1 settledRun
      have answers (mode : Mode) (other : List Token) (findings : Array Finding) (errors : Nat) :
          piece keyword settle refuse mode
              ⟨token :: (more ++ [semicolon]) ++ other, findings, errors⟩ =
            .ok (some value) ⟨other, findings, errors⟩ := by
        rw [read, gives]
        rfl
      refine ⟨[], _, _, ?_, .refl _, begins, ?_, nofun, ?_⟩
      · simp [same]
      · intro other findings errors _
        rw [answers, State.note_nil]
      · intro _
        exact ⟨begins, answers .strict⟩
  | odd oddly =>
      rw [oddly, bind_of_ok (remark_tolerant _ _)] at settledRun
      obtain ⟨rfl, rfl⟩ := pure_eq_ok_iff.1 settledRun
      refine ⟨[.unrecognizedDirective token (token :: more)], _, [], ?_,
        Pruned.single (.directive ends), begins, ?_, fun _ => rfl, nofun⟩
      · simp [same]
      · intro other findings errors _
        change piece keyword settle refuse .tolerant
          ⟨token :: (more ++ [semicolon]) ++ other, findings, errors⟩ = _
        rw [read, oddly, bind_of_ok (remark_tolerant _ _)]
        rfl

/-- A quiet run has read a piece. -/
theorem exists_piece (dispatches : Dispatches keyword dispatch)
    (settled : ∀ token phrase, Settled token phrase fun mode => settle mode token phrase)
    {answer : Option α} {before after : State}
    (quiet : Quiet (piece keyword settle refuse .tolerant) answer before after) :
    ∃ remarks taken kept, before.rest = taken ++ after.rest ∧
      Piece (piece keyword settle refuse) answer remarks taken kept := by
  obtain ⟨token, rest, front, ⟨isSemicolon, rfl, rfl⟩ | ⟨isWord, announced | stated⟩⟩ :=
    piece_cases dispatches quiet.run
  · refine ⟨[.straySemicolon token], [token], [], front, Pruned.single .stray,
      ⟨token, [], rfl, .inr isSemicolon⟩, ?_, fun _ => rfl, nofun⟩
    intro rest findings errors _
    exact piece_stray isSemicolon
  · obtain ⟨parser, value, found, rfl, run⟩ := announced
    obtain ⟨remarks, next, taken, kept, split, replay⟩ :=
      dispatches.replays found ⟨run, quiet.limit, quiet.errors⟩
    simp only at split
    subst split
    refine ⟨remarks, token :: next :: taken, token :: next :: kept, front,
      .keep token replay.pruned, ⟨token, _, rfl, .inl isWord⟩, ?_, nofun, ?_⟩
    · intro rest findings errors limit
      refine (piece_announced dispatches isWord (by exact found) .tolerant).trans ?_
      exact bind_of_ok (replay.tolerant rest findings errors limit)
    · intro _
      refine ⟨⟨token, _, rfl, .inl isWord⟩, fun rest findings errors => ?_⟩
      refine (piece_announced dispatches isWord (by exact found) .strict).trans ?_
      exact bind_of_ok (replay.strict rest findings errors)
  · obtain ⟨phrase, left, absent, run, settledRun⟩ := stated
    rw [front] at run
    rw [front]
    exact piece_statement dispatches isWord absent run (settled token phrase) settledRun rfl

end Reading

/-! ## Sequences of pieces -/

/-- Pieces one behind the other, with the answers that they give. -/
inductive Pieces (parser : Mode → Parser (Option α)) :
    List α → List Remark → List Token → List Token → Prop where
  | nil : Pieces parser [] [] [] []
  | cons {answer : Option α} {values : List α} {remarks more : List Remark}
      {taken kept rest keptRest : List Token} :
      Piece parser answer remarks taken kept → Pieces parser values more rest keptRest →
      Pieces parser (answer.toList ++ values) (remarks ++ more) (taken ++ rest)
        (kept ++ keptRest)

theorem Pieces.pruned {parser : Mode → Parser (Option α)} {values : List α}
    {remarks : List Remark} {taken kept : List Token}
    (pieces : Pieces parser values remarks taken kept) : Pruned remarks taken kept := by
  induction pieces with
  | nil => exact .nil
  | cons piece _ ih => exact piece.pruned.append ih

section Sequence

variable {parser : Mode → Parser (Option α)} {values more : List α}
variable {remarks moreRemarks : List Remark} {taken kept rest keptRest : List Token}

theorem Pieces.single {answer : Option α} (piece : Piece parser answer remarks taken kept) :
    Pieces parser answer.toList remarks taken kept := by
  simpa using Pieces.cons piece .nil

theorem Pieces.append (first : Pieces parser values remarks taken kept)
    (second : Pieces parser more moreRemarks rest keptRest) :
    Pieces parser (values ++ more) (remarks ++ moreRemarks) (taken ++ rest)
      (kept ++ keptRest) := by
  induction first with
  | nil => exact second
  | cons piece _ ih =>
      simp only [List.append_assoc]
      exact .cons piece ih

/-- Two pieces at the front of one list are the same. -/
theorem Piece.unique {answer other : Option α} {otherRemarks : List Remark}
    {otherTaken otherKept otherRest : List Token}
    (piece : Piece parser answer remarks taken kept)
    (again : Piece parser other otherRemarks otherTaken otherKept)
    (same : taken ++ rest = otherTaken ++ otherRest) :
    answer = other ∧ taken = otherTaken := by
  have first := piece.tolerant rest #[] 0 (by decide)
  have second := again.tolerant otherRest #[] 0 (by decide)
  rw [same] at first
  injection first.symm.trans second with answers states
  have rests : rest = otherRest := congrArg State.rest states
  subst rests
  exact ⟨answers, List.append_cancel_right same⟩

/-- Pieces in front of others are the first of all. -/
theorem Pieces.of_append {all : List α} {allRemarks : List Remark} {allKept : List Token}
    (first : Pieces parser values remarks taken kept)
    (whole : Pieces parser all allRemarks (taken ++ rest) allKept) :
    ∃ more moreRemarks keptRest, Pieces parser more moreRemarks rest keptRest ∧
      all = values ++ more := by
  induction first generalizing all allRemarks allKept with
  | nil => exact ⟨all, allRemarks, allKept, whole, rfl⟩
  | @cons answer values remarks moreRemarks taken kept later keptLater piece _ ih =>
      rw [List.append_assoc] at whole
      generalize tokens : taken ++ (later ++ rest) = full at whole
      cases whole with
      | nil =>
          obtain ⟨token, own, rfl, -⟩ := piece.begins
          cases tokens
      | cons other others =>
          obtain ⟨rfl, rfl⟩ := piece.unique other tokens
          obtain rfl := List.append_cancel_left tokens
          obtain ⟨more, moreRemarks, keptRest, pieces, rfl⟩ := ih others
          exact ⟨more, moreRemarks, keptRest, pieces, by simp⟩

/-- Every answer has its piece, with pieces before and behind it. -/
theorem Pieces.of_mem (pieces : Pieces parser values remarks taken kept) {value : α}
    (member : value ∈ values) :
    ∃ earlier earlierRemarks before keptBefore itsRemarks own itsKept after,
      taken = before ++ (own ++ after) ∧
      Pieces parser earlier earlierRemarks before keptBefore ∧
      Piece parser (some value) itsRemarks own itsKept := by
  induction pieces with
  | nil => cases member
  | @cons answer values remarks moreRemarks taken kept later keptLater piece pieces ih =>
      rcases List.mem_append.1 member with here | there
      · obtain rfl : answer = some value := by simpa using here
        exact ⟨[], [], [], [], remarks, taken, kept, later, rfl, .nil, piece⟩
      · obtain ⟨earlier, earlierRemarks, before, keptBefore, itsRemarks, own, itsKept, after, rfl,
          first, its⟩ := ih there
        exact ⟨_, _, _, _, itsRemarks, own, itsKept, after, by simp, .cons piece first, its⟩

end Sequence

section Loop

variable {parser : Mode → Parser (Option α)} {step : Mode → Array α → Parser (ForInStep (Array α))}
variable {values : Array α} {found : List α} {remarks : List Remark} {taken kept : List Token}

theorem elim_push_append (values : Array α) (answer : Option α) (found : List α) :
    answer.elim values values.push ++ found.toArray =
      values ++ (answer.toList ++ found).toArray := by
  cases answer <;> simp

/-- A repetition whose steps read pieces goes through a sequence of them. -/
theorem loop_pieces
    (steps : ∀ {mode values answer before after}, BeginsPiece before.rest →
      (mode = .tolerant → before.errors < errorLimit) → parser mode before = .ok answer after →
      step mode values before = .ok (.yield (answer.elim values values.push)) after)
    (pieces : Pieces parser found remarks taken kept) (values : Array α) (rest : List Token)
    (findings : Array Finding) (errors : Nat) :
    (errors < errorLimit →
      loop values (step .tolerant) ⟨taken ++ rest, findings, errors⟩ =
        loop (values ++ found.toArray) (step .tolerant)
          ((State.mk rest findings errors).note remarks)) ∧
    loop values (step .strict) ⟨kept ++ rest, findings, errors⟩ =
      loop (values ++ found.toArray) (step .strict) ⟨rest, findings, errors⟩ := by
  induction pieces generalizing values findings with
  | nil => simp
  | @cons answer found remarks more taken kept later keptLater piece pieces ih =>
      rw [← elim_push_append, ← State.note_note, List.append_assoc, List.append_assoc]
      constructor
      · intro limit
        obtain ⟨token, own, rfl, kinds⟩ := piece.begins
        have read := piece.tolerant (later ++ rest) findings errors limit
        refine (loop_of_yield (steps ⟨token, _, rfl, kinds⟩ (fun _ => limit) read) ?_).trans
          ((ih _ _).1 limit)
        simp only [State.note_rest, List.length_cons, List.length_append]
        omega
      · cases answer with
        | none =>
            rw [piece.left_out rfl]
            exact (ih values findings).2
        | some value =>
            obtain ⟨⟨token, own, rfl, kinds⟩, again⟩ := piece.strict nofun
            have going : Mode.strict = .tolerant → errors < errorLimit := nofun
            have read := again (keptLater ++ rest) findings errors
            refine (loop_of_yield (steps ⟨token, _, rfl, kinds⟩ going read) ?_).trans
              (ih _ findings).2
            simp only [List.length_cons, List.length_append]
            omega

/-- A quiet repetition whose steps read pieces has read a sequence of them, up to a step
that ends it. -/
theorem pieces_of_loop (ends : State → State → Prop)
    {tolerant : Array α → Parser (ForInStep (Array α))}
    (cases : ∀ {values answer before after}, Quiet (tolerant values) answer before after →
      ends before after ∧ answer = .done values ∨
      ∃ found, Quiet (parser .tolerant) found before after ∧
        answer = .yield (found.elim values values.push))
    (reads : ∀ {answer before after}, Quiet (parser .tolerant) answer before after →
      ∃ remarks taken kept, before.rest = taken ++ after.rest ∧
        Piece parser answer remarks taken kept)
    {result : Array α} {before after : State}
    (chain : QuietSteps tolerant values before result after) :
    ∃ found remarks taken kept last, before.rest = taken ++ last.rest ∧ ends last after ∧
      Pieces parser found remarks taken kept ∧ result = values ++ found.toArray := by
  induction chain with
  | @done values result before after quiet =>
      rcases cases quiet with ⟨ended, same⟩ | ⟨_, _, impossible⟩
      · injection same with same
        exact ⟨[], [], [], [], before, rfl, ended, .nil, by simp [same]⟩
      · injection impossible
  | next quiet _ ih =>
      rcases cases quiet with ⟨-, impossible⟩ | ⟨answer, partQuiet, same⟩
      · injection impossible
      injection same with same
      subst same
      obtain ⟨remarks, taken, kept, split, piece⟩ := reads partQuiet
      obtain ⟨found, more, later, keptLater, last, laterSplit, ended, pieces, rfl⟩ := ih
      refine ⟨_, _, _, _, last, ?_, ended, .cons piece pieces, elim_push_append ..⟩
      rw [split, laterSplit, List.append_assoc]
  | stall quiet stuck =>
      rcases cases quiet with ⟨-, impossible⟩ | ⟨answer, partQuiet, -⟩
      · injection impossible
      obtain ⟨remarks, taken, kept, split, piece⟩ := reads partQuiet
      obtain ⟨token, own, rfl, -⟩ := piece.begins
      rw [split] at stuck
      simp only [List.length_cons, List.length_append] at stuck
      omega

end Loop

end Interlock.Parser
