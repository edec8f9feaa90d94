import Interlock.Proofs.Agreement
import Interlock.Proofs.Declaration
import Interlock.Proofs.Pruning

/-!
# Runs that can be repeated

A tolerant run that counts no error has taken some tokens and noted some remarks.  It
can be repeated: on the same tokens whatever stands behind them, and strictly on what
is left of them without the tokens that the remarks are about.

Readers repeat because they are local.  In a header a keyword that says something again
may stand between an item and the next one, so there the items are shown to look the
same to what stands before them.
-/

namespace Interlock.Parser

variable {α β : Type}

/-- A run that answers below the error limit and counts no error. -/
structure Quiet (parser : Parser α) (value : α) (before after : State) : Prop where
  run : parser before = .ok value after
  limit : before.errors < errorLimit
  errors : after.errors = before.errors

namespace Quiet

variable {parser : Parser α} {next : α → Parser β} {before after : State}

/-- A quiet run of a sequence is a quiet run of its parts, one behind the other. -/
theorem of_bind {value : β} (quiet : Quiet (parser >>= next) value before after)
    (first : Records parser) (second : ∀ found, Records (next found)) :
    ∃ found between, Quiet parser found before between ∧
      Quiet (next found) value between after := by
  obtain ⟨found, between, opening, rest⟩ := bind_eq_ok_iff.1 quiet.run
  have early : before.errors ≤ between.errors := by
    have extended := first before
    rw [opening] at extended
    exact extended.errors_le
  have late : between.errors ≤ after.errors := by
    have extended := second found between
    rw [rest] at extended
    exact extended.errors_le
  have same : between.errors = before.errors :=
    Nat.le_antisymm (quiet.errors ▸ late) early
  exact ⟨found, between, ⟨opening, quiet.limit, same⟩,
    ⟨rest, same ▸ quiet.limit, quiet.errors.trans same.symm⟩⟩

theorem of_reader_bind {reader : Reader α} {value : β}
    (quiet : Quiet (ofReader reader >>= next) value before after) :
    ∃ found left, reader before.rest = .ok found left ∧
      Quiet (next found) value ⟨left, before.findings, before.errors⟩ after := by
  obtain ⟨found, between, opening, rest⟩ := bind_eq_ok_iff.1 quiet.run
  obtain ⟨read, findings, errors⟩ := ofReader_eq_ok_iff.1 opening
  have same : between = ⟨between.rest, before.findings, before.errors⟩ := by
    rw [← findings, ← errors]
  refine ⟨found, between.rest, read, ?_, quiet.limit, quiet.errors⟩
  rw [← same]
  exact rest

end Quiet

/-- The quiet runs of a repetition, step by step. -/
inductive QuietSteps (step : β → Parser (ForInStep β)) : β → State → β → State → Prop where
  | done {value result : β} {before after : State} :
      Quiet (step value) (.done result) before after →
      QuietSteps step value before result after
  | next {value found result : β} {before between after : State} :
      Quiet (step value) (.yield found) before between →
      QuietSteps step found between result after →
      QuietSteps step value before result after
  | stall {value result : β} {before after : State} :
      Quiet (step value) (.yield result) before after →
      ¬ after.rest.length < before.rest.length →
      QuietSteps step value before result after

theorem quietSteps_of_loop {step : β → Parser (ForInStep β)}
    (records : ∀ value, Records (step value)) {value result : β} {before after : State}
    (quiet : Quiet (loop value step) result before after) :
    QuietSteps step value before result after := by
  obtain ⟨run, limit, errors⟩ := quiet
  have chain := steps_of_loop run
  have grows {value : β} {answer : ForInStep β} {before after : State}
      (run : step value before = .ok answer after) : before.errors ≤ after.errors := by
    have extended := records value before
    rw [run] at extended
    exact extended.errors_le
  have grow {value result : β} {before after : State}
      (chain : Steps (fun state : State => state.rest.length) step value before result after) :
      before.errors ≤ after.errors := by
    induction chain with
    | done run => exact grows run
    | next run _ _ ih => exact Nat.le_trans (grows run) ih
    | stall run _ => exact grows run
  clear run
  induction chain with
  | done run => exact .done ⟨run, limit, errors⟩
  | next run _ later ih =>
      have same := Nat.le_antisymm (errors ▸ grow later) (grows run)
      exact .next ⟨run, limit, same⟩ (ih (same ▸ limit) (errors.trans same.symm))
  | stall run stuck => exact .stall ⟨run, limit, errors⟩ stuck

/-- A parser answers a value on some tokens whatever stands behind them, with some remarks;
strictly it answers the same on what is left of them without what the remarks are about. -/
structure Replay (parser : Mode → Parser α) (value : α) (remarks : List Remark)
    (taken kept : List Token) : Prop where
  pruned : Pruned remarks taken kept
  tolerant : ∀ rest findings errors, errors < errorLimit →
    parser .tolerant ⟨taken ++ rest, findings, errors⟩ =
      .ok value ((State.mk rest findings errors).note remarks)
  strict : ∀ rest findings errors,
    parser .strict ⟨kept ++ rest, findings, errors⟩ = .ok value ⟨rest, findings, errors⟩

namespace Replay

variable {parser : Mode → Parser α} {value : α} {remarks : List Remark}
variable {taken kept : List Token}

theorem map (replay : Replay parser value remarks taken kept) (give : α → β) :
    Replay (fun mode => parser mode >>= fun value => pure (give value)) (give value) remarks
      taken kept where
  pruned := replay.pruned
  tolerant rest findings errors limit :=
    bind_of_ok (replay.tolerant rest findings errors limit)
  strict rest findings errors := bind_of_ok (replay.strict rest findings errors)

/-- A reader in front of what can be repeated is repeated with it, if what it sees behind
its own tokens stays the same. -/
theorem reader_bind {look : Look} {reader : Reader β} {next : Mode → β → Parser α} {found : β}
    {left : List Token} (own : List Token)
    (again : ∀ rest, look.sees left rest → reader (own ++ rest) = .ok found rest)
    (sees : ∀ rest, look.sees left (taken ++ rest) ∧ look.sees left (kept ++ rest))
    (replay : Replay (fun mode => next mode found) value remarks taken kept) :
    Replay (fun mode => ofReader reader >>= next mode) value remarks (own ++ taken)
      (own ++ kept) where
  pruned := (Pruned.refl own).append replay.pruned
  tolerant rest findings errors limit := by
    rw [List.append_assoc,
      bind_of_ok (ofReader_of_ok (again _ (sees rest).1) findings errors)]
    exact replay.tolerant rest findings errors limit
  strict rest findings errors := by
    rw [List.append_assoc,
      bind_of_ok (ofReader_of_ok (again _ (sees rest).2) findings errors)]
    exact replay.strict rest findings errors

end Replay

/-- A parser whose quiet runs can be repeated. -/
def Replays (parser : Mode → Parser α) : Prop :=
  ∀ ⦃value : α⦄ ⦃before after : State⦄, Quiet (parser .tolerant) value before after →
    ∃ remarks taken kept, before.rest = taken ++ after.rest ∧
      Replay parser value remarks taken kept

/-- A parser whose quiet runs can be repeated, and whose first token is never left out. -/
def ReplaysFront (parser : Mode → Parser α) : Prop :=
  ∀ ⦃value : α⦄ ⦃before after : State⦄, Quiet (parser .tolerant) value before after →
    ∃ remarks token taken kept, before.rest = token :: (taken ++ after.rest) ∧
      Replay parser value remarks (token :: taken) (token :: kept)

namespace ReplaysFront

theorem of_reader {reader : Reader α} (read : Reader.Local .nothing reader)
    (takes : Reader.Takes reader) : ReplaysFront fun _ => ofReader reader := by
  rintro value ⟨tokens, findings, errors⟩ after quiet
  obtain ⟨run, -, -⟩ := ofReader_eq_ok_iff.1 quiet.run
  cases tokens with
  | nil => exact absurd (takes run) (Nat.not_lt_zero _)
  | cons token more =>
      obtain ⟨taken, rfl, again⟩ := read.taken_cons takes run
      refine ⟨[], token, taken, taken, rfl, .refl _, ?_, ?_⟩
      · intro rest findings errors _
        rw [State.note_nil]
        exact ofReader_of_ok (again rest trivial) findings errors
      · intro rest findings errors
        exact ofReader_of_ok (again rest trivial) findings errors

/-- What a reader sees behind its own tokens is the first token of the next parser. -/
theorem reader_bind {look : Look} {reader : Reader α} {next : Mode → α → Parser β}
    (read : Reader.Local look reader)
    (second : ∀ found, ReplaysFront fun mode => next mode found) :
    ReplaysFront fun mode => ofReader reader >>= next mode := by
  intro value before after quiet
  obtain ⟨found, left, run, later⟩ := quiet.of_reader_bind
  obtain ⟨own, split, again⟩ := read run
  obtain ⟨remarks, token, taken, kept, laterSplit, replay⟩ := second found later
  simp only at laterSplit
  subst laterSplit
  have both := replay.reader_bind own again fun rest => ⟨look.same .., look.same ..⟩
  cases own with
  | nil => exact ⟨remarks, token, taken, kept, split, both⟩
  | cons head own =>
      exact ⟨remarks, head, _, _, by simpa using split, both⟩

/-- A reader that sees nothing of what follows may stand in front of any run that can be
repeated. -/
theorem of_reader_bind {reader : Reader α} {next : Mode → α → Parser β}
    (read : Reader.Local .nothing reader) (takes : Reader.Takes reader)
    (second : ∀ found, Replays fun mode => next mode found) :
    ReplaysFront fun mode => ofReader reader >>= next mode := by
  rintro value ⟨tokens, findings, errors⟩ after quiet
  obtain ⟨found, left, run, later⟩ := quiet.of_reader_bind
  cases tokens with
  | nil => exact absurd (takes run) (Nat.not_lt_zero _)
  | cons token more =>
      obtain ⟨own, rfl, again⟩ := read.taken_cons takes run
      obtain ⟨remarks, taken, kept, laterSplit, replay⟩ := second found later
      simp only at laterSplit
      subst laterSplit
      have both := replay.reader_bind (token :: own) again
        fun rest => ⟨trivial, trivial⟩
      exact ⟨remarks, token, own ++ taken, own ++ kept, by simp, both⟩

theorem map {parser : Mode → Parser α} (parse : ReplaysFront parser) (agrees : Agrees parser)
    (give : α → β) : ReplaysFront fun mode => parser mode >>= fun value => pure (give value) := by
  intro value before after quiet
  obtain ⟨found, between, first, later⟩ :=
    quiet.of_bind agrees.records fun _ => Records.pure _
  obtain ⟨rfl, rfl⟩ := pure_eq_ok_iff.1 later.run
  obtain ⟨remarks, token, taken, kept, split, replay⟩ := parse first
  exact ⟨remarks, token, taken, kept, split, replay.map give⟩

end ReplaysFront

theorem Replays.map {parser : Mode → Parser α} (parse : Replays parser)
    (agrees : Agrees parser) (give : α → β) :
    Replays fun mode => parser mode >>= fun value => pure (give value) := by
  intro value before after quiet
  obtain ⟨found, between, first, later⟩ :=
    quiet.of_bind agrees.records fun _ => Records.pure _
  obtain ⟨rfl, rfl⟩ := pure_eq_ok_iff.1 later.run
  obtain ⟨remarks, taken, kept, split, replay⟩ := parse first
  exact ⟨remarks, taken, kept, split, replay.map give⟩

/-! ## Headers -/

/-- A parser that notes nothing and repeats in either mode wherever the header goes on. -/
def Steady (parser : Parser α) : Prop :=
  ∀ ⦃value : α⦄ ⦃before after : State⦄, parser before = .ok value after →
    ∃ taken, before.rest = taken ++ after.rest ∧
      ∀ rest findings errors, Look.item.sees after.rest rest →
        parser ⟨taken ++ rest, findings, errors⟩ = .ok value ⟨rest, findings, errors⟩

theorem Steady.pure (value : α) : Steady (pure value) := by
  intro found before after run
  obtain ⟨rfl, rfl⟩ := pure_eq_ok_iff.1 run
  exact ⟨[], rfl, fun _ _ _ _ => rfl⟩

theorem Steady.reader {reader : Reader α} (read : Reader.Local .item reader) (give : α → β) :
    Steady (ofReader reader >>= fun found => Pure.pure (give found)) := by
  intro value before after run
  obtain ⟨found, between, readRun, answer⟩ := bind_eq_ok_iff.1 run
  obtain ⟨rfl, rfl⟩ := pure_eq_ok_iff.1 answer
  obtain ⟨taken, split, again⟩ := read (ofReader_eq_ok_iff.1 readRun).1
  refine ⟨taken, split, fun rest findings errors sees => ?_⟩
  exact bind_of_ok (ofReader_of_ok (again rest sees) findings errors)

/-- A word in a header is a keyword that says something again, or it begins an item. -/
theorem headerItem_cases (header : Header) (token : Token) :
    (∃ previous, headerItem .tolerant header token = do
      let _ ← (liftM Reader.advance : Parser _)
      remark .tolerant (.duplicateSpecifier token previous)
      return header) ∨
    ∃ item : Parser Header, Steady item ∧ ∀ mode,
      headerItem mode header token = (liftM Reader.advance : Parser _) >>= fun _ => item := by
  cases visible : Visibility.ofWord? token.text with
  | some visibility =>
      cases previous : header.visibility with
      | some earlier =>
          exact .inl ⟨earlier.word, by simp only [headerItem, visible, previous]⟩
      | none =>
          refine .inr ⟨_, .pure { header with visibility := visibility }, fun mode => ?_⟩
          simp only [headerItem, visible, previous]
  | none =>
  cases changing : Mutability.ofWord? token.text with
  | some mutability =>
      cases previous : header.mutability with
      | some earlier =>
          exact .inl ⟨earlier.word, by simp only [headerItem, visible, changing, previous]⟩
      | none =>
          refine .inr ⟨_, .pure { header with mutability := mutability }, fun mode => ?_⟩
          simp only [headerItem, visible, changing, previous]
  | none =>
      right
      simp only [headerItem, visible, changing]
      split
      · exact ⟨_, .pure _, fun _ => rfl⟩
      · split
        · exact ⟨_, .reader Reader.local_parenthesized? _, fun _ => rfl⟩
        · split
          · exact ⟨_, .reader (Reader.local_shaped _ _).of_nothing _, fun _ => rfl⟩
          · exact ⟨_, .reader (Reader.local_invocation token) _, fun _ => rfl⟩

section Header

variable {limit : Nat} {label : String} {header result : Header} {before after : State}

theorem headerStep_of_item {mode : Mode} {token : Token} {rest : List Token}
    {findings : Array Finding} {errors : Nat} (isWord : token.kind = .identifier)
    (run : headerItem mode header token ⟨token :: rest, findings, errors⟩ = .ok result after) :
    headerStep limit mode label header ⟨token :: rest, findings, errors⟩ =
      .ok (.yield result) after := by
  rw [headerStep, current_bind]
  simp only [List.head?_cons, isWord]
  exact bind_of_ok run

/-- A step through a header ends it with a block or a semicolon, or reads an item. -/
theorem headerStep_cases {answer : ForInStep Header}
    (run : headerStep limit .tolerant label header before = .ok answer after) :
    (∃ result taken, answer = .done result ∧ before.rest = taken ++ after.rest ∧
      HeaderGoesOn taken ∧ ∀ mode rest findings errors,
        headerStep limit mode label header ⟨taken ++ rest, findings, errors⟩ =
          .ok (.done result) ⟨rest, findings, errors⟩) ∨
    (∃ result token more, answer = .yield result ∧ before.rest = token :: more ∧
      token.kind = .identifier ∧
      headerItem .tolerant header token before = .ok result after) := by
  obtain ⟨tokens, findings, errors⟩ := before
  cases tokens with
  | nil => cases run
  | cons token more =>
      simp only [headerStep] at run ⊢
      obtain ⟨branch, same, run⟩ := branch_of_current_bind run
      simp only [List.head?_cons] at same
      split at same <;> subst same
      next => cases run
      next opens =>
        obtain ⟨_, _, blockRun, answered⟩ := bind_eq_ok_iff.1 run
        obtain ⟨rfl, rfl⟩ := pure_eq_ok_iff.1 answered
        have blockRead := (ofReader_eq_ok_iff.1 blockRun).1
        obtain ⟨taken, split, again⟩ :=
          (Reader.local_block limit).taken_cons (Reader.takes_block limit) blockRead
        refine .inl ⟨_, token :: taken, rfl, congrArg (token :: ·) split,
          ⟨token, taken, rfl, .inr (.inl opens)⟩, fun mode rest findings errors => ?_⟩
        rw [current_bind]
        simp only [List.cons_append, List.head?_cons, opens]
        exact bind_of_ok (ofReader_of_ok (again rest trivial) findings errors)
      next ends =>
        cases run
        refine .inl ⟨header, [token], rfl, rfl, ⟨token, [], rfl, .inr (.inr ends)⟩,
          fun mode rest findings errors => ?_⟩
        rw [current_bind]
        simp only [List.cons_append, List.head?_cons, ends]
        rfl
      next isWord =>
        obtain ⟨found, _, itemRun, answered⟩ := bind_eq_ok_iff.1 run
        obtain ⟨rfl, rfl⟩ := pure_eq_ok_iff.1 answered
        exact .inr ⟨found, token, more, rfl, rfl, isWord, itemRun⟩
      next => cases run

/-- What the run of a header has taken, and how it is repeated. -/
structure HeaderReplay (limit : Nat) (label : String) (header result : Header)
    (remarks : List Remark) (taken kept : List Token) : Prop extends
    Replay (fun mode => loop header (headerStep limit mode label)) result remarks taken kept where
  goesOn : HeaderGoesOn taken
  keptGoesOn : HeaderGoesOn kept

/-- A keyword that says something again changes nothing but the remarks. -/
theorem HeaderReplay.pass {token : Token} {previous : String} {remarks : List Remark}
    {taken kept : List Token} (isWord : token.kind = .identifier)
    (again : headerItem .tolerant header token = do
      let _ ← (liftM Reader.advance : Parser _)
      remark .tolerant (.duplicateSpecifier token previous)
      return header)
    (replay : HeaderReplay limit label header result remarks taken kept) :
    HeaderReplay limit label header result (.duplicateSpecifier token previous :: remarks)
      (token :: taken) kept where
  pruned := Pruned.drop .duplicate replay.pruned
  goesOn := ⟨token, taken, rfl, .inl isWord⟩
  keptGoesOn := replay.keptGoesOn
  tolerant rest findings errors limit := by
    have item : headerItem .tolerant header token ⟨token :: (taken ++ rest), findings, errors⟩ =
        .ok header ((State.mk (taken ++ rest) findings errors).note
          [.duplicateSpecifier token previous]) := by
      rw [again, advance_bind, bind_of_ok (remark_tolerant _ _)]
      rfl
    refine (loop_of_yield (headerStep_of_item isWord item) (by simp)).trans ?_
    refine (replay.tolerant rest _ _ limit).trans ?_
    exact congrArg (EStateM.Result.ok result) (State.note_note (State.mk rest findings errors)
      [.duplicateSpecifier token previous] remarks)
  strict := replay.strict

/-- An item in front of what can be repeated is repeated with it. -/
theorem HeaderReplay.item {token : Token} {next : Header} {remarks : List Remark}
    {own taken kept left : List Token} {item : Parser Header} (isWord : token.kind = .identifier)
    (same : ∀ mode,
      headerItem mode header token = (liftM Reader.advance : Parser _) >>= fun _ => item)
    (again : ∀ rest findings errors, Look.item.sees (taken ++ left) rest →
      item ⟨own ++ rest, findings, errors⟩ = .ok next ⟨rest, findings, errors⟩)
    (replay : HeaderReplay limit label next result remarks taken kept) :
    HeaderReplay limit label header result remarks (token :: own ++ taken)
      (token :: own ++ kept) := by
  have step {mode : Mode} {tokens : List Token} (findings : Array Finding) (errors : Nat)
      (goesOn : HeaderGoesOn tokens) :
      loop header (headerStep limit mode label) ⟨token :: (own ++ tokens), findings, errors⟩ =
        loop next (headerStep limit mode label) ⟨tokens, findings, errors⟩ := by
    have run : headerItem mode header token ⟨token :: (own ++ tokens), findings, errors⟩ =
        .ok next ⟨tokens, findings, errors⟩ := by
      rw [same, advance_bind]
      exact again tokens findings errors (.inr ⟨replay.goesOn.append left, goesOn⟩)
    refine loop_of_yield (headerStep_of_item isWord run) ?_
    simp only [List.length_cons, List.length_append]
    omega
  refine ⟨⟨?_, ?_, ?_⟩, ⟨token, _, rfl, .inl isWord⟩, ⟨token, _, rfl, .inl isWord⟩⟩
  · exact (Pruned.refl (token :: own)).append replay.pruned
  · intro rest findings errors limit
    rw [List.append_assoc]
    exact (step findings errors (replay.goesOn.append rest)).trans
      (replay.tolerant rest findings errors limit)
  · intro rest findings errors
    rw [List.append_assoc]
    exact (step findings errors (replay.keptGoesOn.append rest)).trans
      (replay.strict rest findings errors)

/-- An item takes its word. -/
theorem headerItem_length {token : Token} {more : List Token} {findings : Array Finding}
    {errors : Nat}
    (run : headerItem .tolerant header token ⟨token :: more, findings, errors⟩ =
      .ok result after) :
    after.rest.length ≤ more.length := by
  rcases headerItem_cases header token with ⟨previous, again⟩ | ⟨item, steady, same⟩
  · rw [again, advance_bind, bind_of_ok (remark_tolerant _ _)] at run
    obtain ⟨-, rfl⟩ := pure_eq_ok_iff.1 run
    exact Nat.le_refl _
  · rw [same, advance_bind] at run
    obtain ⟨own, split, -⟩ := steady run
    simp only at split
    simp [split]

/-- The run of a header can be repeated. -/
theorem header_replay
    (run : loop header (headerStep limit .tolerant label) before = .ok result after) :
    ∃ remarks taken kept, before.rest = taken ++ after.rest ∧
      HeaderReplay limit label header result remarks taken kept := by
  have chain := steps_of_loop run
  clear run
  induction chain with
  | done run =>
      rcases headerStep_cases run with
          ⟨result, taken, same, split, goesOn, again⟩ | ⟨_, _, _, impossible, _⟩
      · cases same
        refine ⟨[], taken, taken, split, ⟨.refl taken, ?_, ?_⟩, goesOn, goesOn⟩
        · intro rest findings errors _
          rw [State.note_nil]
          exact loop_of_done (again .tolerant rest findings errors)
        · intro rest findings errors
          exact loop_of_done (again .strict rest findings errors)
      · cases impossible
  | @next header found result before between after run shorter _ ih =>
      rcases headerStep_cases run with
          ⟨_, _, impossible, _⟩ | ⟨_, token, more, same, front, isWord, itemRun⟩
      · cases impossible
      cases same
      obtain ⟨remarks, taken, kept, split, replay⟩ := ih
      obtain ⟨tokens, findings, errors⟩ := before
      cases front
      rcases headerItem_cases header token with ⟨previous, again⟩ | ⟨item, steady, same⟩
      · rw [again, advance_bind, bind_of_ok (remark_tolerant _ _)] at itemRun
        obtain ⟨rfl, rfl⟩ := pure_eq_ok_iff.1 itemRun
        refine ⟨_, token :: taken, kept, ?_, replay.pass isWord again⟩
        exact congrArg (token :: ·) split
      · rw [same, advance_bind] at itemRun
        obtain ⟨own, ownSplit, again⟩ := steady itemRun
        rw [split] at again
        refine ⟨remarks, token :: own ++ taken, token :: own ++ kept, ?_,
          replay.item isWord same again⟩
        rw [List.append_assoc, ← split]
        exact congrArg (token :: ·) ownSplit
  | @stall header found before after run stuck =>
      rcases headerStep_cases run with
          ⟨_, _, impossible, _⟩ | ⟨_, token, more, -, front, -, itemRun⟩
      · cases impossible
      · obtain ⟨tokens, findings, errors⟩ := before
        cases front
        exact absurd (Nat.lt_succ_of_le (headerItem_length itemRun)) stuck

theorem replays_header (limit : Nat) (label : String) :
    Replays fun mode => loop {} (headerStep limit mode label) := by
  intro header before after quiet
  obtain ⟨remarks, taken, kept, split, replay⟩ := header_replay quiet.run
  exact ⟨remarks, taken, kept, split, replay.toReplay⟩

end Header

/-! ## Functions and other members -/

theorem local_functionName (kind : Tree.FunctionKind) :
    Reader.Local .front (functionName kind) := by
  rw [functionName]
  refine (Reader.local_at? .identifier).bind fun named => ?_
  split
  · exact (Reader.local_advance fun _ => Look.front_nil).bind fun _ => .pure _
  · exact .pure _

theorem replays_function (limit : Nat) (kind : Tree.FunctionKind) (start : Token) :
    ReplaysFront fun mode => function limit mode kind start := by
  simp only [function]
  refine .reader_bind (local_functionName kind) fun name => ?_
  refine .of_reader_bind (Reader.local_shaped _ _) (Reader.takes_shaped _ _) fun parameters => ?_
  exact (replays_header limit _).map (.loop (agrees_headerStep limit _) _) _

end Interlock.Parser
