import Interlock.Proofs.Locality

/-!
# Declarations are read to their last token

Groups, statements and blocks are local readers that see nothing of what follows,
and so are the declarations that end in one of them.  A name with dots or an
optional group ends where no dot or parenthesis follows; that is all they see.
-/

namespace Interlock

/-- Whether a header goes on at the front: at a word, a block or a semicolon. -/
def HeaderGoesOn (tokens : List Token) : Prop :=
  ∃ token rest, tokens = token :: rest ∧
    (token.kind = .identifier ∨ token.kind = .opening .brace ∨ token.kind = .semicolon)

theorem HeaderGoesOn.not_at {tokens : List Token} (goesOn : HeaderGoesOn tokens)
    {kind : Token.Kind} (notWord : kind ≠ .identifier) (notBrace : kind ≠ .opening .brace)
    (notSemicolon : kind ≠ .semicolon) :
    tokens.head?.any (·.kind = kind) = false := by
  obtain ⟨token, rest, rfl, kinds⟩ := goesOn
  simp only [List.head?_cons, Option.any_some, decide_eq_false_iff_not]
  rintro rfl
  rcases kinds with same | same | same
  · exact notWord same
  · exact notBrace same
  · exact notSemicolon same

theorem HeaderGoesOn.append {tokens : List Token} (goesOn : HeaderGoesOn tokens)
    (rest : List Token) : HeaderGoesOn (tokens ++ rest) := by
  obtain ⟨token, more, rfl, kinds⟩ := goesOn
  exact ⟨token, more ++ rest, rfl, kinds⟩

/-- Inside a header all tokens that go on with it look the same. -/
def Look.item : Look where
  sees left rest := left.head? = rest.head? ∨ HeaderGoesOn left ∧ HeaderGoesOn rest
  same _ _ _ := .inl rfl

theorem Look.item_nil {rest : List Token} (sees : item.sees [] rest) : rest = [] := by
  rcases sees with same | ⟨⟨token, _, impossible, -⟩, -⟩
  · exact front_nil same
  · cases impossible

namespace Reader

/-! ## Groups -/

theorem local_group : Local .nothing group := by
  intro tokens left result run
  obtain ⟨shape, encloses, rfl⟩ := group_encloses run
  exact ⟨result.tokens, rfl, fun rest _ => group_of_encloses encloses rest⟩

theorem shaped_of_encloses {shape : Bracket} {result : Group} {problem : Problem}
    (encloses : result.Encloses shape) (rest : List Token) :
    shaped shape problem (result.tokens ++ rest) = .ok result rest := by
  rw [shaped, at?_bind]
  have opens : (result.tokens ++ rest).head?.any (·.kind = .opening shape) := by
    simp [Group.tokens, encloses.opens]
  rw [if_pos opens]
  exact group_of_encloses encloses rest

theorem shaped_encloses {shape : Bracket} {problem : Problem} {tokens left : List Token}
    {result : Group} (run : shaped shape problem tokens = .ok result left) :
    result.Encloses shape ∧ tokens = result.tokens ++ left := by
  rw [shaped, at?_bind] at run
  split at run
  next opens =>
    cases tokens with
    | nil => simp at opens
    | cons token rest =>
        simp only [List.head?_cons, Option.any_some, decide_eq_true_eq] at opens
        exact group_encloses_of_opening opens run
  next => cases run

theorem local_shaped (shape : Bracket) (problem : Problem) :
    Local .nothing (shaped shape problem) := by
  intro tokens left result run
  obtain ⟨encloses, rfl⟩ := shaped_encloses run
  exact ⟨result.tokens, rfl, fun rest _ => shaped_of_encloses encloses rest⟩

theorem takes_shaped (shape : Bracket) (problem : Problem) :
    Takes (shaped shape problem) := by
  intro tokens left result run
  obtain ⟨-, rfl⟩ := shaped_encloses run
  simp only [Group.tokens, List.length_cons, List.length_append]
  omega

/-! ## Statements -/

/-- The tokens of a statement in front of its semicolon: groups, and tokens that neither
open a group nor end the statement. -/
inductive Phrase : List Token → Prop where
  | nil : Phrase []
  | token {token : Token} {rest : List Token} :
      (∀ shape, token.kind ≠ .opening shape) → token.kind ≠ .closing .brace →
      token.kind ≠ .semicolon → token.kind ≠ .endOfFile →
      Phrase rest → Phrase (token :: rest)
  | group {shape : Bracket} {result : Group} {rest : List Token} :
      result.Encloses shape → Phrase rest → Phrase (result.tokens ++ rest)

theorem statementFrom_opening {start : Option Token} {seen rest left : List Token}
    {token : Token} {shape : Bracket} {result : Group} (opens : token.kind = .opening shape)
    (read : group (token :: rest) = .ok result left) :
    statementFrom start seen (token :: rest) =
      statementFrom start (result.tokens.reverse ++ seen) left := by
  rw [statementFrom]
  simp only [opens]
  split <;> simp_all

theorem statementFrom_append {phrase : List Token} (reads : Phrase phrase)
    (start : Option Token) (seen rest : List Token) :
    statementFrom start seen (phrase ++ rest) =
      statementFrom start (phrase.reverse ++ seen) rest := by
  induction reads generalizing seen with
  | nil => rfl
  | @token token phrase notOpening notClosing notSemicolon notEnd _ ih =>
      have step : statementFrom start seen (token :: (phrase ++ rest)) =
          statementFrom start (token :: seen) (phrase ++ rest) := by
        rw [statementFrom]
        split <;> simp_all
      rw [List.cons_append, step, ih]
      simp
  | @group shape result phrase encloses _ ih =>
      have step : statementFrom start seen (result.tokens ++ (phrase ++ rest)) =
          statementFrom start (result.tokens.reverse ++ seen) (phrase ++ rest) :=
        statementFrom_opening encloses.opens (group_of_encloses encloses _)
      rw [List.append_assoc, step, ih]
      simp

theorem statementFrom_split {start : Option Token} {seen tokens left collected : List Token}
    (run : statementFrom start seen tokens = .ok collected left) :
    ∃ phrase semicolon, Phrase phrase ∧ semicolon.kind = .semicolon ∧
      collected = seen.reverse ++ phrase ∧ tokens = phrase ++ semicolon :: left := by
  fun_induction statementFrom start seen tokens with
  | case1 => cases run
  | case2 => cases run
  | case3 seen token rest kind =>
      cases run
      exact ⟨[], token, .nil, kind, by simp, rfl⟩
  | case4 => cases run
  | case5 seen token rest shape opens result left read ih =>
      obtain ⟨phrase, semicolon, reads, ends, rfl, rfl⟩ := ih run
      obtain ⟨encloses, split⟩ := group_encloses_of_opening opens read
      refine ⟨result.tokens ++ phrase, semicolon, .group encloses reads, ends, ?_, ?_⟩
      · simp
      · simpa using split
  | case6 => cases run
  | case7 seen token rest notEnd notSemicolon notClosing notOpening ih =>
      obtain ⟨phrase, semicolon, reads, ends, rfl, rfl⟩ := ih run
      exact ⟨token :: phrase, semicolon,
        .token notOpening notClosing notSemicolon notEnd reads, ends, by simp, rfl⟩

/-- A statement is a phrase and the semicolon behind it. -/
theorem statement_eq_ok_iff {tokens left phrase : List Token} :
    statement tokens = .ok phrase left ↔
      Phrase phrase ∧ ∃ semicolon, semicolon.kind = .semicolon ∧
        tokens = phrase ++ semicolon :: left := by
  constructor
  · intro run
    obtain ⟨phrase, semicolon, reads, ends, rfl, split⟩ := statementFrom_split run
    exact ⟨reads, semicolon, ends, split⟩
  · rintro ⟨reads, semicolon, ends, rfl⟩
    rw [statement, statementFrom_append reads, statementFrom]
    simp [ends]

theorem local_statement : Local .nothing statement := by
  intro tokens left phrase run
  obtain ⟨reads, semicolon, ends, rfl⟩ := statement_eq_ok_iff.1 run
  refine ⟨phrase ++ [semicolon], by simp, fun rest _ => ?_⟩
  exact statement_eq_ok_iff.2 ⟨reads, semicolon, ends, by simp⟩

theorem takes_statement : Takes statement := by
  intro tokens left phrase run
  obtain ⟨-, semicolon, -, rfl⟩ := statement_eq_ok_iff.1 run
  simp only [List.length_cons, List.length_append]
  omega

/-! ## Blocks -/

section Block

variable {token : Token} {rest left : List Token} {limit depth : Nat} {pending : Option Token}

/-- Tokens that one reader passes on to another are taken by both. -/
theorem exists_taken_of_pass {α : Type} {reader next : Reader α} {value : α}
    (passed : List Token) {between : List Token}
    (pass : ∀ rest, reader (passed ++ rest) = next rest)
    (more : ∃ taken, between = taken ++ left ∧
      ∀ rest, Look.nothing.sees left rest → next (taken ++ rest) = .ok value rest) :
    ∃ taken, passed ++ between = taken ++ left ∧
      ∀ rest, Look.nothing.sees left rest → reader (taken ++ rest) = .ok value rest := by
  obtain ⟨taken, rfl, again⟩ := more
  refine ⟨passed ++ taken, by simp, fun rest sees => ?_⟩
  rw [List.append_assoc, pass, again rest sees]

theorem assembly_brace {result : Group} (opens : token.kind = .opening .brace)
    (read : group (token :: rest) = .ok result left) :
    assembly (token :: rest) = .ok () left := by
  rw [assembly]
  simp only [opens]
  split <;> simp_all

theorem assembly_paren {result : Group} (opens : token.kind = .opening .paren)
    (read : group (token :: rest) = .ok result left) :
    assembly (token :: rest) = assembly left := by
  rw [assembly]
  simp only [opens]
  split <;> simp_all

theorem assembly_flag (notEnd : token.kind ≠ .endOfFile)
    (notBrace : token.kind ≠ .opening .brace) (notParen : token.kind ≠ .opening .paren) :
    assembly (token :: rest) = assembly rest := by
  rw [assembly]
  split <;> simp_all

theorem local_assembly : Local .nothing (assembly : Reader Unit) := by
  intro tokens left value run
  fun_induction assembly tokens with
  | case1 => cases run
  | case2 => cases run
  | case3 token rest opens result taken read =>
      cases run
      obtain ⟨encloses, split⟩ := group_encloses_of_opening opens read
      refine ⟨result.tokens, split, fun rest _ => ?_⟩
      exact assembly_brace encloses.opens (group_of_encloses encloses rest)
  | case4 => cases run
  | case5 token rest opens result between read ih =>
      obtain ⟨encloses, split⟩ := group_encloses_of_opening opens read
      rw [split]
      exact exists_taken_of_pass result.tokens
        (fun rest => assembly_paren encloses.opens (group_of_encloses encloses rest)) (ih run)
  | case6 => cases run
  | case7 token rest notEnd notBrace notParen ih =>
      exact exists_taken_of_pass [token]
        (fun rest => assembly_flag notEnd notBrace notParen) (ih run)

theorem blockFrom_close (closes : token.kind = .closing .brace) :
    blockFrom limit depth none (token :: rest) =
      match depth with
      | 0 => .ok () rest
      | depth + 1 => blockFrom limit depth none rest := by
  rw [blockFrom.eq_def]
  simp only [closes]
  cases depth <;> rfl

theorem blockFrom_open (opens : token.kind = .opening .brace) (room : depth < limit) :
    blockFrom limit depth pending (token :: rest) = blockFrom limit (depth + 1) none rest := by
  rw [blockFrom.eq_def]
  simp only [opens, room, if_true]

theorem blockFrom_tooDeep (opens : token.kind = .opening .brace) (noRoom : ¬ depth < limit) :
    blockFrom limit depth pending (token :: rest) =
      .error ⟨.tooDeep, some token⟩ (token :: rest) := by
  rw [blockFrom.eq_def]
  simp only [opens, noRoom, if_false]

theorem blockFrom_group {shape : Bracket} {result : Group}
    (opens : token.kind = .opening shape) (notBrace : shape ≠ .brace)
    (read : group (token :: rest) = .ok result left) :
    blockFrom limit depth pending (token :: rest) =
      blockFrom limit depth (some result.closer) left := by
  rw [blockFrom.eq_def]
  cases shape <;> simp only [opens] <;> first | contradiction | (split <;> simp_all)

theorem blockFrom_semicolon (ends : token.kind = .semicolon)
    (settled : pending.filter (·.isDangling) = none) :
    blockFrom limit depth pending (token :: rest) = blockFrom limit depth none rest := by
  rw [blockFrom.eq_def]
  simp only [ends, settled]

theorem blockFrom_assembly (word : token.isWord "assembly")
    (read : assembly rest = .ok () left) :
    blockFrom limit depth none (token :: rest) = blockFrom limit depth none left := by
  have kind : token.kind = .identifier := by
    simp only [Token.isWord, Bool.and_eq_true, decide_eq_true_eq] at word
    exact word.1
  rw [blockFrom.eq_def]
  simp only [kind, word, Option.isNone_none, Bool.and_self, if_true]
  split <;> simp_all

theorem blockFrom_token (plain : token.kind.isPlain) (notSemicolon : token.kind ≠ .semicolon)
    (notAssembly : ¬ (pending.isNone && token.isWord "assembly")) :
    blockFrom limit depth pending (token :: rest) = blockFrom limit depth (some token) rest := by
  rw [blockFrom.eq_def]
  cases kind : token.kind <;> simp_all [Token.Kind.isPlain]

theorem local_blockFrom (limit depth : Nat) (pending : Option Token) :
    Local .nothing (blockFrom limit depth pending : Reader Unit) := by
  intro tokens left value run
  fun_induction blockFrom limit depth pending tokens with
  | case1 => cases run
  | case2 => cases run
  | case3 => cases run
  | case4 token rest closes =>
      cases run
      exact ⟨[token], rfl, fun rest _ => blockFrom_close closes⟩
  | case5 token rest closes depth ih =>
      exact exists_taken_of_pass [token]
        (fun rest => blockFrom_close closes) (ih run)
  | case6 => cases run
  | case7 depth pending token rest opens room ih =>
      exact exists_taken_of_pass [token]
        (fun rest => blockFrom_open opens room) (ih run)
  | case8 => cases run
  | case9 depth pending token rest shape notBrace opens result between read ih =>
      obtain ⟨encloses, split⟩ := group_encloses_of_opening opens read
      rw [split]
      exact exists_taken_of_pass result.tokens (fun rest =>
        blockFrom_group encloses.opens notBrace (group_of_encloses encloses rest)) (ih run)
  | case10 => cases run
  | case11 => cases run
  | case12 depth pending token rest ends settled ih =>
      exact exists_taken_of_pass [token]
        (fun rest => blockFrom_semicolon ends settled) (ih run)
  | case13 depth pending token rest isAssembly _ between read _ _ _ _ _ _ ih =>
      simp only [Bool.and_eq_true, Option.isNone_iff_eq_none] at isAssembly
      obtain ⟨rfl, word⟩ := isAssembly
      obtain ⟨flags, rfl, again⟩ := local_assembly read
      exact exists_taken_of_pass (token :: flags)
        (fun rest => blockFrom_assembly word (again rest trivial)) (ih run)
  | case14 => cases run
  | case15 depth pending token rest notAssembly notEnd _ notClosing _ notOpening notSemicolon
      ih =>
      have plain : token.kind.isPlain := Token.Kind.isPlain_of_ne notEnd notOpening notClosing
      exact exists_taken_of_pass [token]
        (fun rest => blockFrom_token plain notSemicolon notAssembly) (ih run)

theorem local_block (limit : Nat) : Local .nothing (block limit) :=
  (local_expectElse _ _).bind fun _ => local_blockFrom limit 0 none

theorem takes_block (limit : Nat) : Takes (block limit) :=
  (takes_expectElse _ _).bind_left fun _ => local_blockFrom limit 0 none

end Block

/-! ## Optional parts -/

theorem local_at?_item {kind : Token.Kind} (notWord : kind ≠ .identifier)
    (notBrace : kind ≠ .opening .brace) (notSemicolon : kind ≠ .semicolon) :
    Local .item (at? kind) := by
  apply local_at?_of_seen
  rintro left rest (same | ⟨leftGoesOn, restGoesOn⟩)
  · rw [same]
  · rw [leftGoesOn.not_at notWord notBrace notSemicolon,
      restGoesOn.not_at notWord notBrace notSemicolon]

theorem local_parenthesized? : Local .item parenthesized? := by
  rw [parenthesized?]
  refine (local_at?_item (by simp) (by simp) (by simp)).bind fun found => ?_
  split
  · exact local_group.of_nothing.bind fun _ => .pure _
  · exact .pure _

/-- One step through a dotted name. -/
def dottedStep (what : String) (names : List String) : Reader (ForInStep (List String)) := do
  if ← at? .dot then
    let _ ← advance
    let name ← expectName what
    return .yield (names ++ [name.text])
  else return .done names

theorem dotted_eq (what : String) (names : List String) :
    dotted what names =
      (loop names (dottedStep what) >>= fun all => pure (".".intercalate all)) := rfl

theorem local_dotted (what : String) (names : List String) :
    Local .item (dotted what names) := by
  rw [dotted]
  refine (local_loop (fun names => ?_) names).bind fun _ => .pure _
  refine (local_at?_item (by simp) (by simp) (by simp)).bind fun found => ?_
  split
  · refine (local_advance fun _ => Look.item_nil).bind fun _ => ?_
    exact (local_expectName what).of_nothing.bind fun _ => .pure _
  · exact .pure _

theorem local_invocation (start : Token) : Local .item (invocation start) := by
  rw [invocation]
  refine (local_dotted _ _).bind fun name => ?_
  exact local_parenthesized?.bind fun _ => .pure _

/-- A name with dots and a group behind it, for readers that see the front. -/
theorem local_bases : Local .front bases := by
  have front_item ⦃left rest : List Token⦄ (sees : Look.front.sees left rest) :
      Look.item.sees left rest := .inl sees
  rw [bases]
  refine local_loop (fun names => ?_) []
  refine (local_expectName _).of_nothing.bind fun first => ?_
  refine ((local_dotted _ _).mono front_item).bind fun name => ?_
  refine (local_parenthesized?.mono front_item).bind fun _ => ?_
  refine (local_at? .comma).bind fun found => ?_
  split
  · exact (local_advance fun _ => Look.front_nil).bind fun _ => .pure _
  · exact .pure _

/-! ## Declarations -/

section Declarations

variable (start : Token)

theorem local_pragma : Local .nothing (pragma start) := by
  rw [pragma]
  refine (local_expectName _).bind fun name => ?_
  exact local_statement.bind fun _ => .pure _

theorem local_importPath : Local .nothing (importPath start) := by
  rw [importPath]
  refine local_statement.bind fun phrase => ?_
  split
  · exact .pure _
  · exact .failAt _ _

theorem local_declaration : Local .nothing (declaration start) := by
  rw [declaration]
  refine (local_expectName _).bind fun name => ?_
  exact local_statement.bind fun _ => .pure _

theorem local_event : Local .nothing (event start) := by
  rw [event]
  refine (local_expectName _).bind fun name => ?_
  refine (local_shaped _ _).bind fun parameters => ?_
  -- The word `anonymous` is seen by a reader whose semicolon follows.
  have ending (isAnonymous : Bool) :
      Local .nothing (expectElse .semicolon (.expectedSemicolonAfterEvent name.text) >>=
        fun _ => pure (Tree.Event.mk name.text parameters.text isAnonymous start.position)) :=
    (local_expectElse _ _).bind fun _ => .pure _
  have takes (isAnonymous : Bool) :
      Takes (expectElse .semicolon (.expectedSemicolonAfterEvent name.text) >>=
        fun _ => pure (Tree.Event.mk name.text parameters.text isAnonymous start.position)) :=
    (takes_expectElse _ _).bind_left fun _ => show Local .nothing _ from .pure _
  refine (local_atWord? _).bind_takes (fun isAnonymous => ?_) fun isAnonymous => ?_
  · split
    · exact (local_advance fun _ => Look.front_nil).bind_takes
        (fun _ => ending isAnonymous) fun _ => takes isAnonymous
    · exact ending isAnonymous
  · split
    · exact Takes.bind_right (local_advance fun _ => Look.front_nil)
        fun _ => takes isAnonymous
    · exact takes isAnonymous

theorem local_struct : Local .nothing (struct start) := by
  rw [struct]
  refine (local_expectName _).bind fun name => ?_
  exact (local_shaped _ _).bind fun _ => .pure _

theorem local_enum : Local .nothing (enum start) := by
  rw [enum]
  refine (local_expectName _).bind fun name => ?_
  exact (local_shaped _ _).bind fun _ => .pure _

theorem local_usingFor : Local .nothing (usingFor start) := by
  rw [usingFor]
  refine local_statement.bind fun phrase => ?_
  split
  · exact .failAt _ _
  · exact .pure _

theorem local_modifierStep (limit : Nat) (name : String) (isVirtual : Bool) :
    Local .front (modifierStep limit name isVirtual) := by
  have front_item ⦃left rest : List Token⦄ (sees : Look.front.sees left rest) :
      Look.item.sees left rest := .inl sees
  have advances : Local .front advance := local_advance fun _ => Look.front_nil
  rw [modifierStep]
  refine local_current.bind fun found => ?_
  cases found with
  | none => exact .failAt _ _
  | some token =>
      simp only
      split
      · exact .failAt _ _
      · exact (local_block limit).of_nothing.bind fun _ => .pure _
      · exact advances.bind fun _ => .pure _
      · split
        · exact advances.bind fun _ => .pure _
        · split
          · refine advances.bind fun _ => ?_
            exact (local_parenthesized?.mono front_item).bind fun _ => .pure _
          · exact .failAt _ _

/-- The last step of a modifier takes its block or its semicolon. -/
theorem modifierStep_done {limit : Nat} {name : String} {isVirtual result : Bool}
    {tokens left : List Token}
    (run : modifierStep limit name isVirtual tokens = .ok (.done result) left) :
    ∃ token taken, tokens = token :: (taken ++ left) ∧
      ∀ rest, modifierStep limit name isVirtual (token :: (taken ++ rest)) =
        .ok (.done result) rest := by
  cases tokens with
  | nil => cases run
  | cons token tokens =>
      rw [modifierStep] at run ⊢
      obtain ⟨branch, same, run⟩ := branch_of_current_bind run
      simp only [List.head?_cons] at same
      split at same <;> subst same
      next => cases run
      next opens =>
        obtain ⟨_, _, blockRun, answer⟩ := bind_eq_ok_iff.1 run
        cases answer
        obtain ⟨taken, rfl, again⟩ := (local_block limit).taken_cons (takes_block limit) blockRun
        refine ⟨token, taken, rfl, fun rest => ?_⟩
        rw [current_bind]
        simp only [List.head?_cons, opens]
        rw [bind_of_ok (again rest trivial)]
        rfl
      next ends =>
        cases run
        refine ⟨token, [], rfl, fun rest => ?_⟩
        rw [current_bind]
        simp only [List.head?_cons, ends]
        rfl
      next =>
        split at run
        · cases run
        · split at run
          · obtain ⟨_, _, _, later⟩ := bind_eq_ok_iff.1 run
            obtain ⟨_, _, _, answer⟩ := bind_eq_ok_iff.1 later
            cases answer
          · cases run

theorem modifierStep_yield {limit : Nat} {name : String} {isVirtual result : Bool}
    {tokens left : List Token}
    (run : modifierStep limit name isVirtual tokens = .ok (.yield result) left) :
    left.length < tokens.length := by
  cases tokens with
  | nil => cases run
  | cons token tokens =>
      rw [modifierStep] at run
      obtain ⟨branch, same, run⟩ := branch_of_current_bind run
      simp only [List.head?_cons] at same
      split at same <;> subst same
      next => cases run
      next =>
        obtain ⟨_, _, _, answer⟩ := bind_eq_ok_iff.1 run
        cases answer
      next => cases run
      next =>
        split at run
        · cases run
          simp
        · split at run
          · rw [advance_bind] at run
            obtain ⟨_, _, grouped, answer⟩ := bind_eq_ok_iff.1 run
            cases answer
            exact Nat.lt_succ_of_le (local_parenthesized?.length_le grouped)
          · cases run

theorem local_modifier (limit : Nat) : Local .nothing (modifier limit start) := by
  rw [modifier]
  refine (local_expectName _).bind fun name => ?_
  have header {tokens left : List Token} {isVirtual : Bool}
      (run : loop false (modifierStep limit name.text) tokens = .ok isVirtual left) :=
    loop_split (local_modifierStep limit name.text) (fun _ _ _ _ => modifierStep_yield)
      (fun _ _ _ _ => modifierStep_done) run
  have header_local : Local .nothing (loop false (modifierStep limit name.text)) := by
    intro tokens left isVirtual run
    obtain ⟨token, taken, split, again⟩ := header run
    exact ⟨token :: taken, split, fun rest _ => again rest⟩
  have header_takes : Takes (loop false (modifierStep limit name.text)) := by
    intro tokens left isVirtual run
    obtain ⟨token, taken, rfl, -⟩ := header run
    simp only [List.length_cons, List.length_append]
    omega
  refine local_parenthesized?.bind_takes (fun parameters => ?_) fun parameters => ?_
  · exact header_local.bind fun _ => .pure _
  · exact header_takes.bind_left fun _ => show Local .nothing _ from .pure _

/-- A reader that begins with a name refuses the empty list. -/
theorem expectName_bind_nil {α : Type} (what : String) (next : Token → Reader α) (value : α)
    (left : List Token) : (expectName what >>= next) [] ≠ .ok value left := by
  rintro ⟨⟩

theorem takes_pragma : Takes (pragma start) :=
  (local_pragma start).takes (expectName_bind_nil _ _)

theorem takes_importPath : Takes (importPath start) :=
  (local_importPath start).takes fun value left run => by
    obtain ⟨_, _, statementRun, -⟩ := bind_eq_ok_iff.1 run
    exact absurd (takes_statement statementRun) (Nat.not_lt_zero _)

theorem takes_declaration : Takes (declaration start) :=
  (local_declaration start).takes (expectName_bind_nil _ _)

theorem takes_event : Takes (event start) :=
  (local_event start).takes (expectName_bind_nil _ _)

theorem takes_struct : Takes (struct start) :=
  (local_struct start).takes (expectName_bind_nil _ _)

theorem takes_enum : Takes (enum start) :=
  (local_enum start).takes (expectName_bind_nil _ _)

theorem takes_usingFor : Takes (usingFor start) :=
  (local_usingFor start).takes fun value left run => by
    obtain ⟨_, _, statementRun, -⟩ := bind_eq_ok_iff.1 run
    exact absurd (takes_statement statementRun) (Nat.not_lt_zero _)

theorem takes_modifier (limit : Nat) : Takes (modifier limit start) :=
  (local_modifier start limit).takes (expectName_bind_nil _ _)

end Declarations

end Reader

end Interlock
