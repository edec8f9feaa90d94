import Interlock.Proofs.Body

/-!
# Readers put together from parts

Most readers of declarations look at the front, take a word or a mark that they
have asked for, read groups and statements, and do so one behind the other.  What
holds of these parts, and of one reader behind another, holds of all of them.  A
word in a header, in a contract or at the top level goes on with one of these
readers, with a function, a modifier or a contract.
-/

namespace Interlock

/-- A problem that a source has at the place where it shows. -/
def Problem.OfSource (problem : Problem) : Prop :=
  problem ≠ .nothingLeft ∧ problem ≠ .tooDeep

@[simp] theorem Problem.ofSource_iff {problem : Problem} :
    problem.OfSource ↔ problem ≠ .nothingLeft ∧ problem ≠ .tooDeep := .rfl

namespace Reader

/-- Readers that are put together from parts. -/
inductive Built : {α : Type} → Reader α → Prop where
  | pure {α : Type} (value : α) : Built (pure value)
  | bind {α β : Type} {reader : Reader α} {next : α → Reader β} :
      Built reader → (∀ value, Built (next value)) → Built (reader >>= next)
  | fail {α : Type} {problem : Problem} :
      problem.OfSource → Built (fail problem : Reader α)
  | at? (kind : Token.Kind) : Built (at? kind)
  | ask {α : Type} (asked : Token → Bool) {next : Bool → Reader α}
      {taking : Option Token → Reader α} :
      (∀ token, asked token → token.kind.isPlain) → next true = advance >>= taking →
      (∀ found, Built (taking found)) → Built (next false) →
      Built (do next ((← current).any asked))
  | expectElse {kind : Token.Kind} {problem : Problem} :
      kind.isPlain → problem.OfSource → Built (expectElse kind problem)
  | group : Built group
  | statement : Built statement
  | loop {β : Type} {step : β → Reader (ForInStep β)} (value : β) :
      (∀ value, Built (step value)) → Built (loop value step)

theorem built_expectName (what : String) : Built (expectName what) :=
  .expectElse rfl (by simp)

theorem built_at?_advance {α : Type} {kind : Token.Kind} {next : Bool → Reader α}
    {taking : Option Token → Reader α} (taken : next true = advance >>= taking)
    (plain : kind.isPlain) (behind : ∀ found, Built (taking found)) (other : Built (next false)) :
    Built (at? kind >>= next) := by
  apply Built.ask (fun token => token.kind = kind) _ taken behind other
  intro token isKind
  rwa [of_decide_eq_true isKind]

theorem built_atWord?_advance {α : Type} {word : String} {next : Bool → Reader α}
    {taking : Option Token → Reader α} (taken : next true = advance >>= taking)
    (behind : ∀ found, Built (taking found)) (other : Built (next false)) :
    Built (atWord? word >>= next) := by
  apply Built.ask (fun token => token.kind = .identifier && token.text = word) _ taken behind other
  intro token isWord
  rw [Bool.and_eq_true] at isWord
  rw [of_decide_eq_true isWord.1]
  rfl

theorem built_parenthesized? : Built parenthesized? := by
  apply (Built.at? _).bind
  intro found
  split
  · exact .bind .group fun _ => .pure _
  · exact .pure _

theorem built_shaped (shape : Bracket) {problem : Problem} (known : problem.OfSource) :
    Built (shaped shape problem) := by
  apply (Built.at? _).bind
  intro found
  split
  · exact .group
  · exact .fail known

theorem built_dottedStep (what : String) (names : List String) :
    Built (dottedStep what names) := by
  apply built_at?_advance rfl rfl
  · intro found
    exact (built_expectName what).bind fun _ => .pure _
  · exact .pure _

theorem built_dotted (what : String) (names : List String) : Built (dotted what names) := by
  rw [dotted_eq]
  exact .bind (.loop names (built_dottedStep what)) fun _ => .pure _

theorem built_invocation (start : Token) : Built (invocation start) := by
  apply (built_dotted _ _).bind
  intro name
  exact built_parenthesized?.bind fun _ => .pure _

/-- Goes on behind the first word of a base. -/
def behindBase (names : List String) (first : Token) : Reader (ForInStep (List String)) := do
  let name ← dotted "base contract name" [first.text]
  let _ ← parenthesized?
  let names := names ++ [name]
  if ← at? .comma then
    let _ ← advance
    return .yield names
  else return .done names

/-- One step through a list of bases. -/
def basesStep (names : List String) : Reader (ForInStep (List String)) := do
  behindBase names (← expectName "base contract name")

theorem bases_eq : bases = loop [] basesStep := rfl

theorem built_behindBase (names : List String) (first : Token) :
    Built (behindBase names first) := by
  apply (built_dotted _ _).bind
  intro name
  apply built_parenthesized?.bind
  intro arguments
  apply built_at?_advance rfl rfl
  · exact fun _ => .pure _
  · exact .pure _

theorem built_basesStep (names : List String) : Built (basesStep names) :=
  (built_expectName _).bind (built_behindBase names)

theorem built_bases : Built bases := by
  rw [bases_eq]
  exact .loop [] built_basesStep

/-! ## Faults -/

/-- A reader whose faults are all problems that the source has. -/
def Sourced {α : Type} (reader : Reader α) : Prop :=
  ∀ ⦃tokens left : List Token⦄ ⦃fault : Fault⦄, reader tokens = .error fault left →
    fault.problem.OfSource

namespace Sourced

variable {α β : Type}

theorem pure (value : α) : Sourced (pure value) := by
  intro tokens left fault run
  cases run

theorem failAt {problem : Problem} (known : problem.OfSource) (token : Option Token) :
    Sourced (failAt problem token : Reader α) := by
  rintro tokens left fault run
  cases run
  exact known

theorem bind {reader : Reader α} {next : α → Reader β} (first : Sourced reader)
    (second : ∀ value, Sourced (next value)) : Sourced (reader >>= next) := by
  intro tokens left fault run
  rcases bind_eq_error_iff.1 run with failed | ⟨value, between, -, failed⟩
  · exact first failed
  · exact second value failed

theorem behind_current {next : Option Token → Reader α} (branches : ∀ front, Sourced (next front)) :
    Sourced (current >>= next) :=
  fun tokens _ _ run => branches tokens.head? run

theorem loop {step : β → Reader (ForInStep β)} (steps : ∀ value, Sourced (step value))
    (value : β) : Sourced (loop value step) := by
  intro tokens left fault run
  change repeatSteps List.length step value tokens = .error fault left at run
  fun_induction repeatSteps List.length step value tokens with
  | case1 value tokens fault left failed =>
      cases run
      exact steps value failed
  | case2 => cases run
  | case3 value tokens found between stepped shorter ih => exact ih run
  | case4 => cases run

end Sourced

theorem sourced_at? (kind : Token.Kind) : Sourced (at? kind) :=
  .behind_current fun _ => .pure _

theorem sourced_advance : Sourced advance := by
  intro tokens left fault run
  cases tokens <;> cases run

theorem sourced_expectElse (kind : Token.Kind) {problem : Problem} (known : problem.OfSource) :
    Sourced (expectElse kind problem) := by
  intro tokens left fault run
  cases tokens with
  | nil =>
      cases run
      exact known
  | cons token rest =>
      rw [expectElse.eq_def] at run
      dsimp only at run
      split at run <;> cases run
      exact known

theorem ofSource_of_groupFrom {opener : Token} {frame : Group.Frame} {outer : List Group.Frame}
    {seen tokens left : List Token} {fault : Fault}
    (failed : groupFrom opener frame outer seen tokens = .error fault left) :
    fault.problem.OfSource := by
  induction tokens generalizing frame outer seen with
  | nil =>
      cases failed
      simp
  | cons token rest ih =>
      rw [groupFrom.eq_def] at failed
      dsimp only at failed
      split at failed
      next =>
        cases failed
        simp
      next => exact ih failed
      next =>
        split at failed
        · split at failed
          · cases failed
          · exact ih failed
        · cases failed
          simp
      next => exact ih failed

theorem sourced_group : Sourced group := by
  intro tokens left fault failed
  rw [group.eq_def] at failed
  split at failed
  · cases failed
    simp
  · split at failed
    · exact ofSource_of_groupFrom failed
    · cases failed
      simp

theorem sourced_statement : Sourced statement := by
  intro tokens left fault failed
  rw [statement] at failed
  generalize tokens.head? = start, ([] : List Token) = seen at failed
  fun_induction statementFrom start seen tokens with
  | case1 | case2 | case4 =>
      cases failed
      simp
  | case3 => cases failed
  | case5 seen token rest shape opens result left read ih => exact ih failed
  | case6 seen token rest shape opens fault left read =>
      cases failed
      exact sourced_group read
  | case7 seen token rest notEnd _ _ _ ih => exact ih failed

theorem sourced_assembly : Sourced (assembly : Reader Unit) := by
  intro tokens left fault failed
  fun_induction assembly tokens with
  | case1 | case2 =>
      cases failed
      simp
  | case3 => cases failed
  | case4 token rest opens fault left read =>
      cases failed
      exact sourced_group read
  | case5 token rest opens result left read ih => exact ih failed
  | case6 token rest opens fault left read =>
      cases failed
      exact sourced_group read
  | case7 token rest notEnd _ _ ih => exact ih failed

/-- What is put together from parts has no other faults than they have. -/
theorem Built.sourced {α : Type} {reader : Reader α} (built : Built reader) : Sourced reader := by
  induction built with
  | pure value => exact .pure value
  | bind _ _ first second => exact first.bind second
  | fail known => exact .behind_current fun front => .failAt known front
  | at? kind => exact sourced_at? kind
  | ask asked _ taken _ _ behind other =>
      refine .behind_current fun front => ?_
      cases front.any asked with
      | true =>
          rw [taken]
          exact sourced_advance.bind behind
      | false => exact other
  | expectElse _ known => exact sourced_expectElse _ known
  | group => exact sourced_group
  | statement => exact sourced_statement
  | loop value _ steps => exact .loop steps value

/-! ## Declarations -/

section Declarations

variable (start : Token)

theorem built_pragma : Built (pragma start) := by
  apply (built_expectName _).bind
  intro name
  exact .bind .statement fun _ => .pure _

theorem built_declaration : Built (declaration start) := by
  apply (built_expectName _).bind
  intro name
  exact .bind .statement fun _ => .pure _

theorem built_struct : Built (struct start) := by
  apply (built_expectName _).bind
  intro name
  exact (built_shaped _ (by simp)).bind fun _ => .pure _

theorem built_enum : Built (enum start) := by
  apply (built_expectName _).bind
  intro name
  exact (built_shaped _ (by simp)).bind fun _ => .pure _

theorem built_event : Built (event start) := by
  apply (built_expectName _).bind
  intro name
  apply (built_shaped _ (by simp)).bind
  intro parameters
  have ending (isAnonymous : Bool) :
      Built (expectElse .semicolon (.expectedSemicolonAfterEvent name.text) >>=
        fun _ => pure (Tree.Event.mk name.text parameters.text isAnonymous start.position)) :=
    .bind (.expectElse rfl (by simp)) fun _ => .pure _
  apply built_atWord?_advance rfl
  · exact fun _ => ending true
  · exact ending false

end Declarations

end Reader

/-! ## Headers -/

namespace Parser

theorem built_functionName (kind : Tree.FunctionKind) : Reader.Built (functionName kind) := by
  rw [functionName]
  by_cases named : kind = .function
  · simp only [named, decide_true, Bool.true_and]
    exact Reader.built_at?_advance rfl rfl (fun _ => .pure _) (.pure _)
  · simp only [named, decide_false, Bool.false_and, Bool.false_eq_true, if_false]
    exact .bind (.at? _) fun _ => .pure _

theorem built_contractFront (kind : Tree.ContractKind) : Reader.Built (contractFront kind) := by
  rw [contractFront]
  apply (Reader.built_expectName _).bind
  intro name
  apply Reader.built_atWord?_advance rfl
  · intro found
    exact Reader.built_bases.bind fun _ => .pure _
  · exact .pure _

/-- A word in a header says something again, or goes on with a reader. -/
theorem headerItem_built (header : Header) (token : Token) :
    (∃ previous, headerItem .tolerant header token = do
      let _ ← (liftM Reader.advance : Parser _)
      remark .tolerant (.duplicateSpecifier token previous)
      return header) ∨
    ∃ item : Reader Header, Reader.Built item ∧
      headerItem .tolerant header token =
        (liftM Reader.advance : Parser _) >>= fun _ => ofReader item := by
  have settled (result : Header) :
      ∃ item : Reader Header, Reader.Built item ∧
        ((liftM Reader.advance : Parser _) >>= fun _ => pure result) =
          (liftM Reader.advance : Parser _) >>= fun _ => ofReader item :=
    ⟨pure result, .pure result, rfl⟩
  have read {γ : Type} {reader : Reader γ} (built : Reader.Built reader) (give : γ → Header) :
      ∃ item : Reader Header, Reader.Built item ∧
        ((liftM Reader.advance : Parser _) >>= fun _ =>
            ofReader reader >>= fun found => pure (give found)) =
          (liftM Reader.advance : Parser _) >>= fun _ => ofReader item := by
    refine ⟨reader >>= fun found => pure (give found), built.bind fun _ => .pure _, ?_⟩
    rw [ofReader_bind]
    rfl
  cases visible : Visibility.ofWord? token.text with
  | some visibility =>
      cases previous : header.visibility with
      | some earlier => exact .inl ⟨earlier.word, by simp only [headerItem, visible, previous]⟩
      | none =>
          simp only [headerItem, visible, previous]
          exact .inr (settled _)
  | none =>
  cases changing : Mutability.ofWord? token.text with
  | some mutability =>
      cases previous : header.mutability with
      | some earlier =>
          exact .inl ⟨earlier.word, by simp only [headerItem, visible, changing, previous]⟩
      | none =>
          simp only [headerItem, visible, changing, previous]
          exact .inr (settled _)
  | none =>
      right
      simp only [headerItem, visible, changing]
      split
      · exact settled _
      · split
        · exact read Reader.built_parenthesized? _
        · split
          · exact read (Reader.built_shaped _ (by simp)) _
          · exact read (Reader.built_invocation token) _

/-! ## What words announce -/

/-- What a word announces in a contract: a function, a modifier or another declaration.  In the
bodies of the first two blocks may be open up to a limit. -/
inductive Announced (limit : Nat) (token : Token) : {α : Type} → Parser α → Prop where
  | function {α : Type} (kind : Tree.FunctionKind) (give : Tree.Function → α) :
      Announced limit token (do return give (← function limit .tolerant kind token))
  | modifier {α : Type} (give : Tree.Modifier → α) :
      Announced limit token (do return give (← ofReader (Reader.modifier limit token)))
  | reader {α β : Type} {reader : Reader α} (give : α → β) :
      Reader.Built reader → Announced limit token (do return give (← ofReader reader))
  | importPath {α : Type} (give : Tree.Import → α) :
      Announced limit token (do return give (← ofReader (Reader.importPath token)))
  | usingFor {α : Type} (give : Tree.UsingFor → α) :
      Announced limit token (do return give (← ofReader (Reader.usingFor token)))

variable [StackRoom]

theorem announced_member {token : Token} {next : Option Token}
    {parser : Mode → Parser Tree.Member} (found : memberParser? token next = some parser) :
    Announced StackRoom.member token (parser .tolerant) := by
  rw [memberParser?] at found
  split at found
  · split at found <;> cases found
    exact .function _ _
  · split at found
    · cases found
      exact .function _ _
    · cases found
      exact .modifier _
    · cases found
      exact .reader _ (Reader.built_event token)
    · cases found
      exact .reader _ (Reader.built_struct token)
    · cases found
      exact .reader _ (Reader.built_enum token)
    · cases found
      exact .usingFor _
    iterate 2
      split at found <;> cases found
      exact .reader _ (Reader.built_declaration token)
    · cases found

/-- At the top level a word may announce a contract as well, perhaps with a second word. -/
theorem announced_element {token : Token} {next : Option Token}
    {parser : Mode → Parser Tree.Element} (found : elementParser? token next = some parser) :
    Announced StackRoom.free token (parser .tolerant) ∨
    (∃ kind, parser .tolerant = do return .contract (← contract .tolerant kind false token)) ∨
    (next.any (·.text = "contract") ∧ parser .tolerant = do
      let _ ← (liftM Reader.advance : Parser _)
      return .contract (← contract .tolerant .contract true token)) := by
  rw [elementParser?] at found
  split at found
  · cases found
    exact .inr (.inl ⟨_, rfl⟩)
  · split at found
    · cases found
      exact .inl (.reader _ (Reader.built_pragma token))
    · cases found
      exact .inl (.importPath _)
    · split at found <;> cases found
      next isContract => exact .inr (.inr ⟨isContract, rfl⟩)
    · cases found
      exact .inl (.function _ _)
    · cases found
      exact .inl (.reader _ (Reader.built_struct token))
    · cases found
      exact .inl (.reader _ (Reader.built_enum token))
    · cases found
      exact .inl (.reader _ (Reader.built_event token))
    · cases found
      exact .inl (.usingFor _)
    iterate 2
      cases found
      exact .inl (.reader _ (Reader.built_declaration token))
    · cases found

end Parser

end Interlock
