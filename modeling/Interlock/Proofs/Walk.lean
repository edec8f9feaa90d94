import Interlock.Proofs.Parts

/-!
# Walking through tokens

A run takes tokens off the front and never puts one back.  On its way it finds
something at the token in front of it, or at a token that it has taken since it
last found something.  A walk is such a way: it takes tokens one by one and makes
its findings in between, each at the token then at the front.  Walks one behind
the other are a walk, so the findings of a whole reading stand in the order of
the tokens.

Here the readers are shown to walk, whether they answer or fail.  Groups, statements
and blocks walk, and so does all that is put together from them.
-/

namespace Interlock

/-- Tokens that a reading may take.  The end mark is none of them; but the second word of
`abstract contract` is known by its text alone. -/
def Token.Passable (token : Token) : Prop :=
  token.kind = .endOfFile → token.text = "contract"

theorem Token.passable_of_kind {token : Token} {kind : Token.Kind} (same : token.kind = kind)
    (notEnd : kind ≠ .endOfFile) : token.Passable :=
  fun ends => absurd (same.symm.trans ends) notEnd

/-- Findings about a token.  That nothing is left where a declaration should begin is
none of them. -/
def Finding.Arises : Finding → Prop
  | .remark _ => True
  | .fault cause => cause.problem ≠ .nothingLeft
  | .unclosedContract _ => True
  | .tooManyErrors _ => False
  | .lexical _ => False

@[simp] theorem Finding.arises_fault {cause : Fault} :
    (Finding.fault cause).Arises ↔ cause.problem ≠ .nothingLeft := .rfl

/-- A way from some tokens to those that are left, with the findings made on it. -/
inductive Walk : (tokens left : List Token) → List Finding → Prop where
  | stop (tokens : List Token) : Walk tokens tokens []
  | take {token : Token} {tokens left : List Token} {findings : List Finding} :
      token.Passable → Walk tokens left findings → Walk (token :: tokens) left findings
  | mark {finding : Finding} {tokens left : List Token} {findings : List Finding} :
      finding.token = tokens.head? → finding.Arises → Walk tokens left findings →
      Walk tokens left (finding :: findings)

namespace Walk

variable {tokens between left : List Token} {findings more : List Finding}

theorem trans (first : Walk tokens between findings) (second : Walk between left more) :
    Walk tokens left (findings ++ more) := by
  induction first with
  | stop => exact second
  | take passable _ ih => exact .take passable (ih second)
  | mark place arises _ ih => exact .mark place arises (ih second)

theorem suffix (walk : Walk tokens left findings) : left <:+ tokens := by
  induction walk with
  | stop tokens => exact List.suffix_rfl
  | take _ _ ih => exact ih.trans (List.suffix_cons _ _)
  | mark _ _ _ ih => exact ih

/-- What a finding on the way is placed at is one of the tokens. -/
theorem mem_of_token (walk : Walk tokens left findings) :
    ∀ finding ∈ findings, ∀ token, finding.token = some token → token ∈ tokens := by
  induction walk with
  | stop =>
      intro finding member
      cases member
  | take _ _ ih =>
      intro finding member token place
      exact List.mem_cons_of_mem _ (ih finding member token place)
  | mark front _ _ ih =>
      intro finding member token place
      rcases List.mem_cons.1 member with rfl | later
      · exact List.mem_of_head? (front.symm.trans place)
      · exact ih finding later token place

theorem length_le (walk : Walk tokens left findings) : left.length ≤ tokens.length :=
  walk.suffix.length_le

/-- Behind a first token there is one fewer. -/
theorem length_lt {token : Token} (walk : Walk tokens left findings) :
    left.length < (token :: tokens).length := by
  have := walk.length_le
  simp only [List.length_cons]
  omega

theorem arises (walk : Walk tokens left findings) : ∀ finding ∈ findings, finding.Arises := by
  induction walk with
  | stop =>
      intro finding member
      cases member
  | take _ _ ih => exact ih
  | mark _ arises _ ih =>
      intro finding member
      rcases List.mem_cons.1 member with rfl | member
      · exact arises
      · exact ih finding member

/-- All of some tokens are taken. -/
theorem of_taken {taken : List Token} (passable : ∀ token ∈ taken, token.Passable)
    (left : List Token) : Walk (taken ++ left) left [] := by
  induction taken with
  | nil => exact .stop left
  | cons token taken ih =>
      apply Walk.take (passable token (List.mem_cons_self ..))
      apply ih
      intro other member
      exact passable other (List.mem_cons_of_mem _ member)

/-- What a walk without findings takes can be taken. -/
theorem exists_taken (walk : Walk tokens left []) :
    ∃ taken, tokens = taken ++ left ∧ ∀ token ∈ taken, token.Passable := by
  generalize none : ([] : List Finding) = findings at walk
  induction walk with
  | stop tokens => exact ⟨[], rfl, nofun⟩
  | @take token tokens left findings passable _ ih =>
      obtain ⟨taken, rfl, all⟩ := ih none
      refine ⟨token :: taken, rfl, ?_⟩
      intro other member
      rcases List.mem_cons.1 member with rfl | member
      · exact passable
      · exact all other member
  | mark => cases none

/-- A finding at one of the tokens that are taken. -/
theorem at_taken {taken : List Token} (passable : ∀ token ∈ taken, token.Passable)
    (finding : Finding) {token : Token} (member : token ∈ taken)
    (place : finding.token = some token) (arises : finding.Arises) (left : List Token) :
    Walk (taken ++ left) left [finding] := by
  obtain ⟨earlier, later, rfl⟩ := List.append_of_mem member
  have first : Walk (earlier ++ (token :: later ++ left)) (token :: later ++ left) [] :=
    .of_taken (fun other inside => passable other (List.mem_append_left _ inside)) _
  have second : Walk (token :: later ++ left) left [] :=
    .of_taken (fun other inside => passable other (List.mem_append_right _ inside)) left
  rw [List.append_assoc]
  exact first.trans (.mark place arises second)

theorem single {finding : Finding} (place : finding.token = tokens.head?)
    (arises : finding.Arises) : Walk tokens tokens [finding] :=
  .mark place arises (.stop tokens)

end Walk

/-! ## Runs of readers -/

namespace Reader

variable {α β : Type}

/-- How a run ends that began in front of some tokens. -/
def Ends (tokens : List Token) : EStateM.Result Fault (List Token) α → Prop
  | .ok _ left => Walk tokens left []
  | .error fault left => Walk tokens left [.fault fault]

/-- A reader whose runs are walks. -/
def Walks (reader : Reader α) : Prop := ∀ tokens, Ends tokens (reader tokens)

section Closure

variable {tokens between : List Token} {reader : Reader α} {next : α → Reader β}

theorem Ends.of_walk {result : EStateM.Result Fault (List Token) α}
    (walk : Walk tokens between []) (ends : Ends between result) : Ends tokens result := by
  cases result with
  | ok value left => exact walk.trans ends
  | error fault left => exact walk.trans ends

theorem Ends.take {token : Token} {result : EStateM.Result Fault (List Token) α}
    (passable : token.Passable) (ends : Ends tokens result) : Ends (token :: tokens) result :=
  ends.of_walk (.take passable (.stop tokens))

theorem Ends.bind (first : Ends tokens (reader tokens)) (second : ∀ value, Walks (next value)) :
    Ends tokens ((reader >>= next) tokens) := by
  cases run : reader tokens with
  | ok value between =>
      rw [run] at first
      rw [bind_of_ok run]
      exact (second value between).of_walk first
  | error fault left =>
      rw [run] at first
      rw [bind_of_error run]
      exact first

theorem Walks.bind (first : Walks reader) (second : ∀ value, Walks (next value)) :
    Walks (reader >>= next) :=
  fun tokens => (first tokens).bind second

theorem Walks.pure (value : α) : Walks (pure value) := fun tokens => .stop tokens

/-- A fault at the front. -/
theorem ends_failAt {problem : Problem} (known : problem ≠ .nothingLeft) (tokens : List Token) :
    Ends tokens (failAt problem tokens.head? tokens : EStateM.Result Fault (List Token) α) :=
  Walk.single rfl known

theorem walks_fail {problem : Problem} (known : problem ≠ .nothingLeft) :
    Walks (fail problem : Reader α) :=
  fun tokens => ends_failAt known tokens

/-- A run is the run of the branch that it takes. -/
theorem ends_of_branch (branches : ∀ branch, reader = branch → Ends tokens (branch tokens)) :
    Ends tokens (reader tokens) :=
  branches reader rfl

theorem walks_at? (kind : Token.Kind) : Walks (at? kind) := fun tokens => .stop tokens

/-- A token that was asked for is taken. -/
theorem ends_advance {asked : Token → Bool} {next : Bool → Reader β}
    {taking : Option Token → Reader β} (taken : next true = advance >>= taking)
    (passable : ∀ token, asked token → token.Passable) (walks : ∀ found, Walks (taking found))
    (other : Walks (next false)) (tokens : List Token) :
    Ends tokens (next (tokens.head?.any asked) tokens) := by
  cases answer : tokens.head?.any asked with
  | false => exact other tokens
  | true =>
      cases tokens with
      | nil => cases answer
      | cons token rest =>
          rw [taken, advance_bind]
          exact (walks _ rest).take (passable token answer)

theorem walks_expectElse (kind : Token.Kind) {problem : Problem}
    (known : problem ≠ .nothingLeft) : Walks (expectElse kind problem) := by
  intro tokens
  cases tokens with
  | nil => exact Walk.single rfl known
  | cons token rest =>
      rw [expectElse]
      split
      next => exact Walk.single rfl known
      next accepted =>
        simp only [Bool.or_eq_true, decide_eq_true_eq, not_or] at accepted
        exact .take (fun ends => absurd ends accepted.1) (.stop rest)

/-- A repetition of walks is a walk. -/
theorem walks_loop {step : β → Reader (ForInStep β)} (steps : ∀ value, Walks (step value))
    (value : β) : Walks (loop value step) := by
  intro tokens
  change Ends tokens (repeatSteps List.length step value tokens)
  fun_induction repeatSteps List.length step value tokens with
  | case1 value tokens fault left run =>
      have first := steps value tokens
      rwa [run] at first
  | case2 value tokens result left run =>
      have first := steps value tokens
      rw [run] at first
      exact first
  | case3 value tokens found left run shorter ih =>
      have first := steps value tokens
      rw [run] at first
      exact ih.of_walk first
  | case4 value tokens found left run stuck =>
      have first := steps value tokens
      rw [run] at first
      exact first

end Closure

/-! ## Groups, statements and blocks -/

theorem ends_groupFrom (opener : Token) (frame : Group.Frame) (outer : List Group.Frame)
    (seen tokens : List Token) : Ends tokens (groupFrom opener frame outer seen tokens) := by
  induction tokens generalizing frame outer seen with
  | nil => exact Walk.single rfl (by simp)
  | cons token rest ih =>
      rw [groupFrom.eq_def]
      dsimp only
      split
      next => exact Walk.single rfl (by simp)
      next opens => exact (ih _ _ _).take (Token.passable_of_kind opens (by simp))
      next closes =>
        have passable := Token.passable_of_kind closes (by simp)
        split
        · split
          · exact .take passable (.stop rest)
          · exact (ih _ _ _).take passable
        · -- A bracket that closes the wrong shape is taken behind the finding.
          exact .mark rfl (by simp) (.take passable (.stop rest))
      next notEnd _ _ => exact (ih _ _ _).take fun ends => absurd ends notEnd

theorem walks_group : Walks group := by
  intro tokens
  cases tokens with
  | nil => exact Walk.single rfl (by simp)
  | cons token rest =>
      rw [group]
      split
      next opens =>
        exact (ends_groupFrom _ _ _ _ rest).take (Token.passable_of_kind opens (by simp))
      next => exact Walk.single rfl (by simp)

/-- A statement that is read on ends as a walk, or where its end is missing. -/
theorem ends_statementFrom (start : Option Token) (seen tokens : List Token) :
    Ends tokens (statementFrom start seen tokens) ∨
      ∃ left, statementFrom start seen tokens = .error ⟨.unterminatedStatement, start⟩ left ∧
        Walk tokens left [] := by
  fun_induction statementFrom start seen tokens with
  | case1 seen => exact .inr ⟨[], rfl, .stop []⟩
  | case2 seen token rest ends => exact .inr ⟨_, rfl, .stop _⟩
  | case3 seen token rest ends =>
      exact .inl (.take (Token.passable_of_kind ends (by simp)) (.stop rest))
  | case4 seen token rest closes => exact .inl (Walk.single rfl (by simp))
  | case5 seen token rest shape opens result left read ih =>
      have walk := walks_group (token :: rest)
      rw [read] at walk
      rcases ih with ends | ⟨final, same, later⟩
      · exact .inl (ends.of_walk walk)
      · exact .inr ⟨final, same, walk.trans later⟩
  | case6 seen token rest shape opens fault left read =>
      have walk := walks_group (token :: rest)
      rw [read] at walk
      exact .inl walk
  | case7 seen token rest notEnd _ _ _ ih =>
      have passable : token.Passable := fun ends => absurd ends notEnd
      rcases ih with ends | ⟨final, same, later⟩
      · exact .inl (ends.take passable)
      · exact .inr ⟨final, same, .take passable later⟩

theorem walks_statement : Walks statement := by
  intro tokens
  rw [statement]
  rcases ends_statementFrom tokens.head? [] tokens with ends | ⟨left, same, walk⟩
  · exact ends
  · rw [same]
    exact .mark rfl (by simp) walk

theorem walks_assembly : Walks (assembly : Reader Unit) := by
  intro tokens
  fun_induction assembly tokens with
  | case1 => exact Walk.single rfl (by simp)
  | case2 token rest ends => exact Walk.single rfl (by simp)
  | case3 token rest opens result left read =>
      have walk := walks_group (token :: rest)
      rwa [read] at walk
  | case4 token rest opens fault left read =>
      have walk := walks_group (token :: rest)
      rwa [read] at walk
  | case5 token rest opens result left read ih =>
      have walk := walks_group (token :: rest)
      rw [read] at walk
      exact ih.of_walk walk
  | case6 token rest opens fault left read =>
      have walk := walks_group (token :: rest)
      rwa [read] at walk
  | case7 token rest notEnd _ _ ih => exact ih.take fun ends => absurd ends notEnd

theorem walks_blockFrom (limit depth : Nat) (pending : Option Token) :
    Walks (blockFrom limit depth pending : Reader Unit) := by
  intro tokens
  fun_induction blockFrom limit depth pending tokens with
  | case1 => exact Walk.single rfl (by simp)
  | case2 => exact Walk.single rfl (by simp)
  | case3 => exact Walk.single rfl (by simp)
  | case4 token rest closes => exact .take (Token.passable_of_kind closes (by simp)) (.stop rest)
  | case5 token rest closes depth ih => exact ih.take (Token.passable_of_kind closes (by simp))
  | case6 => exact Walk.single rfl (by simp)
  | case7 depth pending token rest opens room ih =>
      exact ih.take (Token.passable_of_kind opens (by simp))
  | case8 => exact Walk.single rfl (by simp)
  | case9 depth pending token rest shape notBrace opens result left read ih =>
      have walk := walks_group (token :: rest)
      rw [read] at walk
      exact ih.of_walk walk
  | case10 depth pending token rest shape notBrace opens fault left read =>
      have walk := walks_group (token :: rest)
      rwa [read] at walk
  | case11 => exact Walk.single rfl (by simp)
  | case12 depth pending token rest ends settled ih =>
      exact ih.take (Token.passable_of_kind ends (by simp))
  | case13 depth pending token rest isAssembly _ left read notEnd _ _ _ _ _ ih =>
      have walk := walks_assembly rest
      rw [read] at walk
      exact (ih.of_walk walk).take fun ends => absurd ends notEnd
  | case14 depth pending token rest isAssembly fault left read notEnd =>
      have ends := walks_assembly rest
      rw [read] at ends
      exact Ends.take (fun ends => absurd ends notEnd) ends
  | case15 depth pending token rest notAssembly notEnd _ _ _ _ _ ih =>
      exact ih.take fun ends => absurd ends notEnd

theorem walks_block (limit : Nat) : Walks (block limit) :=
  (walks_expectElse _ (by simp)).bind fun _ => walks_blockFrom limit 0 none

/-! ## Declarations -/

theorem walks_parenthesized? : Walks parenthesized? := by
  rw [parenthesized?]
  apply (walks_at? _).bind
  intro found
  split
  · exact walks_group.bind fun _ => .pure _
  · exact .pure _

theorem walks_modifierStep (limit : Nat) (name : String) (isVirtual : Bool) :
    Walks (modifierStep limit name isVirtual) := by
  intro tokens
  rw [modifierStep, current_bind]
  cases tokens with
  | nil => exact Walk.single rfl (by simp)
  | cons token rest =>
      apply ends_of_branch
      intro branch same
      simp only [List.head?_cons] at same
      split at same <;> subst same
      next => exact Walk.single rfl (by simp)
      next => exact ((walks_block limit).bind fun _ => .pure _) _
      next ends => exact .take (Token.passable_of_kind ends (by simp)) (.stop rest)
      next notEnd _ _ =>
        have passable : token.Passable := fun ends => absurd ends notEnd
        split
        · exact .take passable (.stop rest)
        · split
          · rw [advance_bind]
            exact ((walks_parenthesized?.bind fun _ => .pure _) rest).take passable
          · exact Walk.single rfl (by simp)

/-- What is put together from parts walks. -/
theorem Built.walks {reader : Reader α} (built : Built reader) : Walks reader := by
  induction built with
  | pure value => exact .pure value
  | bind _ _ first second => exact first.bind second
  | fail known => exact walks_fail known.1
  | at? kind => exact walks_at? kind
  | ask asked plain taken _ _ behind other =>
      apply ends_advance taken _ behind other
      intro token isAsked ends
      have isPlain := plain token isAsked
      rw [ends] at isPlain
      cases isPlain
  | expectElse _ known => exact walks_expectElse _ known.1
  | group => exact walks_group
  | statement => exact walks_statement
  | loop value _ steps => exact walks_loop steps value

theorem walks_modifier (limit : Nat) (start : Token) : Walks (modifier limit start) := by
  apply (built_expectName _).walks.bind
  intro name
  apply walks_parenthesized?.bind
  intro parameters
  exact (walks_loop (walks_modifierStep limit name.text) false).bind fun _ => .pure _

/-- How a run ends that began behind a token, where a fault may show at that token. -/
def EndsBehind (start : Token) (tokens : List Token) :
    EStateM.Result Fault (List Token) α → Prop
  | .ok _ left => Walk tokens left []
  | .error fault left => Walk (start :: tokens) left [.fault fault]

/-- A reader whose answer may be refused at the token in front of what it reads. -/
theorem endsBehind {reader : Reader α} {next : α → Reader β} {start : Token}
    (passable : start.Passable) (walks : Walks reader)
    (settled : ∀ value, (∃ answer, next value = pure answer) ∨
      ∃ problem, problem.OfSource ∧ next value = failAt problem start)
    (tokens : List Token) : EndsBehind start tokens ((reader >>= next) tokens) := by
  have walk := walks tokens
  cases run : reader tokens with
  | error fault left =>
      rw [run] at walk
      rw [bind_of_error run]
      exact .take passable walk
  | ok value left =>
      rw [run] at walk
      rw [bind_of_ok run]
      rcases settled value with ⟨answer, same⟩ | ⟨problem, known, same⟩
      · rw [same]
        exact walk
      · rw [same]
        exact .mark rfl known.1 (.take passable walk)

theorem endsBehind_importPath (start : Token) (passable : start.Passable) (tokens : List Token) :
    EndsBehind start tokens (importPath start tokens) := by
  apply endsBehind passable walks_statement
  intro phrase
  split
  · exact .inl ⟨_, rfl⟩
  · exact .inr ⟨_, by simp, rfl⟩

theorem endsBehind_usingFor (start : Token) (passable : start.Passable) (tokens : List Token) :
    EndsBehind start tokens (usingFor start tokens) := by
  apply endsBehind passable walks_statement
  intro phrase
  dsimp only
  split
  · exact .inr ⟨_, by simp, rfl⟩
  · exact .inl ⟨_, rfl⟩

end Reader

/-! ## State variables -/

namespace Tree.Variable

theorem pastGroup_suffix (depth : Nat) (tokens : List Token) :
    pastGroup depth tokens <:+ tokens := by
  induction tokens generalizing depth with
  | nil => exact List.suffix_rfl
  | cons token rest ih =>
      have further (depth : Nat) : pastGroup depth rest <:+ token :: rest :=
        (ih depth).trans (List.suffix_cons _ _)
      rw [pastGroup.eq_def]
      dsimp only
      split
      · exact further _
      · exact List.suffix_cons _ _
      · exact further _
      · exact further _

theorem pastQualifiers_suffix (tokens : List Token) :
    match pastQualifiers tokens with
    | .ok left => left <:+ tokens
    | .error place => place <:+ tokens := by
  fun_induction pastQualifiers tokens with
  | case1 => exact List.suffix_rfl
  | case2 => exact List.nil_suffix
  | case3 => exact List.suffix_rfl
  | case4 => exact List.suffix_rfl
  | case5 token name rest _ _ ih =>
      have further {left : List Token} (inner : left <:+ rest) : left <:+ token :: name :: rest :=
        (inner.trans (List.suffix_cons _ _)).trans (List.suffix_cons _ _)
      split at ih <;> exact further ih
  | case6 token name rest => exact List.suffix_cons _ _

theorem pastIndexes_suffix (tokens : List Token) : pastIndexes tokens <:+ tokens := by
  fun_induction pastIndexes tokens with
  | case1 => exact List.suffix_rfl
  | case2 token rest _ ih =>
      exact (ih.trans (pastGroup_suffix 0 rest)).trans (List.suffix_cons _ _)
  | case3 => exact List.suffix_rfl

theorem takeSpecifiers_suffix (seen : List String) (tokens : List Token) :
    (takeSpecifiers seen tokens).2 <:+ tokens := by
  fun_induction takeSpecifiers seen tokens with
  | case1 => exact List.suffix_rfl
  | case2 seen token _ next inner _ ih =>
      exact ((ih.trans (pastGroup_suffix 0 inner)).trans (List.suffix_cons _ _)).trans
        (List.suffix_cons _ _)
  | case3 seen token next inner _ _ ih => exact ih.trans (List.suffix_cons _ _)
  | case4 => exact List.nil_suffix
  | case5 => exact List.suffix_rfl

/-- The fault that is reported at a place among the tokens of a statement. -/
def faultAt (start : Token) (tokens place : List Token) (problem : Problem) : Fault :=
  ⟨problem, place.head? <|> tokens.getLast? <|> some start⟩

/-- The state variable whose type name ends in front of `afterName`. -/
def behindName (start : Token) (tokens afterName : List Token) : Except Fault Variable := do
  let failAt {α : Type} (place : List Token) (problem : Problem) : Except Fault α :=
    .error (faultAt start tokens place problem)
  let afterType := pastIndexes afterName
  let typeTokens := tokens.take (tokens.length - afterType.length)
  let (words, afterSpecifiers) := takeSpecifiers [] afterType
  match afterSpecifiers with
  | [] => failAt [] (.expectedVariableName start.text)
  | name :: rest =>
      if name.kind ≠ .identifier then
        failAt afterSpecifiers (.expectedVariableName start.text)
      match rest with
      | [] => pure ()
      | following :: initializer =>
          if following.kind ≠ .operator || following.text ≠ "=" then
            failAt rest (.unexpectedAfterVariable following.text name.text)
          match initializer.getLast? with
          | none => failAt rest (.expectedInitializer name.text)
          | some last =>
              if last.isDangling then failAt [last] (.expectedExpressionAfter last.text)
      return {
        name := name.text
        typeName := typeText typeTokens
        visibility := visibilityOf words
        isConstant := words.contains "constant"
        isImmutable := words.contains "immutable"
        position := start.position }

/-- Whether a fault, if there is one, shows at one of some tokens. -/
def ShowsIn {α : Type} (tokens : List Token) (result : Except Fault α) : Prop :=
  ∀ fault, result = .error fault →
    fault.problem.OfSource ∧ ∃ token ∈ tokens, fault.token = some token

section Faults

variable {α : Type} {start : Token} {tokens place : List Token}

theorem showsIn_ok (value : α) : ShowsIn tokens (.ok value) := by
  intro fault failed
  cases failed

theorem showsIn_faultAt {problem : Problem} (nonempty : tokens ≠ [])
    (inside : ∀ token ∈ place, token ∈ tokens) (known : problem.OfSource) :
    ShowsIn tokens (.error (faultAt start tokens place problem) : Except Fault α) := by
  rintro _ ⟨⟩
  refine ⟨known, ?_⟩
  cases place with
  | cons token rest => exact ⟨token, inside token (List.mem_cons_self ..), rfl⟩
  | nil =>
      refine ⟨tokens.getLast nonempty, List.getLast_mem nonempty, ?_⟩
      simp [faultAt, List.getLast?_eq_some_getLast nonempty]

theorem showsIn_behindName (nonempty : tokens ≠ []) {afterName : List Token}
    (inside : afterName <:+ tokens) : ShowsIn tokens (behindName start tokens afterName) := by
  have behind : (takeSpecifiers [] (pastIndexes afterName)).2 <:+ tokens :=
    ((takeSpecifiers_suffix _ _).trans (pastIndexes_suffix _)).trans inside
  unfold behindName
  simp only [bind, Except.bind]
  generalize takeSpecifiers [] (pastIndexes afterName) = found at behind ⊢
  obtain ⟨words, afterSpecifiers⟩ := found
  dsimp only at behind ⊢
  split
  next => exact showsIn_faultAt nonempty (by simp) (by simp)
  next name rest =>
    have member {token : Token} (within : token ∈ name :: rest) : token ∈ tokens :=
      behind.subset within
    split
    · exact showsIn_faultAt nonempty (fun _ => member) (by simp)
    · split
      · exact showsIn_ok _
      next following initializer =>
        have later : ∀ token ∈ following :: initializer, token ∈ tokens :=
          fun _ within => member (List.mem_cons_of_mem _ within)
        split
        · exact showsIn_faultAt nonempty later (by simp)
        · split
          next => exact showsIn_faultAt nonempty later (by simp)
          next last isLast =>
            split
            · apply showsIn_faultAt nonempty _ (by simp)
              intro token isIt
              rw [List.mem_singleton.1 isIt]
              exact later last (List.mem_cons_of_mem _ (List.mem_of_getLast? isLast))
            · exact showsIn_ok _

/-- A fault in the tokens of a statement shows at one of them. -/
theorem showsIn_ofTokens (nonempty : tokens ≠ []) : ShowsIn tokens (ofTokens start tokens) := by
  unfold ofTokens
  simp only [bind, Except.bind]
  split
  next first rest =>
    have later : ∀ {left : List Token}, left <:+ rest → left <:+ first :: rest :=
      fun inner => inner.trans (List.suffix_cons _ _)
    split
    · exact showsIn_faultAt nonempty (fun _ => id) (by simp)
    · split
      · split
        next next inner =>
          split
          · exact showsIn_behindName nonempty
              (later ((pastGroup_suffix 0 inner).trans (List.suffix_cons _ _)))
          · exact showsIn_faultAt nonempty (later List.suffix_rfl).subset (by simp)
        next => exact showsIn_faultAt nonempty (later List.suffix_rfl).subset (by simp)
      · have passed := pastQualifiers_suffix rest
        split
        next place failed =>
          rw [failed] at passed
          exact showsIn_faultAt nonempty (later passed).subset (by simp)
        next left found =>
          rw [found] at passed
          split
          · exact showsIn_behindName nonempty (later ((List.tail_suffix left).trans passed))
          · exact showsIn_behindName nonempty (later passed)
  next => exact absurd rfl nonempty

end Faults

end Tree.Variable

end Interlock
