import Interlock.Proofs.Walk

/-!
# The grammar of state variables

The tokens of a statement declare a state variable when they are a type, specifiers, a
name and perhaps an initializer.  The parts are taken greedily: each one goes as far as
its next token allows, so whether a part is over is said of what stands behind it.

In a statement every group that is opened is answered, so the end of a group may be
found by counting brackets of any shape.
-/

namespace Interlock

/-! ## Groups by counting -/

/-- Token lists in which every group that is opened is answered.  Closing brackets may be left
over. -/
inductive Answered : List Token → Prop where
  | nil : Answered []
  | token {token : Token} {rest : List Token} :
      (∀ shape, token.kind ≠ .opening shape) → Answered rest → Answered (token :: rest)
  | group {shape : Bracket} {group : Group} {rest : List Token} :
      group.Encloses shape → Answered rest → Answered (group.tokens ++ rest)

theorem Reader.Phrase.answered {phrase : List Token} (reads : Phrase phrase) : Answered phrase := by
  induction reads with
  | nil => exact .nil
  | token notOpening _ _ _ _ ih => exact .token notOpening ih
  | group encloses _ ih => exact .group encloses ih

theorem Balanced.answered_append {inner rest : List Token} (balanced : Balanced inner)
    (answered : Answered rest) : Answered (inner ++ rest) := by
  induction balanced with
  | nil => exact answered
  | @plain token _ plain _ ih =>
      refine .token (fun shape opens => ?_) ih
      rw [opens] at plain
      cases plain
  | @group shape opener closer inner _ opens balanced closes _ _ ih =>
      have encloses : Group.Encloses shape ⟨opener, inner, closer⟩ := ⟨opens, balanced, closes⟩
      simpa [Group.tokens] using Answered.group encloses ih

namespace Answered

variable {token : Token} {rest : List Token}

/-- An opening bracket is answered by a group, behind which the groups are answered too. -/
theorem exists_group {shape : Bracket} (answered : Answered (token :: rest))
    (opens : token.kind = .opening shape) :
    ∃ (group : Group) (left : List Token), group.Encloses shape ∧ token = group.opener ∧
      rest = group.inner ++ group.closer :: left ∧ Answered left := by
  generalize whole : token :: rest = tokens at answered
  cases answered with
  | nil => cases whole
  | token notOpening _ =>
      cases whole
      exact absurd opens (notOpening shape)
  | @group other group left encloses answered =>
      obtain ⟨rfl, rfl⟩ := List.cons.inj (whole.trans group.tokens_append)
      obtain rfl : shape = other := by
        rw [encloses.opens] at opens
        cases opens
        rfl
      exact ⟨group, left, encloses, rfl, rfl, answered⟩

/-- Behind the first token the groups are answered, also inside a group. -/
theorem tail (answered : Answered (token :: rest)) : Answered rest := by
  generalize whole : token :: rest = tokens at answered
  cases answered with
  | nil => cases whole
  | token _ answered =>
      cases whole
      exact answered
  | @group shape group left encloses answered =>
      obtain ⟨-, rfl⟩ := List.cons.inj (whole.trans group.tokens_append)
      refine encloses.balanced.answered_append (.token (fun other opens => ?_) answered)
      rw [encloses.closes] at opens
      cases opens

/-- Behind any front the groups are answered.  Since `payable` is known by its text alone, nothing
says that the name of a type ends outside of groups. -/
theorem of_append {front : List Token} (answered : Answered (front ++ rest)) : Answered rest := by
  induction front with
  | nil => exact answered
  | cons token front ih => exact ih answered.tail

end Answered

namespace Tree.Variable

theorem pastGroup_opening {depth : Nat} {token : Token} {rest : List Token} {shape : Bracket}
    (opens : token.kind = .opening shape) :
    pastGroup depth (token :: rest) = pastGroup (depth + 1) rest := by
  rw [pastGroup.eq_def]
  simp only [opens]

theorem pastGroup_closing {token : Token} {rest : List Token} {shape : Bracket} (depth : Nat)
    (closes : token.kind = .closing shape) :
    pastGroup depth (token :: rest) =
      match depth with
      | 0 => rest
      | depth + 1 => pastGroup depth rest := by
  rw [pastGroup.eq_def]
  simp only [closes]
  cases depth <;> rfl

theorem pastGroup_plain {depth : Nat} {token : Token} {rest : List Token}
    (plain : token.kind.isPlain) : pastGroup depth (token :: rest) = pastGroup depth rest := by
  rw [pastGroup.eq_def]
  cases kind : token.kind <;> simp_all [Token.Kind.isPlain]

/-- Balanced tokens leave the count of open brackets as it was. -/
theorem pastGroup_append {inner : List Token} (balanced : Balanced inner) (depth : Nat)
    (rest : List Token) : pastGroup depth (inner ++ rest) = pastGroup depth rest := by
  induction balanced generalizing depth rest with
  | nil => rfl
  | plain plain _ ih => rw [List.cons_append, pastGroup_plain plain, ih]
  | group opens _ closes _ innerIH restIH =>
      rw [List.cons_append, pastGroup_opening opens, List.append_assoc, innerIH,
        List.cons_append, pastGroup_closing _ closes]
      exact restIH depth rest

/-- Counting ends where the group ends. -/
theorem pastGroup_of_encloses {shape : Bracket} {group : Group} (encloses : group.Encloses shape)
    (left : List Token) : pastGroup 0 (group.inner ++ group.closer :: left) = left := by
  rw [pastGroup_append encloses.balanced, pastGroup_closing 0 encloses.closes]

/-! ## The parts of a declaration -/

/-- Further names of a dotted name, and what stands behind them. -/
inductive Qualifies : (names rest : List Token) → Prop where
  | done {rest : List Token} : (∀ token ∈ rest.head?, token.kind ≠ .dot) → Qualifies [] rest
  | more {dot name : Token} {names rest : List Token} :
      dot.kind = .dot → name.kind = .identifier → Qualifies names rest →
      Qualifies (dot :: name :: names) rest

/-- The word `payable`, which belongs to the type `address`, and what stands behind it. -/
inductive Pays (first : Token) : (payable rest : List Token) → Prop where
  | payable {token : Token} {rest : List Token} :
      first.text = "address" → token.text = "payable" → Pays first [token] rest
  | plain {rest : List Token} :
      (first.text = "address" → ∀ token ∈ rest.head?, token.text ≠ "payable") →
      Pays first [] rest

/-- The name of a type, and what stands behind it. -/
inductive NamesType : (name rest : List Token) → Prop where
  | mapping {word : Token} {types : Group} {rest : List Token} :
      word.isWord "mapping" → types.Encloses .paren → NamesType (word :: types.tokens) rest
  | named {first : Token} {names payable rest : List Token} :
      first.kind = .identifier → first.text ≠ "mapping" → Qualifies names (payable ++ rest) →
      Pays first payable rest → NamesType (first :: (names ++ payable)) rest

/-- The array brackets of a type, and what stands behind them. -/
inductive Indexes : (indexes rest : List Token) → Prop where
  | done {rest : List Token} :
      (∀ token ∈ rest.head?, token.kind ≠ .opening .square) → Indexes [] rest
  | more {group : Group} {indexes rest : List Token} :
      group.Encloses .square → Indexes indexes rest → Indexes (group.tokens ++ indexes) rest

/-- Whether a token is a word that may stand between a type and a name. -/
def IsSpecifier (token : Token) : Prop := token.kind = .identifier ∧ token.text ∈ specifiers

/-- Specifiers with their words, and what stands behind them.  Only `override` may have a group. -/
inductive Specifies : List String → (tokens rest : List Token) → Prop where
  | done {rest : List Token} :
      (∀ token ∈ rest.head?, ¬ IsSpecifier token) → Specifies [] [] rest
  | word {token : Token} {words : List String} {tokens rest : List Token} :
      IsSpecifier token →
      (token.text = "override" → ∀ next ∈ (tokens ++ rest).head?, next.kind ≠ .opening .paren) →
      Specifies words tokens rest → Specifies (token.text :: words) (token :: tokens) rest
  | override {token : Token} {bases : Group} {words : List String} {tokens rest : List Token} :
      token.isWord "override" → bases.Encloses .paren → Specifies words tokens rest →
      Specifies ("override" :: words) (token :: (bases.tokens ++ tokens)) rest

/-- Nothing, or an equals sign and a value that does not end on an operator which lacks its
operand. -/
inductive Initializes : List Token → Prop where
  | nothing : Initializes []
  | value {equals last : Token} {value : List Token} :
      equals.kind = .operator → equals.text = "=" → last.isDangling = false →
      Initializes (equals :: (value ++ [last]))

/-- The variable that is declared by a type, specifiers and a name. -/
def ofParts (start : Token) (type : List Token) (words : List String) (name : Token) :
    Variable where
  name := name.text
  typeName := typeText type
  visibility :=
    if "public" ∈ words then some .publicly
    else if "internal" ∈ words then some .internally
    else if "private" ∈ words then some .privately
    else none
  isConstant := decide ("constant" ∈ words)
  isImmutable := decide ("immutable" ∈ words)
  position := start.position

/-- How the tokens of a statement that begins with `start` declare a variable. -/
inductive Declares (start : Token) : List Token → Variable → Prop where
  | intro {type indexes tokens init : List Token} {words : List String} {name : Token} :
      NamesType type (indexes ++ (tokens ++ name :: init)) →
      Indexes indexes (tokens ++ name :: init) → Specifies words tokens (name :: init) →
      name.kind = .identifier → name.text ∉ specifiers → Initializes init →
      Declares start (type ++ (indexes ++ (tokens ++ name :: init)))
        (ofParts start (type ++ indexes) words name)

/-! ## Each part is what its reader takes -/

theorem pastQualifiers_eq_ok_iff {tokens left : List Token} :
    pastQualifiers tokens = .ok left ↔ ∃ names, Qualifies names left ∧ tokens = names ++ left := by
  constructor
  · intro passed
    fun_induction pastQualifiers tokens with
    | case1 =>
        cases passed
        exact ⟨[], .done (by simp), rfl⟩
    | case2 => cases passed
    | case3 token notDot =>
        cases passed
        exact ⟨[], .done (by simpa using notDot), rfl⟩
    | case4 token name rest notDot =>
        cases passed
        exact ⟨[], .done (by simpa using notDot), rfl⟩
    | case5 token name rest isDot isName ih =>
        obtain ⟨names, qualifies, rfl⟩ := ih passed
        exact ⟨token :: name :: names, .more (Classical.not_not.1 isDot) isName qualifies, rfl⟩
    | case6 => cases passed
  · rintro ⟨names, qualifies, rfl⟩
    induction qualifies with
    | @done rest notDot =>
        rcases rest with _ | ⟨token, _ | ⟨name, rest⟩⟩
        · rfl
        · simp [pastQualifiers, notDot token rfl]
        · simp [pastQualifiers, notDot token rfl]
    | more isDot isName _ ih => simpa [pastQualifiers, isDot, isName] using ih

theorem exists_indexes {tokens : List Token} (answered : Answered tokens) :
    ∃ indexes, Indexes indexes (pastIndexes tokens) ∧ tokens = indexes ++ pastIndexes tokens := by
  fun_induction pastIndexes tokens with
  | case1 => exact ⟨[], .done (by simp), rfl⟩
  | case2 token rest opens ih =>
      obtain ⟨group, left, encloses, rfl, rfl, behind⟩ := answered.exists_group opens
      rw [pastGroup_of_encloses encloses] at ih ⊢
      obtain ⟨indexes, reads, rest⟩ := ih behind
      refine ⟨group.tokens ++ indexes, .more encloses reads, ?_⟩
      rw [List.append_assoc, ← rest, group.tokens_append]
  | case3 token rest notOpening => exact ⟨[], .done (by simpa using notOpening), rfl⟩

theorem pastIndexes_of_indexes {indexes rest : List Token} (reads : Indexes indexes rest) :
    pastIndexes (indexes ++ rest) = rest := by
  induction reads with
  | @done rest notOpening =>
      cases rest with
      | nil => rw [List.nil_append, pastIndexes]
      | cons token rest => rw [List.nil_append, pastIndexes, if_neg (notOpening token rfl)]
  | @more group indexes rest encloses _ ih =>
      rw [List.append_assoc, group.tokens_append, pastIndexes.eq_def]
      dsimp only
      rw [if_pos encloses.opens, pastGroup_of_encloses encloses, ih]

theorem isSpecifier_iff {token : Token} :
    (token.kind = .identifier && specifiers.contains token.text) = true ↔ IsSpecifier token := by
  simp [IsSpecifier]

theorem takeSpecifiers_done {tokens : List Token}
    (notSpecifier : ∀ token ∈ tokens.head?, ¬ IsSpecifier token) (seen : List String) :
    takeSpecifiers seen tokens = (seen, tokens) := by
  rw [takeSpecifiers.eq_def]
  cases tokens with
  | nil => rfl
  | cons token rest => exact if_neg (mt isSpecifier_iff.1 (notSpecifier token rfl))

theorem takeSpecifiers_word {token : Token} {rest : List Token} (isSpecifier : IsSpecifier token)
    (noGroup : token.text = "override" → ∀ next ∈ rest.head?, next.kind ≠ .opening .paren)
    (seen : List String) :
    takeSpecifiers seen (token :: rest) = takeSpecifiers (token.text :: seen) rest := by
  rw [takeSpecifiers.eq_def]
  dsimp only
  rw [if_pos (isSpecifier_iff.2 isSpecifier)]
  cases rest with
  | nil => exact (takeSpecifiers_done (by simp) _).symm
  | cons next inner =>
      refine if_neg fun hasGroup => ?_
      simp only [Bool.and_eq_true, decide_eq_true_eq] at hasGroup
      exact noGroup hasGroup.1 next rfl hasGroup.2

theorem takeSpecifiers_override {token : Token} {bases : Group}
    (isOverride : token.isWord "override") (encloses : bases.Encloses .paren) (rest : List Token)
    (seen : List String) :
    takeSpecifiers seen (token :: (bases.tokens ++ rest)) =
      takeSpecifiers ("override" :: seen) rest := by
  simp only [Token.isWord, Bool.and_eq_true, decide_eq_true_eq] at isOverride
  have isSpecifier : IsSpecifier token := ⟨isOverride.1, by simp [isOverride.2, specifiers]⟩
  rw [bases.tokens_append, takeSpecifiers.eq_def]
  dsimp only
  rw [if_pos (isSpecifier_iff.2 isSpecifier), if_pos (by simp [isOverride.2, encloses.opens]),
    pastGroup_of_encloses encloses, isOverride.2]

theorem exists_specifies {tokens : List Token} (answered : Answered tokens) (seen : List String) :
    ∃ words own, Specifies words own (takeSpecifiers seen tokens).2 ∧
      tokens = own ++ (takeSpecifiers seen tokens).2 := by
  fun_induction takeSpecifiers seen tokens with
  | case1 seen => exact ⟨[], [], .done (by simp), rfl⟩
  | case2 seen token isSpecifier next inner hasGroup ih =>
      simp only [Bool.and_eq_true, decide_eq_true_eq] at hasGroup
      obtain ⟨isOverride, opens⟩ := hasGroup
      obtain ⟨bases, left, encloses, rfl, rfl, behind⟩ := answered.tail.exists_group opens
      rw [pastGroup_of_encloses encloses] at ih ⊢
      obtain ⟨words, own, specifies, rest⟩ := ih behind
      have isWord : token.isWord "override" := by
        simp [Token.isWord, (isSpecifier_iff.1 isSpecifier).1, isOverride]
      refine ⟨_, token :: (bases.tokens ++ own), .override isWord encloses specifies, ?_⟩
      rw [List.cons_append, List.append_assoc, ← rest, bases.tokens_append]
  | case3 seen token isSpecifier next inner noGroup ih =>
      simp only [Bool.and_eq_true, decide_eq_true_eq, not_and] at noGroup
      obtain ⟨words, own, specifies, rest⟩ := ih answered.tail
      refine ⟨_, token :: own,
        .word (isSpecifier_iff.1 isSpecifier) (fun isOverride => ?_) specifies, ?_⟩
      · rw [← rest]
        simpa using noGroup isOverride
      · rw [List.cons_append, ← rest]
  | case4 seen token isSpecifier =>
      exact ⟨_, [token],
        .word (isSpecifier_iff.1 isSpecifier) (fun _ => by simp) (.done (by simp)), rfl⟩
  | case5 seen token rest notSpecifier =>
      refine ⟨[], [], .done ?_, rfl⟩
      rintro _ ⟨rfl⟩
      exact mt isSpecifier_iff.2 notSpecifier

theorem takeSpecifiers_of_specifies {words : List String} {own rest : List Token}
    (specifies : Specifies words own rest) (seen : List String) :
    takeSpecifiers seen (own ++ rest) = (words.reverse ++ seen, rest) := by
  induction specifies generalizing seen with
  | done notSpecifier => exact takeSpecifiers_done notSpecifier seen
  | word isSpecifier noGroup _ ih =>
      rw [List.cons_append, takeSpecifiers_word isSpecifier noGroup, ih]
      simp
  | override isOverride encloses _ ih =>
      rw [List.cons_append, List.append_assoc, takeSpecifiers_override isOverride encloses, ih]
      simp

theorem Specifies.ended {words : List String} {own rest : List Token}
    (specifies : Specifies words own rest) : ∀ token ∈ rest.head?, ¬ IsSpecifier token := by
  induction specifies with
  | done notSpecifier => exact notSpecifier
  | word _ _ _ ih => exact ih
  | override _ _ _ ih => exact ih

/-- What is left behind the word `payable`, if the type is `address`. -/
def pastPayable (first : Token) (tokens : List Token) : List Token :=
  if first.text = "address" && tokens.head?.any (·.text = "payable") then tokens.tail else tokens

theorem pastPayable_eq_iff {first : Token} {tokens left : List Token} :
    pastPayable first tokens = left ↔
      ∃ payable, Pays first payable left ∧ tokens = payable ++ left := by
  unfold pastPayable
  constructor
  · intro passed
    split at passed
    next paid =>
      simp only [Bool.and_eq_true, decide_eq_true_eq, Option.any_eq_true] at paid
      obtain ⟨isAddress, payable, isNext, isPayable⟩ := paid
      obtain ⟨rest, rfl⟩ := List.head?_eq_some_iff.1 isNext
      cases passed
      exact ⟨[payable], .payable isAddress isPayable, rfl⟩
    next unpaid =>
      cases passed
      refine ⟨[], .plain fun isAddress payable isNext isPayable => unpaid ?_, rfl⟩
      have isHead : tokens.head? = some payable := isNext
      simp [isAddress, isHead, isPayable]
  · rintro ⟨payable, pays, rfl⟩
    cases pays with
    | payable isAddress isPayable => simp [isAddress, isPayable]
    | plain notPayable =>
        refine if_neg fun paid => ?_
        simp only [Bool.and_eq_true, decide_eq_true_eq, Option.any_eq_true] at paid
        obtain ⟨isAddress, payable, isNext, isPayable⟩ := paid
        exact notPayable isAddress payable isNext isPayable

/-- What is left behind the name of the type. -/
def pastName (start : Token) (tokens : List Token) : Except Fault (List Token) :=
  let failAt (place : List Token) (problem : Problem) : Except Fault (List Token) :=
    .error (faultAt start tokens place problem)
  match tokens with
  | [] => failAt [] (.unexpected start.text)
  | first :: rest =>
      if first.kind ≠ .identifier then failAt tokens (.unexpected start.text)
      else if first.text = "mapping" then
        match rest with
        | next :: inner =>
            if next.kind = .opening .paren then .ok (pastGroup 0 inner)
            else failAt rest .expectedMappingTypes
        | [] => failAt rest .expectedMappingTypes
      else
        match pastQualifiers rest with
        | .error place => failAt place .expectedTypeName
        | .ok left => .ok (pastPayable first left)

theorem ofTokens_eq (start : Token) (tokens : List Token) :
    ofTokens start tokens = (pastName start tokens).bind (behindName start tokens) := by
  unfold ofTokens pastName
  simp only [bind, Except.bind]
  cases tokens with
  | nil => rfl
  | cons first rest =>
      dsimp only
      split
      · rfl
      · split
        · cases rest with
          | nil => rfl
          | cons next inner =>
              dsimp only
              split <;> rfl
        · cases pastQualifiers rest with
          | error place => rfl
          | ok left =>
              unfold pastPayable
              dsimp only
              split <;> rfl

theorem namesType_of_pastName {start : Token} {tokens left : List Token}
    (answered : Answered tokens) (passed : pastName start tokens = .ok left) :
    ∃ type, NamesType type left ∧ tokens = type ++ left := by
  unfold pastName at passed
  dsimp only at passed
  split at passed
  · cases passed
  next first rest =>
    split at passed
    · cases passed
    next isName =>
      have isName := Classical.not_not.1 isName
      split at passed
      next isMapping =>
        split at passed
        next next inner =>
          split at passed
          next opens =>
            obtain ⟨types, left, encloses, rfl, rfl, -⟩ := answered.tail.exists_group opens
            rw [pastGroup_of_encloses encloses] at passed
            cases passed
            have isWord : first.isWord "mapping" := by simp [Token.isWord, isName, isMapping]
            refine ⟨first :: types.tokens, .mapping isWord encloses, ?_⟩
            rw [List.cons_append, types.tokens_append]
          · cases passed
        · cases passed
      next notMapping =>
        split at passed
        · cases passed
        next behind found =>
          obtain ⟨names, qualifies, rfl⟩ := pastQualifiers_eq_ok_iff.1 found
          obtain ⟨payable, pays, rfl⟩ := pastPayable_eq_iff.1 (Except.ok.inj passed)
          exact ⟨first :: (names ++ payable), .named isName notMapping qualifies pays, by simp⟩

theorem pastName_of_namesType {type left : List Token} (named : NamesType type left)
    (start : Token) : pastName start (type ++ left) = .ok left := by
  unfold pastName
  cases named with
  | @mapping word types _ isMapping encloses =>
      simp only [Token.isWord, Bool.and_eq_true, decide_eq_true_eq] at isMapping
      rw [List.cons_append, types.tokens_append]
      dsimp only
      rw [if_neg (not_not_intro isMapping.1), if_pos isMapping.2, if_pos encloses.opens,
        pastGroup_of_encloses encloses]
  | @named first names payable _ isName notMapping qualifies pays =>
      have passed := pastQualifiers_eq_ok_iff.2 ⟨names, qualifies, rfl⟩
      rw [List.cons_append, List.append_assoc]
      dsimp only
      rw [if_neg (not_not_intro isName), if_neg notMapping, passed]
      dsimp only
      rw [pastPayable_eq_iff.2 ⟨payable, pays, rfl⟩]

theorem visibilityOf_eq (words : List String) :
    visibilityOf words =
      if "public" ∈ words then some .publicly
      else if "internal" ∈ words then some .internally
      else if "private" ∈ words then some .privately
      else none := by
  by_cases isPublic : "public" ∈ words <;> by_cases isInternal : "internal" ∈ words <;>
    by_cases isPrivate : "private" ∈ words <;>
    simp [visibilityOf, Visibility.word, List.find?, isPublic, isInternal, isPrivate]

/-- The order in which the specifiers were collected does not show. -/
theorem ofParts_eq (start : Token) (type : List Token) (words : List String) (name : Token) :
    { name := name.text
      typeName := typeText type
      visibility := visibilityOf words.reverse
      isConstant := words.reverse.contains "constant"
      isImmutable := words.reverse.contains "immutable"
      position := start.position } = ofParts start type words name := by
  simp [ofParts, visibilityOf_eq]

theorem behindName_eq_ok_iff {start : Token} {type indexes own left : List Token}
    {words : List String} {node : Variable} (reads : Indexes indexes (own ++ left))
    (specifies : Specifies words own left) :
    behindName start (type ++ (indexes ++ (own ++ left))) (indexes ++ (own ++ left)) = .ok node ↔
      ∃ name init, left = name :: init ∧ name.kind = .identifier ∧ Initializes init ∧
        node = ofParts start (type ++ indexes) words name := by
  have typeTokens : (type ++ (indexes ++ (own ++ left))).take
      ((type ++ (indexes ++ (own ++ left))).length - (own ++ left).length) = type ++ indexes := by
    rw [← List.append_assoc, List.length_append, Nat.add_sub_cancel, List.take_left]
  unfold behindName
  simp only [bind, Except.bind, pastIndexes_of_indexes reads, takeSpecifiers_of_specifies specifies,
    typeTokens, List.append_nil, ofParts_eq]
  constructor
  · intro declared
    split at declared
    · cases declared
    next name init =>
      split at declared
      · cases declared
      next isName =>
        refine ⟨name, init, rfl, Classical.not_not.1 isName, ?_⟩
        split at declared
        · cases declared
          exact ⟨.nothing, rfl⟩
        next equals initializer =>
          split at declared
          · cases declared
          next isEquals =>
            split at declared
            · cases declared
            next last isLast =>
              split at declared
              · cases declared
              next notDangling =>
                cases declared
                obtain ⟨value, rfl⟩ := List.getLast?_eq_some_iff.1 isLast
                simp only [Bool.or_eq_true, decide_eq_true_eq, not_or, Classical.not_not]
                  at isEquals
                exact ⟨.value isEquals.1 isEquals.2 (by simpa using notDangling), rfl⟩
  · rintro ⟨name, init, rfl, isName, initializes, rfl⟩
    dsimp only
    rw [if_neg (not_not_intro isName)]
    cases initializes with
    | nothing => rfl
    | value isOperator isEquals notDangling =>
        simp [isOperator, isEquals, notDangling]
        rfl

/-! ## The declared variable -/

theorem declares_of_behindName {start : Token} {type left : List Token} {node : Variable}
    (answered : Answered left) (named : NamesType type left)
    (declared : behindName start (type ++ left) left = .ok node) :
    Declares start (type ++ left) node := by
  obtain ⟨indexes, reads, splitIndexes⟩ := exists_indexes answered
  rw [splitIndexes] at answered
  obtain ⟨words, own, specifies, splitWords⟩ := exists_specifies answered.of_append []
  generalize takeSpecifiers [] (pastIndexes left) = found at specifies splitWords
  rw [splitWords] at reads splitIndexes
  subst splitIndexes
  obtain ⟨name, init, isLeft, isName, initializes, rfl⟩ :=
    (behindName_eq_ok_iff reads specifies).1 declared
  rw [isLeft] at named reads specifies ⊢
  have notSpecifier : name.text ∉ specifiers := fun within =>
    specifies.ended name rfl ⟨isName, within⟩
  exact .intro named reads specifies isName notSpecifier initializes

/-- The tokens of a statement make a variable exactly when they declare it. -/
theorem variable_declared_iff {tokens left phrase : List Token}
    (stated : Reader.statement tokens = .ok phrase left) (start : Token) (node : Variable) :
    ofTokens start phrase = .ok node ↔ Declares start phrase node := by
  have answered : Answered phrase := (Reader.statement_eq_ok_iff.1 stated).1.answered
  rw [ofTokens_eq]
  constructor
  · intro declared
    cases named : pastName start phrase with
    | error fault =>
        rw [named] at declared
        cases declared
    | ok left =>
        rw [named] at declared
        obtain ⟨type, naming, rfl⟩ := namesType_of_pastName answered named
        exact declares_of_behindName answered.of_append naming declared
  · rintro ⟨named, reads, specifies, isName, -, initializes⟩
    rw [pastName_of_namesType named]
    exact (behindName_eq_ok_iff reads specifies).2 ⟨_, _, rfl, isName, initializes, rfl⟩

/-- The tokens of `address payable[] public override(Base) owners = made`. -/
def ownersPhrase : List Token :=
  [⟨.identifier, "address", ⟨1, 1⟩⟩, ⟨.identifier, "payable", ⟨1, 9⟩⟩,
    ⟨.opening .square, "[", ⟨1, 16⟩⟩, ⟨.closing .square, "]", ⟨1, 17⟩⟩,
    ⟨.identifier, "public", ⟨1, 19⟩⟩, ⟨.identifier, "override", ⟨1, 26⟩⟩,
    ⟨.opening .paren, "(", ⟨1, 34⟩⟩, ⟨.identifier, "Base", ⟨1, 35⟩⟩,
    ⟨.closing .paren, ")", ⟨1, 39⟩⟩, ⟨.identifier, "owners", ⟨1, 41⟩⟩,
    ⟨.operator, "=", ⟨1, 48⟩⟩, ⟨.identifier, "made", ⟨1, 50⟩⟩]

/-- The variable of these tokens. -/
def owners : Variable where
  name := "owners"
  typeName := "address payable[]"
  visibility := some .publicly
  isConstant := false
  isImmutable := false
  position := ⟨1, 1⟩

theorem ownersPhrase_stated :
    Reader.statement (ownersPhrase ++ [⟨.semicolon, ";", ⟨1, 54⟩⟩]) = .ok ownersPhrase [] := by
  simp [Reader.statement, ownersPhrase, Reader.statementFrom, Reader.group, Reader.groupFrom,
    Group.tokens]

theorem ownersPhrase_declared :
    Reader.statement (ownersPhrase ++ [⟨.semicolon, ";", ⟨1, 54⟩⟩]) = .ok ownersPhrase [] ∧
      Declares ⟨.identifier, "address", ⟨1, 1⟩⟩ ownersPhrase owners := by
  refine ⟨ownersPhrase_stated, (variable_declared_iff ownersPhrase_stated _ _).1 ?_⟩
  simp [ofTokens, ownersPhrase, owners, pastQualifiers, pastIndexes, pastGroup, takeSpecifiers,
    specifiers, typeText, visibilityOf, Visibility.word, Token.isDangling, bind, Except.bind]
  rfl

end Tree.Variable

end Interlock
