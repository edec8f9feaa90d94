import Interlock.Compliance
import Interlock.Proofs.Body
import Interlock.Proofs.Written

/-!
# The verdict on a written contract

A contract whose members are function declarations is read to its end mark, and the
rule reports the declarations that need a guard: those whose visibility and whose
mutability are not exempt and that have no guard among their modifiers.  What a
declaration says is taken from its items, what it leaves unsaid from the defaults.
-/

namespace Interlock.Written

open Interlock.Parser

variable [StackRoom]

/-! ## What a declaration says -/

namespace Function

/-- The visibility that a declaration says; unsaid, it is public. -/
def visibility (function : Function) : Visibility :=
  (function.items.findSome? Item.visibility?).getD .publicly

/-- The mutability that a declaration says; unsaid, it takes no payment. -/
def mutability (function : Function) : Mutability :=
  ((function.items.findSome? Item.mutability?).getD .nonpayable).modern

/-- The dotted names of the modifiers of a declaration, in order. -/
def modifierNames (function : Function) : List String :=
  (function.items.filterMap Item.modifier?).map (·.name)

/-- A declaration that says its visibility and its mutability at most once. -/
structure Unrepeated (function : Function) : Prop where
  visibility : (function.items.filterMap Item.visibility?).length ≤ 1
  mutability : (function.items.filterMap Item.mutability?).length ≤ 1

/-- Neither the visibility nor the mutability of a declaration is exempt, and none of its
modifiers is a guard. -/
structure NeedsGuard (policy : Policy) (function : Function) : Prop where
  exposed : function.visibility.word ∉ policy.exemptVisibility
  changing : function.mutability.word ∉ policy.readOnlyMutability
  unguarded : ∀ name ∈ function.modifierNames, name ∉ policy.guardModifiers

instance (policy : Policy) (function : Function) :
    Decidable (function.NeedsGuard policy) :=
  decidable_of_iff
    (function.visibility.word ∉ policy.exemptVisibility ∧
      function.mutability.word ∉ policy.readOnlyMutability ∧
      ∀ name ∈ function.modifierNames, name ∉ policy.guardModifiers)
    ⟨fun ⟨exposed, changing, unguarded⟩ => ⟨exposed, changing, unguarded⟩,
      fun ⟨exposed, changing, unguarded⟩ => ⟨exposed, changing, unguarded⟩⟩

end Function

/-- A contract whose members are function declarations, up to the end mark. -/
structure Contract where
  position : Position
  name : String
  namePosition : Position
  opener : Token
  functions : List Function
  closer : Token
  endMark : Token
  opens : opener.kind = .opening .brace
  closes : closer.kind = .closing .brace
  ends : endMark.kind = .endOfFile
  unrepeated : ∀ function ∈ functions, function.Unrepeated

namespace Contract

def tokens (contract : Contract) : List Token :=
  word "contract" contract.position :: word contract.name contract.namePosition ::
    contract.opener :: (contract.functions.flatMap (·.tokens) ++
      [contract.closer, contract.endMark])

/-- The contract that is declared. -/
def node (contract : Contract) : Tree.Contract where
  name := contract.name
  kind := .contract
  isAbstract := false
  bases := []
  members := contract.functions.map fun function => .function function.node
  position := contract.position

/-- The declarations that need a guard, in order, each at the word `function`. -/
def violations (policy : Policy) (path : String) (contract : Contract) : List Violation :=
  (contract.functions.filter fun function => function.NeedsGuard policy).map fun function =>
    { path := path
      function := function.name.text
      contract := contract.name
      position := function.position
      exposure :=
        ⟨function.visibility.word, function.mutability.word, function.modifierNames⟩ }

end Contract

/-! ## The header that is read says the same -/

section Header

omit [StackRoom]

variable (header : Header) (items : List Item)

theorem foldl_into_visibility :
    (items.foldl Item.into header).visibility =
      header.visibility.or (items.findSome? Item.visibility?) := by
  induction items generalizing header with
  | nil => simp
  | cons item items ih =>
      rw [List.foldl_cons, ih]
      cases item <;> cases said : header.visibility <;>
        simp [Item.into, Item.visibility?, List.findSome?_cons, said]

theorem foldl_into_mutability :
    (items.foldl Item.into header).mutability =
      header.mutability.or (items.findSome? Item.mutability?) := by
  induction items generalizing header with
  | nil => simp
  | cons item items ih =>
      rw [List.foldl_cons, ih]
      cases item <;> cases said : header.mutability <;>
        simp [Item.into, Item.mutability?, List.findSome?_cons, said]

theorem foldl_into_modifiers :
    (items.foldl Item.into header).modifiers.map (·.name) =
      header.modifiers.map (·.name) ++ (items.filterMap Item.modifier?).map (·.name) := by
  induction items generalizing header with
  | nil => simp
  | cons item items ih =>
      rw [List.foldl_cons, ih]
      cases item <;> simp [Item.into, Item.modifier?, List.filterMap_cons]

/-- Items that say nothing again, not even what the header has, draw no remark. -/
theorem remarks_eq_nil
    (visibility : (header.visibility.toList ++ items.filterMap Item.visibility?).length ≤ 1)
    (mutability : (header.mutability.toList ++ items.filterMap Item.mutability?).length ≤ 1) :
    remarks header items = [] := by
  induction items generalizing header with
  | nil => rfl
  | cons item items ih =>
      have quiet : item.remark? header = none := by
        cases item with
        | visibility said position =>
            cases previous : header.visibility with
            | none => simp [Item.remark?, previous]
            | some earlier => simp [previous, Item.visibility?] at visibility
        | mutability said position =>
            cases previous : header.mutability with
            | none => simp [Item.remark?, previous]
            | some earlier => simp [previous, Item.mutability?] at mutability
        | _ => rfl
      rw [remarks, quiet, Option.toList_none, List.nil_append]
      apply ih
      · cases item <;> cases said : header.visibility <;>
          simp_all [Item.into, Item.visibility?, List.filterMap_cons]
      · cases item <;> cases said : header.mutability <;>
          simp_all [Item.into, Item.mutability?, List.filterMap_cons]

end Header

namespace Function

theorem Unrepeated.silent {function : Function} (unrepeated : function.Unrepeated) :
    remarks {} function.items = [] :=
  remarks_eq_nil {} function.items (by simpa using unrepeated.visibility)
    (by simpa using unrepeated.mutability)

/-- The function that is declared is exposed as the declaration says. -/
theorem exposure_node (function : Function) :
    function.node.exposure =
      ⟨function.visibility.word, function.mutability.word, function.modifierNames⟩ := by
  have said := foldl_into_visibility {} function.items
  have changed := foldl_into_mutability {} function.items
  have used := foldl_into_modifiers {} function.items
  simp only [Option.none_or, List.map_nil, List.nil_append] at said changed used
  simp only [Tree.Function.exposure, Tree.Function.visibility, Tree.Function.mutability,
    Tree.Function.modifierNames, node, header, said, changed, used]
  rfl

theorem accepts_node_iff (policy : Policy) (function : Function) :
    policy.accepts function.node = false ↔ function.NeedsGuard policy := by
  rw [Policy.accepts, exposure_node, Policy.permits]
  simp only [Bool.or_eq_false_iff, decide_eq_false_iff_not, List.any_eq_false,
    decide_eq_true_eq, and_assoc]
  constructor
  · rintro ⟨exposed, changing, unguarded⟩
    exact ⟨exposed, changing, unguarded⟩
  · rintro ⟨exposed, changing, unguarded⟩
    exact ⟨exposed, changing, unguarded⟩

end Function

namespace Contract

/-- Every declaration is a function with a name. -/
theorem named_node (contract : Contract) :
    contract.node.named = contract.functions.map (·.node) := by
  have functions : contract.node.functions = contract.functions.map (·.node) := by
    rw [Tree.Contract.functions, node, List.filterMap_map]
    exact congrFun List.filterMap_eq_map contract.functions
  rw [Tree.Contract.named, functions, List.filter_eq_self]
  intro function member
  obtain ⟨declared, -, rfl⟩ := List.mem_map.1 member
  exact decide_eq_true declared.name.nonempty

/-- The rule finds in the declared contract what needs a guard in its declarations. -/
theorem violations_node (policy : Policy) (path : String) (contract : Contract) :
    policy.violations path contract.node = contract.violations policy path := by
  have refused : ((fun function => !policy.accepts function) ∘ Function.node) =
      fun function => decide (function.NeedsGuard policy) := by
    funext function
    simp [← Function.accepts_node_iff]
  rw [Policy.violations, violations, named_node, List.filter_map, List.map_map, refused]
  refine List.map_congr_left fun function _ => ?_
  simp only [Function.comp_apply, Function.exposure_node]
  rfl

end Contract

/-! ## Reading the contract -/

section Reading

variable {rest : List Token} {findings : Array Finding} {errors : Nat}

/-- A declaration is read as one member of a contract, to its last token. -/
theorem contractPart_function (function : Function) :
    contractPart .tolerant ⟨function.tokens ++ rest, findings, errors⟩ =
      .ok (some (.function function.node))
        ((State.mk rest findings errors).note (remarks {} function.items)) := by
  have member : keywordMember? .tolerant (word "function" function.position)
        ⟨function.tokens ++ rest, findings, errors⟩ =
      .ok (some (.function function.node))
        ((State.mk rest findings errors).note (remarks {} function.items)) :=
    bind_of_ok (function_tail findings errors function)
  exact bind_of_ok member

theorem bodyStep_function (kind : Tree.ContractKind) (name : String)
    (members : Array Tree.Member) (function : Function) (limit : errors < errorLimit) :
    bodyStep .tolerant kind name members ⟨function.tokens ++ rest, findings, errors⟩ =
      .ok (.yield (members.push (.function function.node)))
        ((State.mk rest findings errors).note (remarks {} function.items)) := by
  have begins : BeginsPiece (function.tokens ++ rest) := ⟨_, _, rfl, .inl rfl⟩
  exact bodyStep_part begins (fun _ => limit) (contractPart_function function)

/-- A body of declarations is read one by one, up to the brace that closes it. -/
theorem body_functions (kind : Tree.ContractKind) (name : String)
    (members : Array Tree.Member) (functions : List Function) {closer : Token}
    (closes : closer.kind = .closing .brace) (limit : errors < errorLimit) :
    loop members (bodyStep .tolerant kind name)
        ⟨functions.flatMap (·.tokens) ++ closer :: rest, findings, errors⟩ =
      .ok (members ++ (functions.map fun function => Tree.Member.function function.node).toArray)
        ((State.mk rest findings errors).note
          (functions.flatMap fun function => remarks {} function.items)) := by
  induction functions generalizing members findings with
  | nil => simpa using loop_of_done (bodyStep_closer closes fun _ => limit)
  | cons function functions ih =>
      rw [List.flatMap_cons, List.append_assoc]
      refine (loop_of_yield (bodyStep_function kind name members function limit) ?_).trans ?_
      · simp only [State.note_rest, Function.tokens, List.length_cons, List.length_append]
        omega
      · refine (ih (members.push (.function function.node))).trans ?_
        rw [List.flatMap_cons, ← State.note_note]
        simp
        rfl

/-- Behind its opening brace a contract without bases goes on with its body. -/
theorem contract_front (position namePosition : Position) (name : String) {opener : Token}
    (opens : opener.kind = .opening .brace) :
    Parser.contract .tolerant .contract false (word "contract" position)
        ⟨word name namePosition :: opener :: rest, findings, errors⟩ =
      (loop #[] (bodyStep .tolerant .contract name) >>= fun members =>
        pure (Tree.Contract.mk name .contract false [] members.toList position))
        ⟨rest, findings, errors⟩ := by
  have named : Reader.expectName (Tree.ContractKind.contract.word ++ " name")
        (word name namePosition :: opener :: rest) =
      .ok (word name namePosition) (opener :: rest) :=
    Reader.expectElse_eq_ok_iff.2 ⟨rfl, by simp [word], rfl⟩
  have opened (problem : Problem) : Reader.expectElse (.opening .brace) problem
        (opener :: rest) = .ok opener rest :=
    Reader.expectElse_eq_ok_iff.2 ⟨rfl, by simp [opens], opens⟩
  have noBases : Reader.atWord? "is" (opener :: rest) = .ok false (opener :: rest) := by
    change EStateM.Result.ok ((opener :: rest).head?.any
      fun token => token.kind = .identifier && token.text = "is") (opener :: rest) = _
    simp [opens]
  rw [Parser.contract]
  simp only [liftM_eq_ofReader]
  rw [bind_of_ok (ofReader_of_ok named findings errors),
    bind_of_ok (ofReader_of_ok noBases findings errors)]
  simp only [Bool.false_eq_true, if_false, pure_bind]
  rw [bind_of_ok (ofReader_of_ok (opened _) findings errors)]
  rfl

/-- A contract is read to its closing brace, behind its first word. -/
theorem contract_tail (contract : Contract) (limit : errors < errorLimit) :
    Parser.contract .tolerant .contract false (word "contract" contract.position)
        ⟨contract.tokens.tail, findings, errors⟩ =
      .ok contract.node ⟨[contract.endMark], findings, errors⟩ := by
  obtain ⟨position, name, namePosition, opener, functions, closer, endMark, opens, closes, ends,
    unrepeated⟩ := contract
  have silent : (functions.flatMap fun function => remarks {} function.items) = [] :=
    List.flatMap_eq_nil_iff.2 fun function member => (unrepeated function member).silent
  refine (contract_front position namePosition name opens).trans ?_
  rw [bind_of_ok (body_functions .contract _ #[] functions closes limit), silent,
    State.note_nil]
  simp
  rfl

/-- The first element of a source that begins with a contract is that contract. -/
theorem unitStep_contract (position : Position) {tokens : List Token} {node : Tree.Contract}
    {after : State} (limit : errors < errorLimit)
    (run : Parser.contract .tolerant .contract false (word "contract" position)
      ⟨tokens, findings, errors⟩ = .ok node after) :
    unitStep .tolerant #[] ⟨word "contract" position :: tokens, findings, errors⟩ =
      .ok (.yield #[.contract node]) after := by
  have keyword : keywordElement? .tolerant (word "contract" position)
        ⟨word "contract" position :: tokens, findings, errors⟩ =
      .ok (some (.contract node)) after :=
    bind_of_ok run
  have element : sourceElement .tolerant
        ⟨word "contract" position :: tokens, findings, errors⟩ =
      .ok (some (.contract node)) after :=
    bind_of_ok keyword
  exact unitStep_element ⟨_, _, rfl, .inl rfl⟩ (fun _ => limit) element

/-- A written contract is all there is in its source unit. -/
theorem sourceUnit_contract (path : String) (contract : Contract) :
    sourceUnit .tolerant path ⟨contract.tokens, #[], 0⟩ =
      .ok ⟨path, [.contract contract.node]⟩ ⟨[contract.endMark], #[], 0⟩ := by
  have limit : 0 < errorLimit := by decide
  have step : unitStep .tolerant #[] ⟨contract.tokens, #[], 0⟩ =
      .ok (.yield #[.contract contract.node]) ⟨[contract.endMark], #[], 0⟩ :=
    unitStep_contract contract.position limit (contract_tail contract limit)
  have ended : AtEnd [contract.endMark] := by
    simp [AtEnd, contract.ends]
  have last : unitStep .tolerant #[.contract contract.node] ⟨[contract.endMark], #[], 0⟩ =
      .ok (.done #[.contract contract.node]) ⟨[contract.endMark], #[], 0⟩ :=
    unitStep_end ended fun _ => limit
  have shorter : [contract.endMark].length < contract.tokens.length := by
    simp [Contract.tokens]
  have elements := (loop_of_yield step shorter).trans (loop_of_done last)
  exact bind_of_ok elements

end Reading

end Interlock.Written

namespace Interlock

/-- A contract that is written as function declarations is read without a finding, and the
rule reports exactly the declarations that need a guard, in their order. -/
theorem written_contract_verdict [StackRoom] (policy : Policy) (path : String)
    (contract : Written.Contract) (tokens : List Token)
    (written : Token.withoutComments tokens = contract.tokens) :
    (Reading.ofTokens path tokens).1.diagnostics = [] ∧
      ∃ unit primary, (Reading.ofTokens path tokens).1.tree path = .ok unit ∧
        unit.primary? = some primary ∧
        policy.violations path primary = contract.violations policy path ∧
        ∀ text, Token.tokenize text = .ok tokens →
          policy.checkSource path text = ⟨contract.violations policy path, [], none⟩ := by
  have reading : Reading.ofTokens path tokens =
      (⟨some ⟨path, [.contract contract.node]⟩, []⟩, [contract.endMark]) := by
    rw [Reading.ofTokens, Parser.State.ofTokens, written, Written.sourceUnit_contract]
  have tree : (Reading.ofTokens path tokens).1.tree path =
      .ok ⟨path, [.contract contract.node]⟩ := by
    rw [reading]
    rfl
  refine ⟨by rw [reading]; rfl, _, contract.node, tree, rfl,
    contract.violations_node policy path, fun text lexed => ?_⟩
  have source : Reading.ofSource path text = (Reading.ofTokens path tokens).1 := by
    rw [Reading.ofSource, lexed]
  rw [Policy.checkSource, source]
  simp only [tree]
  rw [← contract.violations_node policy path, reading]
  rfl

namespace Written

/-- A group of parentheses around words, all at one position. -/
def enclosedWords (words : List String) (position : Position) : Enclosed .paren where
  group :=
    ⟨⟨.opening .paren, "(", position⟩, words.map (word · position),
      ⟨.closing .paren, ")", position⟩⟩
  encloses := by
    refine ⟨rfl, ?_, rfl⟩
    induction words with
    | nil => exact .nil
    | cons text words ih => exact .plain rfl ih

/-- A block with one statement in it. -/
def doneBlock [StackRoom] (position : Position) : Ending :=
  .block [⟨.opening .brace, "\x7b", position⟩, word "done" position, ⟨.semicolon, ";", position⟩,
      ⟨.closing .brace, "\x7d", position⟩] <| by
    change Reader.blockFrom StackRoom.member 0 none _ = _
    rw [Reader.blockFrom_token rfl (by simp [word]) (by simp [word, Token.isWord]),
      Reader.blockFrom_semicolon rfl rfl, Reader.blockFrom_close rfl]

open StackRoom in
/-- Three declarations: one without a guard, one that only reads, and one with a guard. -/
def vault : Contract where
  position := ⟨1, 1⟩
  name := "Vault"
  namePosition := ⟨1, 10⟩
  opener := ⟨.opening .brace, "\x7b", ⟨1, 16⟩⟩
  functions :=
    [{ position := ⟨2, 3⟩
       name := ⟨"take", ⟨2, 12⟩, by decide⟩
       parameters := enclosedWords ["uint", "sum"] ⟨2, 16⟩
       items :=
        [.modifier ⟨"roles", ⟨2, 27⟩, [⟨⟨.dot, ".", ⟨2, 32⟩⟩, word "owner" ⟨2, 33⟩, rfl, rfl⟩],
          some (enclosedWords ["sum"] ⟨2, 38⟩), by decide⟩, .virtual ⟨2, 44⟩]
       ending := doneBlock ⟨2, 52⟩ },
     { position := ⟨3, 3⟩
       name := ⟨"look", ⟨3, 12⟩, by decide⟩
       parameters := enclosedWords [] ⟨3, 16⟩
       items :=
        [.override ⟨3, 19⟩ none, .mutability .constant ⟨3, 28⟩, .visibility .externally ⟨3, 37⟩,
          .returns ⟨3, 46⟩ (enclosedWords ["uint"] ⟨3, 53⟩)]
       ending := .semicolon ⟨.semicolon, ";", ⟨3, 59⟩⟩ rfl },
     { position := ⟨4, 3⟩
       name := ⟨"stop", ⟨4, 12⟩, by decide⟩
       parameters := enclosedWords [] ⟨4, 16⟩
       items :=
        [.visibility .publicly ⟨4, 19⟩, .modifier ⟨"stoppable", ⟨4, 26⟩, [], none, by decide⟩]
       ending := doneBlock ⟨4, 36⟩ }]
  closer := ⟨.closing .brace, "\x7d", ⟨5, 1⟩⟩
  endMark := ⟨.endOfFile, "", ⟨5, 2⟩⟩
  opens := rfl
  closes := rfl
  ends := rfl
  unrepeated := by
    intro function member
    simp only [List.mem_cons, List.not_mem_nil, or_false] at member
    rcases member with rfl | rfl | rfl <;> exact ⟨by decide, by decide⟩

open StackRoom in
/-- The three declarations behind a comment. -/
def vaultTokens : List Token := ⟨.comment, " a vault", ⟨0, 1⟩⟩ :: vault.tokens

end Written

open StackRoom in
/-- Of the three declarations only the first is reported. -/
theorem vault_verdict :
    Token.withoutComments Written.vaultTokens = Written.vault.tokens ∧
      (Reading.ofTokens "Vault.sol" Written.vaultTokens).1.diagnostics = [] ∧
      ∃ unit primary,
        (Reading.ofTokens "Vault.sol" Written.vaultTokens).1.tree "Vault.sol" = .ok unit ∧
        unit.primary? = some primary ∧
        Policy.standard.violations "Vault.sol" primary =
          [⟨"Vault.sol", "take", "Vault", ⟨2, 3⟩, ⟨"public", "nonpayable", ["roles.owner"]⟩⟩] := by
  have written : Token.withoutComments Written.vaultTokens = Written.vault.tokens := by decide
  obtain ⟨quiet, unit, primary, tree, first, found, -⟩ :=
    written_contract_verdict Policy.standard "Vault.sol" Written.vault _ written
  refine ⟨written, quiet, unit, primary, tree, first, found.trans ?_⟩
  decide

end Interlock
