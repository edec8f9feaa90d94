import Interlock.Proofs.Layout
import Interlock.Proofs.Order
import Interlock.Proofs.Regularity
import Interlock.Tree.Json

/-!
# The outline of a source

The outline of a tree is the positions of its elements, each followed by the members
of a contract.  Every node stands at a token that is taken when it is read, and tokens
are never put back, not even behind a fault.  So the outline is in the order of the
source, whether the tree is whole or what is left of one, and so are the violations.
-/

namespace Interlock

/-! ## Nodes -/

namespace Tree

/-- Where a member stands. -/
def Member.position : Member → Position
  | .function node => node.position
  | .modifier node => node.position
  | .event node => node.position
  | .struct node => node.position
  | .enum node => node.position
  | .usingFor node => node.position
  | .stateVariable node => node.position
  | .declaration node => node.position

/-- Where an element and what is in it stand. -/
def Element.outline : Element → List Position
  | .pragma node => [node.position]
  | .importPath node => [node.position]
  | .contract node => node.position :: node.members.map (·.position)
  | .member node => [node.position]

/-- Where all the nodes of a source stand: every element in front of its members. -/
def SourceUnit.outline (unit : SourceUnit) : List Position :=
  unit.elements.flatMap (·.outline)

/-- The functions that an element is or holds. -/
def Element.functions : Element → List Function
  | .contract node => node.functions
  | .member (.function node) => [node]
  | _ => []

/-- The functions of a source, in contracts and outside them. -/
def SourceUnit.functions (unit : SourceUnit) : List Function :=
  unit.elements.flatMap (·.functions)

/-- What holds of every contract that is read. -/
structure Contract.Regular (contract : Contract) : Prop where
  kind : contract.kind.word ∈ ["contract", "interface", "library"]
  isAbstract : contract.isAbstract = true → contract.kind = .contract
  members : ∀ member ∈ contract.members, ∀ type position fields,
    member.toJson = nodeJson type position fields →
    type ∉ ["contract_definition", "pragma_directive", "import_directive"]

theorem type_of_nodeJson {type other : String} {position place : Position}
    {fields more : List (String × Json)}
    (same : nodeJson type position fields = nodeJson other place more) : type = other := by
  simp only [nodeJson, Json.object.injEq, List.cons_append, List.cons.injEq, Prod.mk.injEq,
    Json.string.injEq] at same
  exact same.1.2

/-- Only what is abstract depends on how a contract is read. -/
theorem Contract.regular_of {contract : Contract}
    (isAbstract : contract.isAbstract = true → contract.kind = .contract) :
    contract.Regular where
  kind := by cases contract.kind <;> decide
  isAbstract := isAbstract
  members := by
    intro member _ type position fields same
    cases member <;> rw [← type_of_nodeJson same] <;> decide

/-- A member is regular if it is no function or a regular one. -/
def Member.Regular : Member → Prop
  | .function node => node.Regular
  | _ => True

/-- An element is regular with all that is in it. -/
def Element.Regular : Element → Prop
  | .contract node => node.Regular ∧ ∀ member ∈ node.members, member.Regular
  | .member node => node.Regular
  | _ => True

theorem Element.Regular.functions {element : Element} (regular : element.Regular) :
    ∀ function ∈ element.functions, function.Regular := by
  intro function inside
  cases element with
  | contract node =>
      obtain ⟨member, among, same⟩ := List.mem_filterMap.1 inside
      cases member with
      | function node =>
          cases same
          exact regular.2 _ among
      | _ => cases same
  | member node =>
      cases node with
      | function node =>
          rw [List.mem_singleton.1 inside]
          exact regular
      | _ => cases inside
  | _ => cases inside

end Tree

/-! ## Along the tokens -/

/-- Positions of tokens that are taken on the way from some tokens to those left, in order. -/
def Along (tokens left : List Token) (places : List Position) : Prop :=
  ∃ taken, tokens = taken ++ left ∧ places.Sublist (taken.map (·.position))

namespace Along

variable {tokens between left : List Token} {places more : List Position}

theorem of_suffix (suffix : left <:+ tokens) : Along tokens left [] := by
  obtain ⟨taken, rfl⟩ := suffix
  exact ⟨taken, rfl, List.nil_sublist _⟩

theorem suffix (along : Along tokens left places) : left <:+ tokens := by
  obtain ⟨taken, rfl, -⟩ := along
  exact List.suffix_append taken left

theorem trans (first : Along tokens between places) (second : Along between left more) :
    Along tokens left (places ++ more) := by
  obtain ⟨taken, rfl, inside⟩ := first
  obtain ⟨later, rfl, further⟩ := second
  refine ⟨taken ++ later, (List.append_assoc ..).symm, ?_⟩
  rw [List.map_append]
  exact inside.append further

theorem cons (token : Token) (along : Along tokens left places) :
    Along (token :: tokens) left (token.position :: places) := by
  obtain ⟨taken, rfl, inside⟩ := along
  exact ⟨token :: taken, rfl, inside.cons_cons _⟩

/-- Each position is that of a token. -/
theorem exists_token (along : Along tokens left places) {place : Position}
    (member : place ∈ places) : ∃ token ∈ tokens, place = token.position := by
  obtain ⟨taken, rfl, inside⟩ := along
  obtain ⟨token, among, same⟩ := List.mem_map.1 (inside.subset member)
  exact ⟨token, List.mem_append_left _ among, same.symm⟩

/-- Along tokens in order the positions are in order. -/
theorem pairwise (along : Along tokens left places) (placed : Token.Placed tokens) :
    places.Pairwise Position.Before := by
  obtain ⟨taken, rfl, inside⟩ := along
  apply List.Pairwise.sublist inside
  rw [List.pairwise_map]
  exact (List.pairwise_append.1 placed).1

end Along

/-- Nodes that are read on the way from some tokens to those left. -/
structure Outlines {α : Type} (outline : α → List Position) (regular : α → Prop)
    (tokens left : List Token) (nodes : List α) : Prop where
  along : Along tokens left (nodes.flatMap outline)
  regular : Token.Undotted tokens → ∀ node ∈ nodes, regular node

namespace Outlines

variable {α : Type} {outline : α → List Position} {regular : α → Prop}
variable {tokens between left : List Token} {nodes more : List α}

theorem none (suffix : left <:+ tokens) : Outlines outline regular tokens left [] where
  along := .of_suffix suffix
  regular := nofun

theorem append (first : Outlines outline regular tokens between nodes)
    (second : Outlines outline regular between left more) :
    Outlines outline regular tokens left (nodes ++ more) where
  along := by
    rw [List.flatMap_append]
    exact first.along.trans second.along
  regular := by
    intro undotted node member
    rcases List.mem_append.1 member with earlier | later
    · exact first.regular undotted node earlier
    · exact second.regular (undotted.of_suffix first.along.suffix) node later

/-- A node that begins at the token in front. -/
theorem front {token : Token} {rest : List Token} {node : α} {places : List Position}
    (begins : outline node = token.position :: places) (along : Along rest left places)
    (its : Token.Undotted rest → regular node) :
    Outlines outline regular (token :: rest) left [node] where
  along := by
    rw [List.flatMap_singleton, begins]
    exact along.cons token
  regular := by
    intro undotted other member
    rw [List.mem_singleton.1 member]
    exact its (undotted.of_suffix (List.suffix_cons ..))

end Outlines

/-! ## Declarations -/

theorem Tree.Variable.position_of_ofTokens {start : Token} {tokens : List Token}
    {node : Tree.Variable} (read : ofTokens start tokens = .ok node) :
    node.position = start.position := by
  unfold ofTokens at read
  simp only [bind, Except.bind] at read
  repeat' split at read
  all_goals cases read
  all_goals rfl

namespace Reader

variable (start : Token)

theorem always_pragma : Always (·.position = start.position) (pragma start) :=
  .behind fun _ => .behind fun _ => .pure rfl

theorem always_importPath : Always (·.position = start.position) (importPath start) := by
  apply Always.behind
  intro phrase
  split
  · exact .pure rfl
  · exact .throw _

theorem always_declaration : Always (·.position = start.position) (declaration start) :=
  .behind fun _ => .behind fun _ => .pure rfl

theorem always_event : Always (·.position = start.position) (event start) := by
  apply Always.behind
  intro name
  apply Always.behind
  intro parameters
  apply Always.behind
  intro isAnonymous
  split
  · exact .behind fun _ => .behind fun _ => .pure rfl
  · exact .behind fun _ => .pure rfl

theorem always_struct : Always (·.position = start.position) (struct start) :=
  .behind fun _ => .behind fun _ => .pure rfl

theorem always_enum : Always (·.position = start.position) (enum start) :=
  .behind fun _ => .behind fun _ => .pure rfl

theorem always_usingFor : Always (·.position = start.position) (usingFor start) := by
  apply Always.behind
  intro phrase
  dsimp only
  split
  · exact .throw _
  · exact .pure rfl

theorem always_modifier (limit : Nat) :
    Always (·.position = start.position) (modifier limit start) :=
  .behind fun _ => .behind fun _ => .behind fun _ => .pure rfl

end Reader

namespace Parser

theorem always_function (limit : Nat) (mode : Mode) (kind : Tree.FunctionKind) (start : Token) :
    Always (·.position = start.position) (function limit mode kind start) :=
  .behind fun _ => .behind fun _ => .behind fun _ => .pure rfl

variable [StackRoom] {token : Token} {next : Option Token} {before after : State}

/-- What a word announces in a contract stands at that word. -/
theorem member_of_announced {parser : Mode → Parser Tree.Member} {member : Tree.Member}
    (found : memberParser? token next = some parser)
    (run : parser .tolerant before = .ok member after) :
    member.position = token.position ∧ (Token.Undotted before.rest → member.Regular) := by
  have function {kind : Tree.FunctionKind}
      (run : (function StackRoom.member .tolerant kind token >>= fun node =>
        pure (Tree.Member.function node)) before = .ok member after) :
      member.position = token.position ∧ (Token.Undotted before.rest → member.Regular) := by
    obtain ⟨node, nodeRun, rfl⟩ := map_eq_ok_iff.1 run
    constructor
    · exact (always_function _ .tolerant kind token).answer nodeRun
    · exact fun undotted => function_regular undotted nodeRun
  have other {α : Type} {reader : Reader α} {give : α → Tree.Member} {among : α → Prop}
      (run : (ofReader reader >>= fun node => pure (give node)) before = .ok member after)
      (stands : Always among reader)
      (given : ∀ node, among node →
        (give node).position = token.position ∧ (give node).Regular) :
      member.position = token.position ∧ (Token.Undotted before.rest → member.Regular) := by
    obtain ⟨node, nodeRun, rfl⟩ := map_eq_ok_iff.1 run
    obtain ⟨place, regular⟩ := given node (stands.answer (ofReader_eq_ok_iff.1 nodeRun).1)
    exact ⟨place, fun _ => regular⟩
  rw [memberParser?] at found
  split at found
  · split at found <;> cases found
    exact function run
  · split at found
    · cases found
      exact function run
    · cases found
      exact other run (Reader.always_modifier token _) fun _ place => ⟨place, trivial⟩
    · cases found
      exact other run (Reader.always_event token) fun _ place => ⟨place, trivial⟩
    · cases found
      exact other run (Reader.always_struct token) fun _ place => ⟨place, trivial⟩
    · cases found
      exact other run (Reader.always_enum token) fun _ place => ⟨place, trivial⟩
    · cases found
      exact other run (Reader.always_usingFor token) fun _ place => ⟨place, trivial⟩
    iterate 2
      split at found <;> cases found
      exact other run (Reader.always_declaration token) fun _ place => ⟨place, trivial⟩
    · cases found

omit [StackRoom] in
/-- What passes leaves tokens behind its first one. -/
theorem suffix_of_passes {α : Type} {rest : List Token} {findings : Array Finding} {errors : Nat}
    {value : α} (passes : Passes ⟨token :: rest, findings, errors⟩ (.ok value after)) :
    after.rest <:+ rest := by
  obtain ⟨reaches, shorter⟩ := passes
  rcases List.suffix_cons_iff.1 reaches.suffix with same | inside
  · rw [same] at shorter
    exact absurd shorter (Nat.lt_irrefl _)
  · exact inside

omit [StackRoom] in
/-- A state variable stands at the first token of its statement. -/
theorem stateVariable_run {phrase : List Token} {node : Tree.Variable}
    (run : stateVariable token phrase before = .ok node after) :
    node.position = token.position := by
  rw [stateVariable] at run
  cases read : Tree.Variable.ofTokens token phrase with
  | ok found =>
      rw [read] at run
      obtain ⟨rfl, -⟩ := pure_eq_ok_iff.1 run
      exact Tree.Variable.position_of_ofTokens read
  | error fault =>
      rw [read] at run
      cases run

/-- The members of a body, each at its first token. -/
abbrev OutlinesMembers : List Token → List Token → List Tree.Member → Prop :=
  Outlines (fun member : Tree.Member => [member.position]) Tree.Member.Regular

/-- A member stands at its first token. -/
theorem member_of_part {tokens : List Token} {findings : Array Finding} {errors : Nat}
    {member : Tree.Member}
    (run : contractPart .tolerant ⟨token :: tokens, findings, errors⟩ = .ok (some member) after) :
    member.position = token.position ∧ (Token.Undotted tokens → member.Regular) := by
  rw [contractPart_eq_piece] at run
  obtain ⟨first, more, front, ⟨-, impossible, -⟩ | ⟨-, announced | stated⟩⟩ :=
    piece_cases dispatches_member run
  · cases impossible
  · cases front
    obtain ⟨parser, value, found, same, parsed⟩ := announced
    cases same
    exact member_of_announced found parsed
  · cases front
    obtain ⟨phrase, behind, -, -, settled⟩ := stated
    obtain ⟨node, nodeRun, same⟩ := map_eq_ok_iff.1 settled
    cases same
    exact ⟨stateVariable_run nodeRun, fun _ => trivial⟩

theorem outlines_contractPart {member : Tree.Member}
    (run : contractPart .tolerant before = .ok (some member) after) :
    OutlinesMembers before.rest after.rest [member] := by
  obtain ⟨tokens, findings, errors⟩ := before
  cases tokens with
  | nil => cases run
  | cons token rest =>
      have passes : Passes ⟨token :: rest, findings, errors⟩ _ := passes_contractPart
      rw [run] at passes
      have left : Along rest after.rest [] := .of_suffix (suffix_of_passes passes)
      obtain ⟨place, regular⟩ := member_of_part run
      exact .front (congrArg (· :: []) place) left regular

/-! ## Bodies and sources -/

/-- A step that adds what a parser answers to an array, or nothing. -/
def Collects {α : Type} (parser : Parser (Option α))
    (step : Array α → Parser (ForInStep (Array α))) : Prop :=
  ∀ ⦃values before answer after⦄, step values before = .ok answer after →
    answer.value = values ∨
    ∃ node, parser before = .ok (some node) after ∧ answer.value = values.push node

omit [StackRoom] in
/-- What is collected on the way behind what is there already is outlined, when each piece of it
is. -/
theorem outlines_loop_behind {α : Type} {outline : α → List Position} {regular : α → Prop}
    {parser : Parser (Option α)} {step : Array α → Parser (ForInStep (Array α))}
    (steps : Persistent step) (collects : Collects parser step)
    (each : ∀ {node before after}, parser before = .ok (some node) after →
      Outlines outline regular before.rest after.rest [node])
    {values result : Array α} (run : loop values step before = .ok result after) :
    ∃ found, result.toList = values.toList ++ found ∧
      Outlines outline regular before.rest after.rest found := by
  apply (steps_of_loop run).preserves fun reached state =>
    ∃ found, reached.toList = values.toList ++ found ∧
      Outlines outline regular before.rest state.rest found
  · rintro reached between answer state ⟨found, split, outlined⟩ stepRun
    rcases collects stepRun with same | ⟨node, nodeRun, same⟩
    · -- A step that adds nothing may have taken tokens, as behind a fault.
      have behind := (advances_of_persistent steps).answers stepRun
      rw [same]
      exact ⟨found, split, by simpa using outlined.append (.none behind)⟩
    · rw [same, Array.toList_push]
      exact ⟨found ++ [node], by rw [split, List.append_assoc], outlined.append (each nodeRun)⟩
  · exact ⟨[], (List.append_nil _).symm, .none List.suffix_rfl⟩

omit [StackRoom] in
/-- What is collected on the way is outlined, when each piece of it is. -/
theorem outlines_loop {α : Type} {outline : α → List Position} {regular : α → Prop}
    {parser : Parser (Option α)} {step : Array α → Parser (ForInStep (Array α))}
    (steps : Persistent step) (collects : Collects parser step)
    (each : ∀ {node before after}, parser before = .ok (some node) after →
      Outlines outline regular before.rest after.rest [node])
    {result : Array α} (run : loop #[] step before = .ok result after) :
    Outlines outline regular before.rest after.rest result.toList := by
  obtain ⟨found, split, outlined⟩ := outlines_loop_behind steps collects each run
  rw [split]
  exact outlined

theorem collects_memberInto {members found : Array Tree.Member}
    (run : memberInto .tolerant members before = .ok found after) :
    found = members ∨
    ∃ node, contractPart .tolerant before = .ok (some node) after ∧ found = members.push node := by
  cases partRun : contractPart .tolerant before with
  | ok answer left =>
      rw [memberInto_of_ok partRun] at run
      cases run
      cases answer with
      | none => exact .inl rfl
      | some node => exact .inr ⟨node, rfl, rfl⟩
  | error fault left =>
      left
      obtain ⟨result, between, attempted, run⟩ := bind_eq_ok_iff.1 run
      by_cases noRoom : fault.problem = .tooDeep
      · rw [attempt_of_tooDeep partRun noRoom] at attempted
        cases attempted
      rw [attempt_of_error partRun noRoom] at attempted
      cases attempted
      have unchanged : Always (· = members)
          (record (.fault fault) >>= fun _ => resume >>= fun _ => pure members) :=
        .behind fun _ => .behind fun _ => .pure rfl
      exact unchanged.answer run

theorem collects_bodyStep (kind : Tree.ContractKind) (name : String) :
    Collects (contractPart .tolerant) (bodyStep .tolerant kind name) := by
  intro members before answer after run
  obtain ⟨full, between, asked, run⟩ := bind_eq_ok_iff.1 run
  cases asked
  split at run
  · obtain ⟨rfl, -⟩ := pure_eq_ok_iff.1 run
    exact .inl rfl
  · obtain ⟨branch, same, run⟩ := branch_of_current_bind run
    split at same <;> subst same
    · obtain ⟨_, -, rfl⟩ := map_eq_ok_iff.1 run
      exact .inl rfl
    · obtain ⟨_, -, rfl⟩ := map_eq_ok_iff.1 run
      exact .inl rfl
    · obtain ⟨_, -, rfl⟩ := map_eq_ok_iff.1 run
      exact .inl rfl
    · obtain ⟨found, intoRun, rfl⟩ := map_eq_ok_iff.1 run
      exact collects_memberInto intoRun

/-- The members of a contract are outlined behind its head. -/
theorem outlines_contract {kind : Tree.ContractKind} {isAbstract : Bool} {start : Token}
    {node : Tree.Contract}
    (run : contract .tolerant kind isAbstract start before = .ok node after) :
    node.kind = kind ∧ node.isAbstract = isAbstract ∧ node.position = start.position ∧
      OutlinesMembers before.rest after.rest node.members := by
  rw [contract_eq] at run
  obtain ⟨front, behindFront, frontRun, run⟩ := bind_eq_ok_iff.1 run
  obtain ⟨opener, inside, openRun, run⟩ := bind_eq_ok_iff.1 run
  obtain ⟨members, loopRun, rfl⟩ := map_eq_ok_iff.1 run
  have named := (built_contractFront kind).suffix (ofReader_eq_ok_iff.1 frontRun).1
  have opened := (Reader.expectElse_eq_ok_iff.1 (ofReader_eq_ok_iff.1 openRun).1).1
  rw [opened] at named
  have head : inside.rest <:+ before.rest := (List.suffix_cons ..).trans named
  have body := outlines_loop (persistent_bodyStep kind front.1.text)
    (collects_bodyStep kind front.1.text) outlines_contractPart loopRun
  exact ⟨rfl, rfl, rfl, Outlines.append (.none head) body⟩

omit [StackRoom] in
theorem suffix_of_advance {found : Option Token}
    (run : (liftM Reader.advance : Parser _) before = .ok found after) :
    after.rest <:+ before.rest := by
  obtain ⟨tokens, findings, errors⟩ := before
  cases tokens with
  | nil =>
      cases run
      exact List.suffix_rfl
  | cons token rest =>
      cases run
      exact List.suffix_cons ..

/-- What a word announces at the top level stands at that word, with what is in it behind. -/
theorem element_of_announced {parser : Mode → Parser Tree.Element} {element : Tree.Element}
    (found : elementParser? token next = some parser)
    (run : parser .tolerant before = .ok element after) (suffix : after.rest <:+ before.rest) :
    ∃ places, element.outline = token.position :: places ∧
      Along before.rest after.rest places ∧ (Token.Undotted before.rest → element.Regular) := by
  have contract {kind : Tree.ContractKind} {isAbstract : Bool} {state : State}
      (run : (contract .tolerant kind isAbstract token >>= fun node =>
        pure (Tree.Element.contract node)) state = .ok element after)
      (inside : state.rest <:+ before.rest) (wellKept : isAbstract = true → kind = .contract) :
      ∃ places, element.outline = token.position :: places ∧
        Along before.rest after.rest places ∧
        (Token.Undotted before.rest → element.Regular) := by
    obtain ⟨node, nodeRun, rfl⟩ := map_eq_ok_iff.1 run
    obtain ⟨rfl, rfl, place, members⟩ := outlines_contract nodeRun
    have along := (Along.of_suffix inside).trans members.along
    rw [← List.map_eq_flatMap, List.nil_append] at along
    refine ⟨_, congrArg (· :: _) place, along, fun undotted => ?_⟩
    exact ⟨Tree.Contract.regular_of wellKept, members.regular (undotted.of_suffix inside)⟩
  have other {α : Type} {reader : Reader α} {give : α → Tree.Element} {among : α → Prop}
      (run : (ofReader reader >>= fun node => pure (give node)) before = .ok element after)
      (stands : Always among reader)
      (given : ∀ node, among node →
        (give node).outline = [token.position] ∧ (give node).Regular) :
      ∃ places, element.outline = token.position :: places ∧
        Along before.rest after.rest places ∧
        (Token.Undotted before.rest → element.Regular) := by
    obtain ⟨node, nodeRun, rfl⟩ := map_eq_ok_iff.1 run
    obtain ⟨place, regular⟩ := given node (stands.answer (ofReader_eq_ok_iff.1 nodeRun).1)
    exact ⟨[], place, .of_suffix suffix, fun _ => regular⟩
  have alone {place : Position} (same : place = token.position) :
      [place] = [token.position] := congrArg (· :: []) same
  rw [elementParser?] at found
  split at found
  · cases found
    exact contract run List.suffix_rfl (by simp)
  · split at found
    · cases found
      exact other run (Reader.always_pragma token) fun _ place => ⟨alone place, trivial⟩
    · cases found
      exact other run (Reader.always_importPath token) fun _ place => ⟨alone place, trivial⟩
    · split at found <;> cases found
      -- Only here a contract is abstract, and the word behind says what kind it is.
      obtain ⟨second, between, advanced, run⟩ := bind_eq_ok_iff.1 run
      exact contract run (suffix_of_advance advanced) fun _ => rfl
    · cases found
      obtain ⟨node, nodeRun, rfl⟩ := map_eq_ok_iff.1 run
      have place := (always_function _ .tolerant .function token).answer nodeRun
      exact ⟨[], alone place, .of_suffix suffix,
        fun undotted => function_regular undotted nodeRun⟩
    · cases found
      exact other run (Reader.always_struct token) fun _ place => ⟨alone place, trivial⟩
    · cases found
      exact other run (Reader.always_enum token) fun _ place => ⟨alone place, trivial⟩
    · cases found
      exact other run (Reader.always_event token) fun _ place => ⟨alone place, trivial⟩
    · cases found
      exact other run (Reader.always_usingFor token) fun _ place => ⟨alone place, trivial⟩
    iterate 2
      cases found
      exact other run (Reader.always_declaration token) fun _ place => ⟨alone place, trivial⟩
    · cases found

/-- The elements of a source, each with what is in it. -/
abbrev OutlinesElements : List Token → List Token → List Tree.Element → Prop :=
  Outlines Tree.Element.outline Tree.Element.Regular

theorem outlines_sourceElement {element : Tree.Element}
    (run : sourceElement .tolerant before = .ok (some element) after) :
    OutlinesElements before.rest after.rest [element] := by
  obtain ⟨tokens, findings, errors⟩ := before
  cases tokens with
  | nil => cases run
  | cons token rest =>
      have passes : Passes ⟨token :: rest, findings, errors⟩ _ := passes_sourceElement
      rw [run] at passes
      have behind := suffix_of_passes passes
      rw [sourceElement_eq_piece] at run
      obtain ⟨first, more, front, ⟨-, impossible, -⟩ | ⟨-, announced | stated⟩⟩ :=
        piece_cases dispatches_element run
      · cases impossible
      · cases front
        obtain ⟨parser, value, found, same, parsed⟩ := announced
        cases same
        obtain ⟨places, begins, along, regular⟩ := element_of_announced found parsed behind
        exact .front begins along regular
      · cases front
        obtain ⟨phrase, left, -, -, settled⟩ := stated
        split at settled
        · obtain ⟨node, nodeRun, same⟩ := map_eq_ok_iff.1 settled
          cases same
          exact .front (congrArg (· :: []) (stateVariable_run nodeRun)) (.of_suffix behind)
            fun _ => trivial
        · obtain ⟨_, -, impossible⟩ := map_eq_ok_iff.1 settled
          cases impossible

omit [StackRoom] in
theorem always_passElement (size : Nat) (elements : Array Tree.Element) (fault : Fault) :
    Always (· = elements) (passElement size elements fault) := by
  apply Always.behind
  intro recorded
  apply Always.behind
  intro resumed
  apply Always.behind
  intro state
  split
  · exact .behind fun _ => .pure rfl
  · exact .pure rfl

theorem collects_elementInto {elements found : Array Tree.Element}
    (run : elementInto .tolerant elements before = .ok found after) :
    found = elements ∨
    ∃ node, sourceElement .tolerant before = .ok (some node) after ∧
      found = elements.push node := by
  rw [elementInto_tolerant] at run
  cases elementRun : sourceElement .tolerant before with
  | ok answer left =>
      rw [bind_of_ok (attempt_of_ok elementRun)] at run
      obtain ⟨rfl, rfl⟩ := pure_eq_ok_iff.1 run
      cases answer with
      | none => exact .inl rfl
      | some node => exact .inr ⟨node, rfl, rfl⟩
  | error fault left =>
      by_cases noRoom : fault.problem = .tooDeep
      · rw [bind_of_error (attempt_of_tooDeep elementRun noRoom)] at run
        cases run
      rw [bind_of_ok (attempt_of_error elementRun noRoom)] at run
      exact .inl ((always_passElement _ elements fault).answer run)

theorem collects_unitStep : Collects (sourceElement .tolerant) (unitStep .tolerant) := by
  intro elements before answer after run
  rw [unitStep, exhausted_bind] at run
  split at run
  · obtain ⟨rfl, -⟩ := pure_eq_ok_iff.1 run
    exact .inl rfl
  · rw [liftM_eq_ofReader, bind_of_ok (ofReader_of_ok (atEnd_eq _) _ _)] at run
    split at run
    · obtain ⟨rfl, -⟩ := pure_eq_ok_iff.1 run
      exact .inl rfl
    · obtain ⟨found, intoRun, rfl⟩ := map_eq_ok_iff.1 run
      exact collects_elementInto intoRun

/-- A source that is read tolerantly is outlined, whatever faults are in it. -/
theorem outlines_sourceUnit {filename : String} {unit : Tree.SourceUnit}
    (run : sourceUnit .tolerant filename before = .ok unit after) :
    ∃ left, OutlinesElements before.rest left unit.elements := by
  obtain ⟨elements, between, loopRun, run⟩ := bind_eq_ok_iff.1 run
  have answer : Always (· = Tree.SourceUnit.mk filename elements.toList)
      (do
        if .tolerant = Mode.tolerant && (← exhausted) then record (.tooManyErrors errorLimit)
        return ⟨filename, elements.toList⟩ : Parser Tree.SourceUnit) := by
    apply Always.behind
    intro full
    split
    · exact .behind fun _ => .pure rfl
    · exact .pure rfl
  rw [answer.answer run]
  exact ⟨between.rest, outlines_loop persistent_unitStep collects_unitStep outlines_sourceElement
    loopRun⟩

end Parser

/-! ## Sources -/

section Source

variable [StackRoom] {filename source : String} {tokens : List Token} {unit : Tree.SourceUnit}

theorem outlines_reading (read : (Reading.ofTokens filename tokens).1.unit = some unit) :
    ∃ left, Parser.OutlinesElements (Token.withoutComments tokens) left unit.elements := by
  rw [Reading.ofTokens] at read
  cases run : Parser.sourceUnit .tolerant filename (.ofTokens tokens) with
  | ok found after =>
      rw [run] at read
      cases read
      exact Parser.outlines_sourceUnit run
  | error fault after =>
      rw [run] at read
      cases read

/-- A tree that is read strictly is read tolerantly too. -/
theorem unit_of_strict (read : Tree.SourceUnit.ofTokens filename tokens = .ok unit) :
    (Reading.ofTokens filename tokens).1.unit = some unit := by
  have follows := (Parser.agrees_sourceUnit filename).follows (.ofTokens tokens)
    (by simp [Parser.State.ofTokens, Parser.errorLimit])
  rw [Tree.SourceUnit.ofTokens] at read
  rw [Reading.ofTokens]
  generalize Parser.sourceUnit .strict filename (.ofTokens tokens) = strict at follows read
  generalize Parser.sourceUnit .tolerant filename (.ofTokens tokens) = tolerant at follows
  cases follows with
  | ok findings _ =>
      cases read
      rfl
  | fault findings => cases read
  | marked marked => cases read

omit [StackRoom] in
/-- What is chosen from a list stands in the order of the list. -/
theorem sublist_filterMap {α β γ : Type} {choose : α → Option β} {own : β → γ} {place : α → γ}
    (same : ∀ node chosen, choose node = some chosen → own chosen = place node)
    (nodes : List α) : ((nodes.filterMap choose).map own).Sublist (nodes.map place) := by
  induction nodes with
  | nil => exact .slnil
  | cons node nodes ih =>
      cases chosen : choose node with
      | none =>
          rw [List.filterMap_cons_none chosen]
          exact ih.cons _
      | some found =>
          rw [List.filterMap_cons_some chosen, List.map_cons, List.map_cons, same node found chosen]
          exact ih.cons_cons _

omit [StackRoom] in
theorem Tree.Contract.functions_sublist (contract : Tree.Contract) :
    (contract.functions.map (·.position)).Sublist (contract.members.map (·.position)) := by
  apply sublist_filterMap
  intro member function chosen
  cases member with
  | function node =>
      cases chosen
      rfl
  | _ => cases chosen

omit [StackRoom] in
theorem Tree.SourceUnit.members_sublist {contract : Tree.Contract}
    (inside : contract ∈ unit.contracts) :
    (contract.members.map (·.position)).Sublist unit.outline := by
  obtain ⟨element, among, same⟩ := List.mem_filterMap.1 inside
  cases element with
  | contract node =>
      cases same
      rw [Tree.SourceUnit.outline, List.flatMap_def]
      apply List.Sublist.trans (List.sublist_cons_self ..)
      exact List.sublist_flatten_of_mem (List.mem_map_of_mem among)
  | _ => cases same

omit [StackRoom] in
/-- Violations are in the order of the outline. -/
theorem Policy.violations_sublist (policy : Policy) {contract : Tree.Contract}
    (inside : contract ∈ unit.contracts) :
    ((policy.violations filename contract).map (·.position)).Sublist unit.outline := by
  have chosen : ((policy.violations filename contract).map (·.position)).Sublist
      (contract.functions.map (·.position)) := by
    rw [Policy.violations, List.map_map]
    exact (List.filter_sublist.trans List.filter_sublist).map _
  exact (chosen.trans contract.functions_sublist).trans
    (Tree.SourceUnit.members_sublist inside)

theorem Policy.checkSource_sublist (policy : Policy)
    (read : (Reading.ofSource filename source).unit = some unit) :
    ((policy.checkSource filename source).violations.map (·.position)).Sublist unit.outline := by
  rw [policy.checkSource_violations, Policy.verdict, Reading.tree, read]
  cases (Reading.ofSource filename source).gaveUp with
  | true => exact List.nil_sublist _
  | false =>
      cases (Reading.ofSource filename source).success with
      | false => exact List.nil_sublist _
      | true =>
          simp only [Bool.false_eq_true, if_false]
          cases primary : unit.primary? with
          | none => exact List.nil_sublist _
          | some contract => exact policy.violations_sublist (List.mem_of_find?_eq_some primary)

/-- Without a tree nothing is violated. -/
theorem Policy.checkSource_of_none (policy : Policy)
    (none : (Reading.ofSource filename source).unit = none) :
    (policy.checkSource filename source).violations = [] := by
  rw [policy.checkSource_violations, Policy.verdict, Reading.tree, none]
  cases (Reading.ofSource filename source).gaveUp <;> rfl

omit [StackRoom] in
theorem Tree.SourceUnit.regular_functions
    (regular : ∀ element ∈ unit.elements, element.Regular) :
    ∀ function ∈ unit.functions, function.Regular := by
  intro function inside
  obtain ⟨element, among, its⟩ := List.mem_flatMap.1 inside
  exact (regular element among).functions function its

omit [StackRoom] in
theorem Tree.SourceUnit.regular_contracts
    (regular : ∀ element ∈ unit.elements, element.Regular) :
    ∀ contract ∈ unit.contracts, contract.Regular := by
  intro contract inside
  obtain ⟨element, among, same⟩ := List.mem_filterMap.1 inside
  cases element with
  | contract node =>
      cases same
      exact (regular _ among).1
  | _ => cases same

end Source

/-- The tree of a source, whole or what is left of it behind faults: its functions and contracts
are regular and its nodes stand in the order of the source, every element in front of its members.
There is one unless the stack has no room, and it is the one that is read strictly if that
succeeds.  Violations always come in the order of the source. -/
theorem trees_regular_and_in_order [StackRoom] {source : String} {tokens : List Token}
    (lexed : Token.tokenize source = .ok tokens) (filename : String) :
    ((Reading.ofSource filename source).gaveUp = false →
      ∃ unit, (Reading.ofSource filename source).unit = some unit) ∧
    (∀ strict, Tree.SourceUnit.parse filename source = .ok strict →
      (Reading.ofSource filename source).unit = some strict) ∧
    (∀ unit, (Reading.ofSource filename source).unit = some unit →
      (∀ function ∈ unit.functions, function.Regular) ∧
      (∀ contract ∈ unit.contracts, contract.Regular) ∧
      unit.outline.Pairwise Position.Before) ∧
    ∀ policy : Policy, ((policy.checkSource filename source).violations.map
      (·.position)).Pairwise Position.Before := by
  have same := Reading.ofSource_of_tokenize lexed filename
  have ordered {unit : Tree.SourceUnit}
      (read : (Reading.ofSource filename source).unit = some unit) :
      (∀ element ∈ unit.elements, element.Regular) ∧ unit.outline.Pairwise Position.Before := by
    rw [same] at read
    obtain ⟨last, outlined⟩ := outlines_reading read
    rw [Token.withoutComments_of_tokenize lexed] at outlined
    exact ⟨outlined.regular (Token.undotted_of_tokenize lexed),
      outlined.along.pairwise (Token.placed_of_tokenize lexed)⟩
  refine ⟨?_, ?_, ?_, ?_⟩
  · intro goesOn
    rw [same] at goesOn ⊢
    exact Reading.gaveUp_eq_false_iff.1 goesOn
  · intro strict parsed
    rw [Tree.SourceUnit.parse, lexed] at parsed
    dsimp only at parsed
    cases strictly : Tree.SourceUnit.ofTokens filename tokens with
    | ok found =>
        rw [strictly] at parsed
        cases parsed
        rw [same, unit_of_strict strictly]
    | error fault =>
        rw [strictly] at parsed
        cases parsed
  · intro unit read
    obtain ⟨regular, inOrder⟩ := ordered read
    exact ⟨unit.regular_functions regular, unit.regular_contracts regular, inOrder⟩
  · intro policy
    cases read : (Reading.ofSource filename source).unit with
    | none =>
        rw [policy.checkSource_of_none read]
        exact .nil
    | some unit => exact (ordered read).2.sublist (policy.checkSource_sublist read)

/-- A source with a fault between a function and a state variable. -/
def brokenSource : String :=
  "abstract contract C \x7b\n  function () ns.view;\n  function f ;\n  uint x;\n\x7d"

open StackRoom in
/-- What is left of its tree is regular and in order. -/
theorem brokenSource_in_order :
    ∃ unit, (Reading.ofSource "C.sol" brokenSource).unit = some unit ∧
      (Reading.ofSource "C.sol" brokenSource).success = false ∧
      unit.outline = [⟨1, 1⟩, ⟨2, 3⟩, ⟨4, 3⟩] ∧ unit.outline.Pairwise Position.Before ∧
      ∀ function ∈ unit.functions, function.Regular := by
  have lexed : Token.tokenize brokenSource =
      .ok (Token.withoutComments (Token.scan brokenSource).tokens) :=
    Token.tokenize_eq_ok_iff.2 ⟨by decide +kernel, rfl⟩
  obtain ⟨answers, -, trees, -⟩ := trees_regular_and_in_order lexed "C.sol"
  obtain ⟨unit, read⟩ := answers (by decide +kernel)
  obtain ⟨regular, -, ordered⟩ := trees unit read
  have evaluated : (Reading.ofSource "C.sol" brokenSource).success = false ∧
      (Reading.ofSource "C.sol" brokenSource).unit.map (·.outline) =
        some [⟨1, 1⟩, ⟨2, 3⟩, ⟨4, 3⟩] := by decide +kernel
  rw [read] at evaluated
  exact ⟨unit, read, evaluated.1, Option.some.inj evaluated.2, ordered, regular⟩

end Interlock
