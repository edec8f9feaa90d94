import Interlock.Proofs.Declaration

/-!
# Function declarations as they are written

A declaration is written as the word `function`, a name, parameters in parentheses,
header items in any order, and a semicolon or a block.  The types here hold the
tokens of a declaration together with the reason why they are well formed, and say
what each part means without regard to any reader.

Reading the tokens of a declaration takes exactly those tokens.  The header that
comes out is the one to which the items add up, and the only findings are remarks on
keywords that say again what was said before.
-/

namespace Interlock.Written

open Interlock.Parser

/-! ## Parts of a declaration -/

/-- A word at a position. -/
def word (text : String) (position : Position) : Token := ⟨.identifier, text, position⟩

/-- A name is a word that is not empty. -/
structure Name where
  text : String
  position : Position
  nonempty : text ≠ ""

/-- A group in brackets of one shape, balanced inside. -/
structure Enclosed (shape : Bracket) where
  group : Group
  encloses : group.Encloses shape

/-- A dot and the name behind it. -/
structure Qualifier where
  dot : Token
  name : Token
  isDot : dot.kind = .dot
  isName : name.kind = .identifier

def Qualifier.tokens (qualifier : Qualifier) : List Token := [qualifier.dot, qualifier.name]

/-- The words that begin header items which are not modifiers. -/
def headerWords : List String :=
  ["public", "external", "internal", "private", "pure", "view", "payable", "constant",
   "nonpayable", "virtual", "override", "returns"]

/-- A modifier in a header, perhaps with arguments. -/
structure Modifier where
  first : String
  position : Position
  qualifiers : List Qualifier
  arguments : Option (Enclosed .paren)
  free : first ∉ headerWords

/-- The dotted name of a modifier. -/
def Modifier.name (modifier : Modifier) : String :=
  ".".intercalate (modifier.first :: modifier.qualifiers.map (·.name.text))

/-- The tokens of a group that may be missing. -/
def groupTokens (enclosed : Option (Enclosed .paren)) : List Token :=
  (enclosed.map (·.group.tokens)).getD []

/-- A header item. -/
inductive Item where
  | visibility (visibility : Visibility) (position : Position)
  | mutability (mutability : Mutability) (position : Position)
  | virtual (position : Position)
  | override (position : Position) (bases : Option (Enclosed .paren))
  | returns (position : Position) (parameters : Enclosed .paren)
  | modifier (modifier : Modifier)

namespace Item

def tokens : Item → List Token
  | .visibility said position => [word said.word position]
  | .mutability said position => [word said.word position]
  | .virtual position => [word "virtual" position]
  | .override position bases => word "override" position :: groupTokens bases
  | .returns position parameters => word "returns" position :: parameters.group.tokens
  | .modifier used =>
      word used.first used.position ::
        (used.qualifiers.flatMap (·.tokens) ++ groupTokens used.arguments)

/-- An item is at least one token long. -/
theorem length_lt (item : Item) (rest : List Token) :
    rest.length < (item.tokens ++ rest).length := by
  have longer : 0 < item.tokens.length := by cases item <;> exact Nat.zero_lt_succ _
  rw [List.length_append]
  omega

def visibility? : Item → Option Visibility
  | .visibility said _ => some said
  | _ => none

def mutability? : Item → Option Mutability
  | .mutability said _ => some said
  | _ => none

def modifier? : Item → Option Modifier
  | .modifier used => some used
  | _ => none

/-- The header with one more item.  The first keyword of each sort stays; of several
`override` or `returns` the last one counts. -/
def into (header : Header) : Item → Header
  | .visibility said _ => { header with visibility := some (header.visibility.getD said) }
  | .mutability said _ => { header with mutability := some (header.mutability.getD said) }
  | .virtual _ => { header with isVirtual := true }
  | .override _ bases =>
      { header with
        overrides := some ((bases.map fun bases => Text.commaItems bases.group.text).getD []) }
  | .returns _ parameters => { header with returnParameters := some parameters.group.text }
  | .modifier used =>
      { header with
        modifiers := header.modifiers ++
          [⟨used.name, used.arguments.map (·.group.text), used.position⟩] }

/-- The remark on an item that says again what the header has. -/
def remark? (header : Header) : Item → Option Remark
  | .visibility said position =>
      header.visibility.map fun previous =>
        .duplicateSpecifier (word said.word position) previous.word
  | .mutability said position =>
      header.mutability.map fun previous =>
        .duplicateSpecifier (word said.word position) previous.word
  | _ => none

end Item

/-- The remarks on the items behind a header. -/
def remarks (header : Header) : List Item → List Remark
  | [] => []
  | item :: items => (item.remark? header).toList ++ remarks (item.into header) items

section Declarations

variable [StackRoom]

/-- The end of a declaration: a semicolon, or a block that is read to its last token. -/
inductive Ending where
  | semicolon (token : Token) (ends : token.kind = .semicolon)
  | block (tokens : List Token) (accepted : Reader.block StackRoom.member tokens = .ok () [])

namespace Ending

def tokens : Ending → List Token
  | .semicolon token _ => [token]
  | .block tokens _ => tokens

def hasBody : Ending → Bool
  | .semicolon _ _ => false
  | .block _ _ => true

end Ending

/-- A function declaration. -/
structure Function where
  position : Position
  name : Name
  parameters : Enclosed .paren
  items : List Item
  ending : Ending

namespace Function

/-- The tokens behind the word `function`. -/
def tail (function : Function) : List Token :=
  word function.name.text function.name.position ::
    (function.parameters.group.tokens ++
      (function.items.flatMap (·.tokens) ++ function.ending.tokens))

def tokens (function : Function) : List Token :=
  word "function" function.position :: function.tail

/-- The header to which the items of a declaration add up. -/
def header (function : Function) : Header :=
  { function.items.foldl Item.into {} with hasBody := function.ending.hasBody }

/-- The function that a declaration declares. -/
def node (function : Function) : Tree.Function where
  name := function.name.text
  kind := .function
  parameters := function.parameters.group.text
  returnParameters := function.header.returnParameters
  explicitVisibility := function.header.visibility
  explicitMutability := function.header.mutability
  modifiers := function.header.modifiers
  isVirtual := function.header.isVirtual
  overrides := function.header.overrides
  hasBody := function.header.hasBody
  position := function.position

end Function

end Declarations

/-! ## Reading the parts -/

section Parts

variable {rest : List Token}

theorem parenthesized?_groupTokens (enclosed : Option (Enclosed .paren))
    (goesOn : HeaderGoesOn rest) :
    Reader.parenthesized? (groupTokens enclosed ++ rest) =
      .ok (enclosed.map (·.group)) rest := by
  rw [Reader.parenthesized?, Reader.at?_bind]
  cases enclosed with
  | none =>
      have absent : rest.head?.any (·.kind = .opening .paren) = false :=
        goesOn.not_at (by simp) (by simp) (by simp)
      simp only [groupTokens, Option.map_none, Option.getD_none, List.nil_append, absent]
      rfl
  | some enclosed =>
      have present : (enclosed.group.tokens ++ rest).head?.any (·.kind = .opening .paren) := by
        simp [Group.tokens, enclosed.encloses.opens]
      simp only [groupTokens, Option.map_some, Option.getD_some, present, if_true]
      rw [bind_of_ok (Reader.group_of_encloses enclosed.encloses rest)]
      rfl

theorem dottedStep_qualifier (what : String) (names : List String) (qualifier : Qualifier)
    (rest : List Token) :
    Reader.dottedStep what names (qualifier.tokens ++ rest) =
      .ok (.yield (names ++ [qualifier.name.text])) rest := by
  obtain ⟨dot, name, isDot, isName⟩ := qualifier
  have present : (dot :: name :: rest).head?.any (·.kind = .dot) := by simp [isDot]
  have named : Reader.expectName what (name :: rest) = .ok name rest :=
    Reader.expectElse_eq_ok_iff.2 ⟨rfl, by simp [isName], isName⟩
  change Reader.dottedStep what names (dot :: name :: rest) = _
  rw [Reader.dottedStep, Reader.at?_bind, if_pos present, Reader.advance_bind, bind_of_ok named]
  rfl

theorem dotted_qualifiers (what : String) (names : List String)
    (qualifiers : List Qualifier) (goesOn : rest.head?.any (·.kind = .dot) = false) :
    Reader.dotted what names (qualifiers.flatMap (·.tokens) ++ rest) =
      .ok (".".intercalate (names ++ qualifiers.map (·.name.text))) rest := by
  suffices steps : Reader.loop names (Reader.dottedStep what)
      (qualifiers.flatMap (·.tokens) ++ rest) =
        .ok (names ++ qualifiers.map (·.name.text)) rest by
    exact bind_of_ok steps
  induction qualifiers generalizing names with
  | nil =>
      have last : Reader.dottedStep what names rest = .ok (.done names) rest := by
        rw [Reader.dottedStep, Reader.at?_bind, goesOn]
        rfl
      simpa using Reader.loop_of_done last
  | cons qualifier qualifiers ih =>
      rw [List.flatMap_cons, List.append_assoc]
      have first := dottedStep_qualifier what names qualifier
        (qualifiers.flatMap (·.tokens) ++ rest)
      refine (Reader.loop_of_yield first ?_).trans ?_
      · simp only [Qualifier.tokens, List.length_cons, List.length_append]
        omega
      · simpa using ih (names ++ [qualifier.name.text])

theorem invocation_modifier (used : Modifier) (goesOn : HeaderGoesOn rest) :
    Reader.invocation (word used.first used.position)
        (used.qualifiers.flatMap (·.tokens) ++ groupTokens used.arguments ++ rest) =
      .ok ⟨used.name, used.arguments.map (·.group.text), used.position⟩ rest := by
  have noDot : (groupTokens used.arguments ++ rest).head?.any (·.kind = .dot) = false := by
    cases used.arguments with
    | none => exact goesOn.not_at (by simp) (by simp) (by simp)
    | some enclosed => simp [groupTokens, Group.tokens, enclosed.encloses.opens]
  rw [Reader.invocation, List.append_assoc, bind_of_ok (dotted_qualifiers _ _ _ noDot),
    bind_of_ok (parenthesized?_groupTokens used.arguments goesOn)]
  simp only [Option.map_map]
  rfl

end Parts

/-! ## Reading a header -/

section Words

theorem ofWord?_visibility (said : Visibility) : Visibility.ofWord? said.word = some said := by
  cases said <;> decide

theorem ofWord?_mutability (said : Mutability) :
    Visibility.ofWord? said.word = none ∧ Mutability.ofWord? said.word = some said := by
  cases said <;> decide

theorem ofWord?_of_free {text : String} (free : text ∉ headerWords) :
    Visibility.ofWord? text = none ∧ Mutability.ofWord? text = none ∧
      text ≠ "virtual" ∧ text ≠ "override" ∧ text ≠ "returns" := by
  simp only [headerWords, List.mem_cons, List.not_mem_nil, or_false, not_or] at free
  obtain ⟨h1, h2, h3, h4, h5, h6, h7, h8, h9, notVirtual, notOverride, notReturns⟩ := free
  refine ⟨?_, ?_, notVirtual, notOverride, notReturns⟩
  · simp [Visibility.ofWord?, Visibility.word, Ne.symm h1, Ne.symm h2, Ne.symm h3, Ne.symm h4]
  · simp [Mutability.ofWord?, Mutability.word, Ne.symm h5, Ne.symm h6, Ne.symm h7, Ne.symm h8,
      Ne.symm h9]

end Words

section Header

variable {rest : List Token} (findings : Array Finding) (errors : Nat)

/-- A keyword counts where nothing of its sort was said before; where something was, it is
passed with a remark. -/
theorem headerItem_specifier {header result : Header} {token : Token} {remarks : List Remark}
    (previous : Option String)
    (first : previous = none → headerItem .tolerant header token = do
      let _ ← (liftM Reader.advance : Parser _)
      return result)
    (again : ∀ earlier, previous = some earlier → headerItem .tolerant header token = do
      let _ ← (liftM Reader.advance : Parser _)
      remark .tolerant (.duplicateSpecifier token earlier)
      return header)
    (unchanged : ∀ earlier, previous = some earlier → result = header)
    (noted : remarks = (previous.map (Remark.duplicateSpecifier token)).toList) :
    headerItem .tolerant header token ⟨token :: rest, findings, errors⟩ =
      .ok result ((State.mk rest findings errors).note remarks) := by
  cases previous with
  | none =>
      rw [first rfl, advance_bind, noted]
      exact congrArg (EStateM.Result.ok result) (State.note_nil _).symm
  | some earlier =>
      rw [again earlier rfl, advance_bind, bind_of_ok (remark_tolerant _ _),
        unchanged earlier rfl, noted]
      rfl

theorem headerItem_visibility (header : Header) (said : Visibility) (position : Position) :
    headerItem .tolerant header (word said.word position)
        ⟨word said.word position :: rest, findings, errors⟩ =
      .ok ((Item.visibility said position).into header)
        ((State.mk rest findings errors).note
          ((Item.visibility said position).remark? header).toList) := by
  apply headerItem_specifier findings errors (header.visibility.map (·.word))
  · intro first
    have unsaid : header.visibility = none := Option.map_eq_none_iff.1 first
    simp only [headerItem, word, ofWord?_visibility, unsaid, Item.into, Option.getD_none]
  · intro earlier again
    obtain ⟨previous, before, rfl⟩ := Option.map_eq_some_iff.1 again
    simp only [headerItem, word, ofWord?_visibility, before]
  · intro earlier again
    obtain ⟨previous, before, rfl⟩ := Option.map_eq_some_iff.1 again
    cases header
    simp_all [Item.into]
  · simp [Item.remark?, Function.comp_def]

theorem headerItem_mutability (header : Header) (said : Mutability) (position : Position) :
    headerItem .tolerant header (word said.word position)
        ⟨word said.word position :: rest, findings, errors⟩ =
      .ok ((Item.mutability said position).into header)
        ((State.mk rest findings errors).note
          ((Item.mutability said position).remark? header).toList) := by
  apply headerItem_specifier findings errors (header.mutability.map (·.word))
  · intro first
    have unsaid : header.mutability = none := Option.map_eq_none_iff.1 first
    simp only [headerItem, word, ofWord?_mutability, unsaid, Item.into, Option.getD_none]
  · intro earlier again
    obtain ⟨previous, before, rfl⟩ := Option.map_eq_some_iff.1 again
    simp only [headerItem, word, ofWord?_mutability, before]
  · intro earlier again
    obtain ⟨previous, before, rfl⟩ := Option.map_eq_some_iff.1 again
    cases header
    simp_all [Item.into]
  · simp [Item.remark?, Function.comp_def]

theorem headerItem_override (header : Header) (position : Position)
    (bases : Option (Enclosed .paren)) (goesOn : HeaderGoesOn rest) :
    headerItem .tolerant header (word "override" position)
        ⟨word "override" position :: (groupTokens bases ++ rest), findings, errors⟩ =
      .ok ((Item.override position bases).into header) ⟨rest, findings, errors⟩ := by
  have read : headerItem .tolerant header (word "override" position) = do
      let _ ← (liftM Reader.advance : Parser _)
      let names ← ofReader Reader.parenthesized?
      return { header with
        overrides := some ((names.map fun group => Text.commaItems group.text).getD []) } := rfl
  rw [read, advance_bind, bind_of_ok
    (ofReader_of_ok (parenthesized?_groupTokens bases goesOn) findings errors)]
  cases bases <;> rfl

theorem headerItem_returns (header : Header) (position : Position)
    (parameters : Enclosed .paren) :
    headerItem .tolerant header (word "returns" position)
        ⟨word "returns" position :: (parameters.group.tokens ++ rest), findings, errors⟩ =
      .ok ((Item.returns position parameters).into header) ⟨rest, findings, errors⟩ := by
  have read : headerItem .tolerant header (word "returns" position) = do
      let _ ← (liftM Reader.advance : Parser _)
      let group ← ofReader (Reader.shaped .paren .expectedReturnParameters)
      return { header with returnParameters := group.text } := rfl
  rw [read, advance_bind, bind_of_ok
    (ofReader_of_ok (Reader.shaped_of_encloses parameters.encloses rest) findings errors)]
  rfl

/-- A word that begins no other item begins a modifier. -/
theorem headerItem_of_free (mode : Mode) (header : Header) {token : Token}
    (free : token.text ∉ headerWords) :
    headerItem mode header token = do
      let _ ← (liftM Reader.advance : Parser _)
      let modifier ← ofReader (Reader.invocation token)
      return { header with modifiers := header.modifiers ++ [modifier] } := by
  obtain ⟨noVisibility, noMutability, notVirtual, notOverride, notReturns⟩ :=
    ofWord?_of_free free
  rw [headerItem]
  simp only [noVisibility, noMutability, if_neg notVirtual, if_neg notOverride,
    if_neg notReturns]
  rfl

theorem headerItem_modifier (header : Header) (used : Modifier)
    (goesOn : HeaderGoesOn rest) :
    headerItem .tolerant header (word used.first used.position)
        ⟨(Item.modifier used).tokens ++ rest, findings, errors⟩ =
      .ok ((Item.modifier used).into header) ⟨rest, findings, errors⟩ := by
  have free : (word used.first used.position).text ∉ headerWords := used.free
  rw [headerItem_of_free _ _ free, Item.tokens, List.cons_append, advance_bind, bind_of_ok
    (ofReader_of_ok (invocation_modifier used goesOn) findings errors)]
  rfl

variable [StackRoom]

/-- One step through a header reads an item and leaves what stands behind it. -/
theorem headerStep_item (label : String) (header : Header) (item : Item)
    (goesOn : HeaderGoesOn rest) :
    headerStep StackRoom.member .tolerant label header ⟨item.tokens ++ rest, findings, errors⟩ =
      .ok (.yield (item.into header))
        ((State.mk rest findings errors).note (item.remark? header).toList) := by
  have step {text : String} {position : Position} {more : List Token} {result : Header}
      {after : State}
      (run : headerItem .tolerant header (word text position)
        ⟨word text position :: more, findings, errors⟩ = .ok result after) :
      headerStep StackRoom.member .tolerant label header
          ⟨word text position :: more, findings, errors⟩ = .ok (.yield result) after :=
    bind_of_ok run
  cases item with
  | visibility said position =>
      exact step (headerItem_visibility findings errors header said position)
  | mutability said position =>
      exact step (headerItem_mutability findings errors header said position)
  | virtual position => exact step rfl
  | override position bases =>
      exact step (headerItem_override findings errors header position bases goesOn)
  | returns position parameters =>
      exact step (headerItem_returns findings errors header position parameters)
  | modifier used =>
      exact step (headerItem_modifier findings errors header used goesOn)

/-- A block that is read to its last token begins with a brace. -/
theorem block_front {tokens : List Token}
    (accepted : Reader.block StackRoom.member tokens = .ok () []) :
    ∃ token more, tokens = token :: more ∧ token.kind = .opening .brace := by
  obtain ⟨token, more, opened, -⟩ := bind_eq_ok_iff.1 accepted
  obtain ⟨rfl, -, opens⟩ := Reader.expectElse_eq_ok_iff.1 opened
  exact ⟨token, more, rfl, opens⟩

/-- The last step through a header reads the end of the declaration. -/
theorem headerStep_ending (label : String) (header : Header) (ending : Ending)
    (rest : List Token) :
    headerStep StackRoom.member .tolerant label header ⟨ending.tokens ++ rest, findings, errors⟩ =
      .ok (.done { header with hasBody := header.hasBody || ending.hasBody })
        ⟨rest, findings, errors⟩ := by
  cases ending with
  | semicolon token ends =>
      have read : headerStep StackRoom.member .tolerant label header
            ⟨token :: rest, findings, errors⟩ =
          .ok (.done header) ⟨rest, findings, errors⟩ := by
        rw [headerStep, current_bind]
        simp only [List.head?_cons, ends]
        rfl
      simpa [Ending.tokens, Ending.hasBody] using read
  | block tokens accepted =>
      obtain ⟨token, more, rfl, opens⟩ := block_front accepted
      obtain ⟨taken, split, again⟩ := Reader.local_block _ accepted
      have whole : taken = token :: more := by simpa using split.symm
      have read := ofReader_of_ok (again rest trivial) findings errors
      rw [whole, List.cons_append] at read
      have step : headerStep StackRoom.member .tolerant label header
            ⟨token :: (more ++ rest), findings, errors⟩ =
          (ofReader (Reader.block StackRoom.member) >>= fun _ =>
            pure (.done { header with hasBody := true }))
            ⟨token :: (more ++ rest), findings, errors⟩ := by
        rw [headerStep, current_bind]
        simp only [List.head?_cons, opens]
        rfl
      rw [Ending.tokens, List.cons_append, step, bind_of_ok read]
      simp [Ending.hasBody]
      rfl

theorem Ending.goesOn (ending : Ending) (rest : List Token) :
    HeaderGoesOn (ending.tokens ++ rest) := by
  cases ending with
  | semicolon token ends => exact ⟨token, rest, rfl, .inr (.inr ends)⟩
  | block tokens accepted =>
      obtain ⟨token, more, rfl, opens⟩ := block_front accepted
      exact ⟨token, more ++ rest, rfl, .inr (.inl opens)⟩

theorem goesOn_items (items : List Item) (ending : Ending) (rest : List Token) :
    HeaderGoesOn (items.flatMap (·.tokens) ++ (ending.tokens ++ rest)) := by
  cases items with
  | nil => exact ending.goesOn rest
  | cons item items =>
      cases item <;> exact ⟨_, _, rfl, .inl rfl⟩

/-- A header is read item by item up to the end of the declaration. -/
theorem header_items (label : String) (header : Header) (items : List Item)
    (ending : Ending) (rest : List Token) (bodiless : header.hasBody = false) :
    loop header (headerStep StackRoom.member .tolerant label)
        ⟨items.flatMap (·.tokens) ++ (ending.tokens ++ rest), findings, errors⟩ =
      .ok { items.foldl Item.into header with hasBody := ending.hasBody }
        ((State.mk rest findings errors).note (remarks header items)) := by
  induction items generalizing header findings with
  | nil =>
      have last := loop_of_done (headerStep_ending findings errors label header ending rest)
      simpa [remarks, bodiless] using last
  | cons item items ih =>
      have goesOn := goesOn_items items ending rest
      have first := headerStep_item findings errors label header item goesOn
      have same : (item.into header).hasBody = false := by
        cases item <;> exact bodiless
      rw [List.flatMap_cons, List.append_assoc]
      refine (loop_of_yield first (item.length_lt _)).trans ?_
      refine (ih _ (item.into header) same).trans ?_
      rw [List.foldl_cons, remarks, ← State.note_note]
      rfl

/-- Behind its parameters a declaration goes on with its header. -/
theorem function_front (mode : Mode) (function : Function) :
    Parser.function StackRoom.member mode .function (word "function" function.position)
        ⟨function.tail ++ rest, findings, errors⟩ =
      (loop {} (headerStep StackRoom.member mode function.name.text) >>= fun header : Header =>
        pure
          { name := function.name.text
            kind := .function
            parameters := function.parameters.group.text
            returnParameters := header.returnParameters
            explicitVisibility := header.visibility
            explicitMutability := header.mutability
            modifiers := header.modifiers
            isVirtual := header.isVirtual
            overrides := header.overrides
            hasBody := header.hasBody
            position := function.position })
        ⟨function.items.flatMap (·.tokens) ++ (function.ending.tokens ++ rest), findings,
          errors⟩ := by
  obtain ⟨position, ⟨name, place, nonempty⟩, parameters, items, ending⟩ := function
  have named : functionName .function (word name place ::
        (parameters.group.tokens ++ (items.flatMap (·.tokens) ++ ending.tokens)) ++ rest) =
      .ok name (parameters.group.tokens ++
        (items.flatMap (·.tokens) ++ (ending.tokens ++ rest))) := by
    simp only [List.cons_append, List.append_assoc]
    rfl
  rw [Parser.function]
  simp only [liftM_eq_ofReader, Function.tail]
  rw [bind_of_ok (ofReader_of_ok named findings errors), bind_of_ok (ofReader_of_ok
    (Reader.shaped_of_encloses parameters.encloses _) findings errors)]
  simp only [nonempty, if_false, decide_false, Bool.false_and, Bool.false_eq_true]
  rfl

/-- A declaration is read to its last token, behind its first. -/
theorem function_tail (function : Function) :
    Parser.function StackRoom.member .tolerant .function (word "function" function.position)
        ⟨function.tail ++ rest, findings, errors⟩ =
      .ok function.node ((State.mk rest findings errors).note (remarks {} function.items)) := by
  rw [function_front, bind_of_ok
    (header_items findings errors _ {} function.items function.ending rest rfl)]
  rfl

end Header

end Interlock.Written
