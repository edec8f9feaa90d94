import Interlock.Proofs.Agreement
import Interlock.Proofs.Verdict

/-!
# Headers that say things again

A header may say its visibility and its mutability any number of times, and repeat `override` and
`returns`.  What it adds up to is said here by its items alone: the first keyword of each sort, the
last `override` and the last `returns`, all modifiers.  A tolerant reading remarks on each further
keyword, where it stands; a strict one ends at the first of them.
-/

namespace Interlock.Written

open Interlock.Parser

/-! ## What the items of a header say -/

/-- The invocation that a modifier stands for. -/
def Modifier.invocation (modifier : Modifier) : Tree.Invocation :=
  ⟨modifier.name, modifier.arguments.map (·.group.text), modifier.position⟩

namespace Item

def isVirtual : Item → Bool
  | .virtual _ => true
  | _ => false

/-- The bases that an `override` lists; without parentheses there are none. -/
def overrides? : Item → Option (List String)
  | .override _ bases =>
      some ((bases.map fun bases => Text.commaItems bases.group.text).getD [])
  | _ => none

def returns? : Item → Option String
  | .returns _ parameters => some parameters.group.text
  | _ => none

/-- The remark on a keyword in front of which another of its sort stands: the first one of
them is kept. -/
def repeated? (before : List Item) : Item → Option Remark
  | .visibility said position =>
      (before.findSome? visibility?).map fun first =>
        .duplicateSpecifier (word said.word position) first.word
  | .mutability said position =>
      (before.findSome? mutability?).map fun first =>
        .duplicateSpecifier (word said.word position) first.word
  | _ => none

end Item

/-- The remarks on all further keywords of a header, in order. -/
def repeats (items : List Item) : List Remark :=
  items.zipIdx.filterMap fun (item, place) => item.repeated? (items.take place)

/-- The function that a declaration declares, as its parts say. -/
def Function.declared [StackRoom] (function : Function) : Tree.Function where
  name := function.name.text
  kind := .function
  parameters := function.parameters.group.text
  returnParameters := (function.items.filterMap Item.returns?).getLast?
  explicitVisibility := function.items.findSome? Item.visibility?
  explicitMutability := function.items.findSome? Item.mutability?
  modifiers := (function.items.filterMap Item.modifier?).map (·.invocation)
  isVirtual := function.items.any Item.isVirtual
  overrides := (function.items.filterMap Item.overrides?).getLast?
  hasBody := function.ending.hasBody
  position := function.position

/-! ## What the items add up to -/

section Header

variable (header : Header) (items : List Item)

/-- The items of a header, put in one by one behind what the header has. -/
theorem foldl_into :
    items.foldl Item.into header =
      { visibility := header.visibility.or (items.findSome? Item.visibility?)
        mutability := header.mutability.or (items.findSome? Item.mutability?)
        modifiers :=
          header.modifiers ++ (items.filterMap Item.modifier?).map (·.invocation)
        isVirtual := header.isVirtual || items.any Item.isVirtual
        overrides := (items.filterMap Item.overrides?).getLast?.or header.overrides
        returnParameters :=
          (items.filterMap Item.returns?).getLast?.or header.returnParameters
        hasBody := header.hasBody } := by
  induction items generalizing header with
  | nil => simp
  | cons item items ih =>
      rw [List.foldl_cons, ih]
      -- A keyword is kept where the header says nothing yet; all else is put in as it comes.
      cases item with
      | visibility said position =>
          cases before : header.visibility <;>
            simp [Item.into, Item.visibility?, Item.mutability?, Item.modifier?,
              Item.isVirtual, Item.overrides?, Item.returns?, List.findSome?_cons,
              List.filterMap_cons, before]
      | mutability said position =>
          cases before : header.mutability <;>
            simp [Item.into, Item.visibility?, Item.mutability?, Item.modifier?,
              Item.isVirtual, Item.overrides?, Item.returns?, List.findSome?_cons,
              List.filterMap_cons, before]
      | _ =>
          simp [Item.into, Item.visibility?, Item.mutability?, Item.modifier?,
            Item.isVirtual, Item.overrides?, Item.returns?, Modifier.invocation,
            List.findSome?_cons, List.filterMap_cons, List.getLast?_cons]

/-- What is remarked on depends on the keywords in front, of which the header has the first. -/
theorem remarks_eq_repeated (before : List Item)
    (visibility : header.visibility = before.findSome? Item.visibility?)
    (mutability : header.mutability = before.findSome? Item.mutability?) :
    remarks header items =
      items.zipIdx.filterMap fun (item, place) =>
        item.repeated? (before ++ items.take place) := by
  induction items generalizing header before with
  | nil => rfl
  | cons item items ih =>
      have first : item.remark? header = item.repeated? before := by
        cases item <;> simp [Item.remark?, Item.repeated?, visibility, mutability]
      have added := foldl_into header [item]
      rw [List.foldl_cons, List.foldl_nil] at added
      have later := ih (item.into header) (before ++ [item])
        (by rw [added, visibility, List.findSome?_append])
        (by rw [added, mutability, List.findSome?_append])
      rw [remarks, first, later, List.zipIdx_cons', List.filterMap_cons, List.filterMap_map]
      cases repeated : item.repeated? before <;> simp [repeated, Function.comp_def]

end Header

theorem remarks_eq_repeats (items : List Item) : remarks {} items = repeats items := by
  have all := remarks_eq_repeated {} items [] rfl rfl
  simpa [repeats] using all

/-- Of the three visibilities the first is kept, and the other two are remarked on. -/
example :
    repeats [.visibility .publicly ⟨1, 1⟩, .mutability .view ⟨1, 8⟩,
        .visibility .externally ⟨1, 13⟩, .visibility .publicly ⟨1, 22⟩] =
      [.duplicateSpecifier (word "external" ⟨1, 13⟩) "public",
       .duplicateSpecifier (word "public" ⟨1, 22⟩) "public"] := by
  decide

theorem Function.node_eq_declared [StackRoom] (function : Function) :
    function.node = function.declared := by
  simp [node, header, declared, foldl_into]

/-! ## The strict reading -/

section Strict

variable {limit : Nat} {rest : List Token} {label : String} {header : Header}

/-- A strict reading refuses a keyword that says again what the header has. -/
theorem headerStep_refuses {item : Item} {remark : Remark}
    (repeated : item.remark? header = some remark) :
    headerStep limit .strict label header ⟨item.tokens ++ rest, #[], 0⟩ =
      .error remark.fault ⟨rest, #[], 0⟩ := by
  have step {text : String} {position : Position}
      (run : headerItem .strict header (word text position)
        ⟨word text position :: rest, #[], 0⟩ = .error remark.fault ⟨rest, #[], 0⟩) :
      headerStep limit .strict label header ⟨word text position :: rest, #[], 0⟩ =
        .error remark.fault ⟨rest, #[], 0⟩ := by
    have read : headerStep limit .strict label header ⟨word text position :: rest, #[], 0⟩ =
        (headerItem .strict header (word text position) >>= fun header =>
          pure (ForInStep.yield header)) ⟨word text position :: rest, #[], 0⟩ := rfl
    rw [read, bind_of_error run]
  cases item with
  | visibility said position =>
      obtain ⟨previous, before, rfl⟩ := Option.map_eq_some_iff.1 repeated
      apply step
      simp only [headerItem, word, ofWord?_visibility, before]
      rfl
  | mutability said position =>
      obtain ⟨previous, before, rfl⟩ := Option.map_eq_some_iff.1 repeated
      apply step
      simp only [headerItem, word, ofWord?_mutability, before]
      rfl
  | _ => cases repeated

/-- Where nothing is remarked on, the strict reading takes what the tolerant one takes. -/
theorem follows_silent {α : Type} {parser : Mode → Parser α} (agrees : Agrees parser)
    {tokens left : List Token} {value : α}
    (tolerant : parser .tolerant ⟨tokens, #[], 0⟩ = .ok value ⟨left, #[], 0⟩) :
    parser .strict ⟨tokens, #[], 0⟩ = .ok value ⟨left, #[], 0⟩ := by
  have follows := agrees.follows ⟨tokens, #[], 0⟩ (Nat.zero_lt_succ _)
  rw [tolerant] at follows
  generalize parser .strict ⟨tokens, #[], 0⟩ = strict at follows
  cases follows with
  | ok => rfl
  | marked marked =>
      obtain ⟨first, more, split, -⟩ := marked
      simp [final] at split

/-- A strict reading of a header ends at the first keyword that says something again. -/
theorem header_refused [StackRoom] (label : String) (ending : Ending) (rest : List Token)
    {items : List Item} {first : Remark} {more : List Remark}
    (repeated : remarks header items = first :: more) :
    ∃ left, loop header (headerStep StackRoom.member .strict label)
        ⟨items.flatMap (·.tokens) ++ (ending.tokens ++ rest), #[], 0⟩ =
      .error first.fault ⟨left, #[], 0⟩ := by
  induction items generalizing header with
  | nil => cases repeated
  | cons item items ih =>
      rw [List.flatMap_cons, List.append_assoc]
      rw [remarks] at repeated
      have goesOn := goesOn_items items ending rest
      cases own : item.remark? header with
      | some remark =>
          simp only [own, Option.toList_some, List.singleton_append, List.cons.injEq] at repeated
          obtain ⟨rfl, -⟩ := repeated
          exact ⟨_, loop_of_error (headerStep_refuses own)⟩
      | none =>
          simp only [own, Option.toList_none, List.nil_append] at repeated
          obtain ⟨left, refused⟩ := ih repeated
          have tolerant := headerStep_item #[] 0 label header item goesOn
          rw [own] at tolerant
          have step := follows_silent (agrees_headerStep _ label header) tolerant
          exact ⟨left, (loop_of_yield step (item.length_lt _)).trans refused⟩

end Strict

end Interlock.Written

namespace Interlock

open Interlock.Parser

/-- A declaration is read to its last token, however often its header says things again.  The
first keywords count, the last `override` and the last `returns`, and all modifiers.  A
tolerant reading remarks on each further keyword; a strict one needs that there is none, and
ends at the first. -/
theorem repeated_header_read [StackRoom] (function : Written.Function) (rest : List Token)
    (findings : Array Finding) (errors : Nat) :
    (ofReader Reader.next >>= Parser.function StackRoom.member .tolerant .function)
        ⟨function.tokens ++ rest, findings, errors⟩ =
      .ok function.declared
        ((State.mk rest findings errors).note (Written.repeats function.items)) ∧
    match Written.repeats function.items with
    | [] =>
        (ofReader Reader.next >>= Parser.function StackRoom.member .strict .function)
            ⟨function.tokens ++ rest, #[], 0⟩ =
          .ok function.declared ⟨rest, #[], 0⟩
    | first :: _ =>
        ∃ left, (ofReader Reader.next >>= Parser.function StackRoom.member .strict .function)
            ⟨function.tokens ++ rest, #[], 0⟩ =
          .error first.fault ⟨left, #[], 0⟩ := by
  have opened (mode : Mode) (findings : Array Finding) (errors : Nat) :
      (ofReader Reader.next >>= Parser.function StackRoom.member mode .function)
          ⟨function.tokens ++ rest, findings, errors⟩ =
        Parser.function StackRoom.member mode .function (Written.word "function" function.position)
          ⟨function.tail ++ rest, findings, errors⟩ := rfl
  have tolerant (findings : Array Finding) (errors : Nat) :
      Parser.function StackRoom.member .tolerant .function
          (Written.word "function" function.position) ⟨function.tail ++ rest, findings, errors⟩ =
        .ok function.declared
          ((State.mk rest findings errors).note (Written.repeats function.items)) := by
    rw [Written.function_tail, Written.remarks_eq_repeats, Written.Function.node_eq_declared]
  refine ⟨(opened ..).trans (tolerant ..), ?_⟩
  rw [opened]
  cases repeated : Written.repeats function.items with
  | nil =>
      have silent := tolerant #[] 0
      rw [repeated, State.note_nil] at silent
      exact Written.follows_silent (agrees_function _ .function _) silent
  | cons first more =>
      rw [← Written.remarks_eq_repeats] at repeated
      obtain ⟨left, refused⟩ :=
        Written.header_refused function.name.text function.ending rest repeated
      refine ⟨left, ?_⟩
      rw [Written.function_front, bind_of_error refused]

end Interlock
