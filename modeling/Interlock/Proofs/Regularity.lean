import Interlock.Proofs.Recovery
import Interlock.Proofs.Spelling
import Interlock.Proofs.Written

/-!
# Regular functions

A function that is read says no more than it may.  Its visibility and its mutability
are the keywords that were written or the defaults, it has a name exactly when its role
has one, and every modifier begins with a word that is no header item of its own.  The
last of these needs words without dots, which is what texts have.
-/

namespace Interlock

/-! ## Words without dots -/

namespace Text

/-- The first field of a dotted name is its first word. -/
theorem head?_fields_dotted {first : String} (apart : '.' ∉ first.toList) (more : List String) :
    (fields '.' (".".intercalate (first :: more))).head? = some first := by
  have dot : ".".toList = ['.'] := rfl
  rw [fields, String.toList_intercalate]
  cases more with
  | nil =>
      rw [List.map_cons, List.map_nil, List.intercalate_singleton, fieldsOf_of_not_mem apart]
      simp
  | cons next more =>
      rw [List.map_cons, List.map_cons, dot, List.intercalate_cons_cons, List.append_assoc,
        List.singleton_append, fieldsOf_append_mark apart]
      simp

end Text

theorem Lexeme.IsIdentifier.undotted {text : List Char} (isIdentifier : IsIdentifier text) :
    '.' ∉ text := by
  have other : ¬ continuesIdentifier '.' := by decide
  intro member
  cases text with
  | nil => exact isIdentifier
  | cons c more =>
      rcases List.mem_cons.1 member with rfl | member
      · exact other (continues_of_starts isIdentifier.1)
      · exact other (isIdentifier.2 _ member)

namespace Token

/-- Tokens whose words have no dots in them. -/
def Undotted (tokens : List Token) : Prop :=
  ∀ token ∈ tokens, token.kind = .identifier → '.' ∉ token.text.toList

theorem Undotted.of_suffix {tokens left : List Token} (undotted : Undotted tokens)
    (suffix : left <:+ tokens) : Undotted left :=
  fun token member => undotted token (suffix.subset member)

theorem undotted_of_tokenize {source : String} {tokens : List Token}
    (lexed : tokenize source = .ok tokens) : Undotted tokens := by
  have scanned : Undotted (scan source).tokens := by
    apply scanFrom_forall
    · intro c rest lexeme found position isWord
      rw [String.toList_ofList]
      have spelled := Lexeme.spelled_read found
      generalize c :: rest.take lexeme.more = own at spelled
      obtain ⟨kind, value, more⟩ := lexeme
      dsimp only at *
      subst isWord
      cases spelled with
      | identifier longest => exact longest.1.undotted
      | punctuation isMark => exact absurd rfl (Lexeme.punctuation?_ne_identifier isMark)
    · intro position isWord
      cases isWord
    · nofun
  rw [← (tokenize_eq_ok_iff.1 lexed).2]
  exact fun token member => scanned token (List.mem_filter.1 member).1

end Token

/-! ## Functions -/

namespace Tree.Function

/-- What holds of every function that is read. -/
structure Regular (function : Function) : Prop where
  visible : function.visibility.word ∈ ["public", "external", "internal", "private"]
  visibility : function.visibility.word =
    (function.explicitVisibility.map (·.word)).getD "public"
  changing : function.mutability.word ∈ ["pure", "view", "nonpayable", "payable"]
  mutability : function.mutability.word =
    match function.explicitMutability with
    | none => "nonpayable"
    | some .constant => "view"
    | some written => written.word
  nameless : function.name = "" ↔ function.kind ∈ [.constructor, .fallback, .receive]
  modifiers : ∀ name ∈ function.modifierNames, ∀ word ∈ (Text.fields '.' name).head?,
    word ∉ Written.headerWords

/-- Only the name and the modifiers depend on how a function is read. -/
theorem regular_of {function : Function}
    (nameless : function.name = "" ↔ function.kind ∈ [.constructor, .fallback, .receive])
    (modifiers : ∀ name ∈ function.modifierNames, ∀ word ∈ (Text.fields '.' name).head?,
      word ∉ Written.headerWords) : function.Regular where
  visible := by cases function.visibility <;> decide
  visibility := by
    rw [Function.visibility]
    cases function.explicitVisibility <;> rfl
  changing := by
    rw [Function.mutability]
    cases function.explicitMutability with
    | none => decide
    | some written => cases written <;> decide
  mutability := by
    rw [Function.mutability]
    cases function.explicitMutability with
    | none => rfl
    | some written => cases written <;> rfl
  nameless := nameless
  modifiers := modifiers

end Tree.Function

namespace Reader

/-- A dotted name goes on with the names it began with. -/
theorem always_dotted (what : String) (names : List String) :
    Always (fun name => ∃ more, name = ".".intercalate (names ++ more)) (dotted what names) := by
  have all : Always (fun all => ∃ more, all = names ++ more) (loop names (dottedStep what)) := by
    apply Always.repeatSteps
    · rintro _ ⟨more, rfl⟩
      apply Always.behind
      intro isDot
      split
      · apply Always.behind
        intro dot
        apply Always.behind
        intro next
        exact .pure ⟨more ++ [next.text], List.append_assoc ..⟩
      · exact .pure ⟨more, rfl⟩
    · exact ⟨[], (List.append_nil _).symm⟩
  rw [dotted_eq]
  apply all.bind
  rintro _ ⟨more, rfl⟩
  exact .pure ⟨more, rfl⟩

/-- The name of a modifier begins with its first word. -/
theorem always_invocation (start : Token) :
    Always (fun node => ∃ more, node.name = ".".intercalate (start.text :: more))
      (invocation start) := by
  apply (always_dotted "modifier name" [start.text]).bind
  intro name named
  exact .behind fun _ => .pure named

theorem Built.suffix {α : Type} {reader : Reader α} (built : Built reader)
    {tokens left : List Token} {value : α} (run : reader tokens = .ok value left) :
    left <:+ tokens := by
  have walk := built.walks tokens
  rw [run] at walk
  exact Walk.suffix walk

end Reader

namespace Parser

open Interlock.Written

theorem always_ofReader {α : Type} {holds : α → Prop} {reader : Reader α}
    (always : Always holds reader) : Always holds (ofReader reader) :=
  ⟨fun _ _ _ run => always.answer (ofReader_eq_ok_iff.1 run).1⟩

theorem not_mem_headerWords {text : String} (noVisibility : Visibility.ofWord? text = none)
    (noMutability : Mutability.ofWord? text = none) (notVirtual : text ≠ "virtual")
    (notOverride : text ≠ "override") (notReturns : text ≠ "returns") :
    text ∉ headerWords := by
  have noWord (said : Visibility) : text ≠ said.word := by
    rintro rfl
    rw [ofWord?_visibility] at noVisibility
    cases noVisibility
  have noOther (said : Mutability) : text ≠ said.word := by
    rintro rfl
    rw [(ofWord?_mutability said).2] at noMutability
    cases noMutability
  simp only [headerWords, List.mem_cons, List.not_mem_nil, or_false, not_or]
  exact ⟨noWord .publicly, noWord .externally, noWord .internally, noWord .privately,
    noOther .pure, noOther .view, noOther .payable, noOther .constant, noOther .nonpayable,
    notVirtual, notOverride, notReturns⟩

/-- Header items whose modifiers begin with words that are no items of their own. -/
def Header.Free (header : Header) : Prop :=
  ∀ modifier ∈ header.modifiers, ∀ word ∈ (Text.fields '.' modifier.name).head?,
    word ∉ headerWords

theorem Header.Free.snoc {header : Header} {token : Token} {modifier : Tree.Invocation}
    (free : header.Free) (undotted : '.' ∉ token.text.toList)
    (notItem : token.text ∉ headerWords)
    (named : ∃ more, modifier.name = ".".intercalate (token.text :: more)) :
    Header.Free { header with modifiers := header.modifiers ++ [modifier] } := by
  intro used member word isFirst
  rcases List.mem_append.1 member with earlier | last
  · exact free used earlier word isFirst
  · obtain rfl := List.mem_singleton.1 last
    obtain ⟨more, same⟩ := named
    rw [same, Text.head?_fields_dotted undotted] at isFirst
    cases isFirst
    exact notItem

variable {limit : Nat} {header : Header} {before after : State}

theorem always_headerItem (mode : Mode) {token : Token} (undotted : '.' ∉ token.text.toList)
    (free : header.Free) : Always Header.Free (headerItem mode header token) := by
  apply Always.behind
  intro taken
  split
  · split
    · exact .behind fun _ => .pure free
    · exact .pure free
  · split
    · exact .behind fun _ => .pure free
    · exact .pure free
  next noVisibility noMutability =>
    split
    · exact .pure free
    next notVirtual =>
    split
    · exact .behind fun _ => .pure free
    next notOverride =>
    split
    · exact .behind fun _ => .pure free
    next notReturns =>
    apply (always_ofReader (Reader.always_invocation token)).bind
    intro modifier named
    exact .pure (free.snoc undotted
      (not_mem_headerWords noVisibility noMutability notVirtual notOverride notReturns) named)

theorem headerStep_free {label : String} {answer : ForInStep Header}
    (undotted : Token.Undotted before.rest) (free : header.Free)
    (run : headerStep limit .tolerant label header before = .ok answer after) :
    answer.value.Free := by
  obtain ⟨branch, same, run⟩ := branch_of_current_bind run
  split at same
  next =>
    subst same
    cases run
  next token front =>
    have inside : token ∈ before.rest := List.mem_of_head? front
    split at same <;> subst same
    next => cases run
    next =>
      obtain ⟨_, -, rfl⟩ := map_eq_ok_iff.1 run
      exact free
    next =>
      obtain ⟨_, -, rfl⟩ := map_eq_ok_iff.1 run
      exact free
    next isWord =>
      obtain ⟨found, itemRun, rfl⟩ := map_eq_ok_iff.1 run
      exact (always_headerItem .tolerant (undotted token inside isWord) free).answer itemRun
    next => cases run

/-- A header that is read has no modifier that is an item of its own. -/
theorem header_free {label : String} {result : Header} (undotted : Token.Undotted before.rest)
    (run : loop {} (headerStep limit .tolerant label) before = .ok result after) : result.Free := by
  -- A step reads a word of what is left, so what is left must be undotted all the way.
  have both : Token.Undotted after.rest ∧ result.Free := by
    apply (steps_of_loop run).preserves fun header state =>
      Token.Undotted state.rest ∧ header.Free
    · rintro header before answer after ⟨undotted, free⟩ step
      constructor
      · exact undotted.of_suffix ((advances_headerStep limit label).answers step)
      · exact headerStep_free undotted free step
    · exact ⟨undotted, nofun⟩
  exact both.2

theorem always_functionName (kind : Tree.FunctionKind) :
    Always (fun name => kind ≠ .function → name = "") (functionName kind) := by
  apply Always.behind
  intro isWord
  split
  next named =>
    apply Always.behind
    intro name
    rw [Bool.and_eq_true] at named
    exact .pure fun other => absurd (of_decide_eq_true named.1) other
  next => exact .pure fun _ => rfl

/-- Every function that is read is regular. -/
theorem function_regular {kind : Tree.FunctionKind} {start : Token} {node : Tree.Function}
    (undotted : Token.Undotted before.rest)
    (run : function limit .tolerant kind start before = .ok node after) : node.Regular := by
  obtain ⟨name, behindName, nameRun, run⟩ := bind_eq_ok_iff.1 run
  obtain ⟨parameters, behindParameters, parametersRun, run⟩ := bind_eq_ok_iff.1 run
  obtain ⟨header, headerRun, rfl⟩ := map_eq_ok_iff.1 run
  have nameRead := (ofReader_eq_ok_iff.1 nameRun).1
  have parametersRead := (ofReader_eq_ok_iff.1 parametersRun).1
  apply Tree.Function.regular_of
  · have unnamed := (always_functionName kind).answer nameRead
    by_cases empty : name = ""
    · cases kind <;> simp [empty]
    · have isFunction : kind = .function := not_imp_comm.1 unnamed empty
      simp [empty, isFunction]
  · have inside : behindParameters.rest <:+ before.rest :=
      ((Reader.built_shaped _ (by simp)).suffix parametersRead).trans
        ((built_functionName kind).suffix nameRead)
    have free := header_free (undotted.of_suffix inside) headerRun
    intro used member
    obtain ⟨modifier, among, rfl⟩ := List.mem_map.1 member
    exact free modifier among

end Parser

end Interlock
