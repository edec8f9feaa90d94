import Interlock.Proofs.Moving
import Interlock.Proofs.Walk

/-!
# Declarations of moved tokens

Declarations that begin with a keyword, and state variables, are read alike from
moved tokens.  Their texts are joined from the texts of tokens, which do not move.
-/

namespace Interlock

namespace Reader

variable {move : Position → Position}

/-! ### Parts of declarations -/

theorem moved_group_text (result : Group) : (result.moved move).text = result.text := by
  simp only [Group.text, Group.moved, List.map_map]
  rfl

theorem spaced_moved (tokens : List Token) :
    spaced (tokens.map (·.moved move)) = spaced tokens := by
  simp only [spaced, List.map_map]
  rfl

theorem moves_dottedStep (what : String) (names : List String) :
    Moves move (onStep id) (dottedStep what names) (dottedStep what names) := by
  apply (moves_at? _).bind
  intro found
  cases found with
  | false => exact .pure rfl
  | true =>
      apply moves_advance.bind
      intro taken
      exact (moves_expectName what).bind fun name => .pure rfl

theorem moves_dotted (what : String) (names : List String) :
    Moves move id (dotted what names) (dotted what names) := by
  rw [dotted_eq]
  exact (Moves.loop (moves_dottedStep what) names).bind fun all => .pure rfl

theorem moves_parenthesized? :
    Moves move (Option.map (Group.moved move)) parenthesized? parenthesized? := by
  apply (moves_at? _).bind
  intro found
  cases found with
  | false => exact .pure rfl
  | true => exact moves_group.bind fun result => .pure rfl

theorem moves_shaped (shape : Bracket) (problem : Problem) :
    Moves move (Group.moved move) (shaped shape problem) (shaped shape (problem.moved move)) := by
  apply (moves_at? _).bind
  intro found
  cases found with
  | false => exact moves_fail problem
  | true => exact moves_group

theorem map_text_moved (groups : Option Group) :
    (groups.map (Group.moved move)).map (·.text) = groups.map (·.text) := by
  cases groups with
  | none => rfl
  | some result => exact congrArg some (moved_group_text result)

/-! ### Declarations -/

section Declarations

variable (start : Token)

theorem moves_pragma :
    Moves move (Tree.Pragma.moved move) (pragma start) (pragma (start.moved move)) := by
  apply (moves_expectName _).bind
  intro name
  apply moves_statement.bind
  intro tokens
  apply Carries.pure
  simp only [List.map_map]
  rfl

theorem moves_importPath :
    Moves move (Tree.Import.moved move) (importPath start) (importPath (start.moved move)) := by
  apply moves_statement.bind
  intro tokens
  have found : (tokens.map (Token.moved move)).find? (·.kind = .string) =
      (tokens.find? (·.kind = .string)).map (·.moved move) := List.find?_map ..
  rw [found]
  cases tokens.find? (·.kind = .string) with
  | none => exact moves_failAt .expectedImportPath (some start)
  | some path => exact .pure rfl

theorem moves_declaration :
    Moves move (Tree.Declaration.moved move) (declaration start)
      (declaration (start.moved move)) := by
  apply (moves_expectName _).bind
  intro name
  apply moves_statement.bind
  intro tokens
  apply Carries.pure
  rw [spaced_moved]
  rfl

theorem moves_event :
    Moves move (Tree.Event.moved move) (event start) (event (start.moved move)) := by
  apply (moves_expectName _).bind
  intro name
  apply (moves_shaped _ _).bind
  intro parameters
  apply (moves_atWord? _).bind
  intro isAnonymous
  have ending (isAnonymous : Bool) :
      Moves move (Tree.Event.moved move)
        (expectElse .semicolon (.expectedSemicolonAfterEvent name.text) >>= fun _ =>
          pure ⟨name.text, parameters.text, isAnonymous, start.position⟩)
        (expectElse .semicolon (.expectedSemicolonAfterEvent name.text) >>= fun _ =>
          pure ⟨name.text, (parameters.moved move).text, isAnonymous, move start.position⟩) := by
    apply (moves_expectElse _ (.expectedSemicolonAfterEvent name.text)).bind
    intro semicolon
    apply Carries.pure
    rw [moved_group_text]
    rfl
  cases isAnonymous with
  | false => exact ending false
  | true => exact moves_advance.bind fun _ => ending true

theorem moves_struct :
    Moves move (Tree.Struct.moved move) (struct start) (struct (start.moved move)) := by
  apply (moves_expectName _).bind
  intro name
  apply (moves_shaped _ _).bind
  intro members
  apply Carries.pure
  rw [moved_group_text]
  rfl

theorem moves_enum :
    Moves move (Tree.Enum.moved move) (enum start) (enum (start.moved move)) := by
  apply (moves_expectName _).bind
  intro name
  apply (moves_shaped _ _).bind
  intro values
  apply Carries.pure
  rw [moved_group_text]
  rfl

theorem moves_usingFor :
    Moves move (Tree.UsingFor.moved move) (usingFor start) (usingFor (start.moved move)) := by
  apply moves_statement.bind
  intro tokens
  have front : (tokens.map (Token.moved move)).takeWhile (·.text ≠ "for") =
      (tokens.takeWhile (·.text ≠ "for")).map (·.moved move) := List.takeWhile_map ..
  have behind : (tokens.map (Token.moved move)).dropWhile (·.text ≠ "for") =
      (tokens.dropWhile (·.text ≠ "for")).map (·.moved move) := List.dropWhile_map ..
  rw [front, behind]
  cases tokens.dropWhile (·.text ≠ "for") with
  | nil => exact moves_failAt .expectedUsingFor (some start)
  | cons word typeName =>
      apply Carries.pure
      simp only [spaced_moved]
      rfl

theorem moves_invocation :
    Moves move (Tree.Invocation.moved move) (invocation start)
      (invocation (start.moved move)) := by
  apply (moves_dotted _ _).bind
  intro name
  apply moves_parenthesized?.bind
  intro arguments
  apply Carries.pure
  rw [map_text_moved]
  rfl

theorem moves_modifierStep (limit : Nat) (name : String) (isVirtual : Bool) :
    Moves move (onStep id) (modifierStep limit name isVirtual)
      (modifierStep limit name isVirtual) := by
  apply moves_current.bind
  intro found
  cases found with
  | none => exact moves_failAt (.unclosedModifier name) none
  | some token =>
      simp only [Option.map_some, Token.moved_kind, Token.moved_isWord, Token.moved_text]
      split
      · exact moves_failAt (.unclosedModifier name) (some token)
      · exact (moves_block limit).bind fun _ => .pure rfl
      · exact moves_advance.bind fun _ => .pure rfl
      · apply Carries.ite .rfl
        · exact moves_advance.bind fun _ => .pure rfl
        · apply Carries.ite .rfl
          · apply moves_advance.bind
            intro taken
            exact moves_parenthesized?.bind fun _ => .pure rfl
          · exact moves_failAt (.unexpectedInModifier token.text name) (some token)

theorem moves_modifier (limit : Nat) :
    Moves move (Tree.Modifier.moved move) (modifier limit start)
      (modifier limit (start.moved move)) := by
  apply (moves_expectName _).bind
  intro name
  apply moves_parenthesized?.bind
  intro parameters
  apply (Moves.loop (moves_modifierStep limit name.text) false).bind
  intro isVirtual
  apply Carries.pure
  rw [map_text_moved]
  rfl

theorem moves_bases : Moves move id bases bases := by
  apply Moves.loop
  intro names
  apply (moves_expectName _).bind
  intro first
  apply (moves_dotted _ _).bind
  intro name
  apply moves_parenthesized?.bind
  intro arguments
  apply (moves_at? _).bind
  intro found
  cases found with
  | false => exact .pure rfl
  | true => exact moves_advance.bind fun _ => .pure rfl

end Declarations

end Reader

/-! ## State variables -/

namespace Tree.Variable

variable {α : Type} {move : Position → Position}

theorem pastGroup_moved (depth : Nat) (tokens : List Token) :
    pastGroup depth (tokens.map (·.moved move)) = (pastGroup depth tokens).map (·.moved move) := by
  induction tokens generalizing depth with
  | nil => rfl
  | cons token rest ih =>
      simp only [pastGroup, List.map_cons, Token.moved_kind]
      cases token.kind with
      | opening shape => exact ih (depth + 1)
      | closing shape =>
          cases depth with
          | zero => rfl
          | succ depth => exact ih depth
      | _ => exact ih depth

theorem pastQualifiers_moved (tokens : List Token) :
    pastQualifiers (tokens.map (·.moved move)) =
      match pastQualifiers tokens with
      | .ok left => .ok (left.map (·.moved move))
      | .error place => .error (place.map (·.moved move)) := by
  fun_induction pastQualifiers tokens with
  | case1 => rfl
  | case2 token isDot => simp [pastQualifiers, isDot]
  | case3 token notDot => simp [pastQualifiers, notDot]
  | case4 token name rest notDot => simp [pastQualifiers, notDot]
  | case5 token name rest isDot isName ih =>
      rw [← ih]
      simp only [Decidable.not_not] at isDot
      simp [pastQualifiers, isDot, isName]
  | case6 token name rest isDot notName =>
      simp only [Decidable.not_not] at isDot
      simp [pastQualifiers, isDot, notName]

theorem pastIndexes_moved (tokens : List Token) :
    pastIndexes (tokens.map (·.moved move)) = (pastIndexes tokens).map (·.moved move) := by
  fun_induction pastIndexes tokens with
  | case1 => simp [pastIndexes]
  | case2 token rest opens ih =>
      rw [← ih, List.map_cons, pastIndexes, if_pos (show (token.moved move).kind = _ from opens),
        pastGroup_moved]
  | case3 token rest other =>
      rw [List.map_cons, pastIndexes, if_neg (show ¬ (token.moved move).kind = _ from other)]

theorem takeSpecifiers_moved (seen : List String) (tokens : List Token) :
    takeSpecifiers seen (tokens.map (·.moved move)) =
      ((takeSpecifiers seen tokens).1, (takeSpecifiers seen tokens).2.map (·.moved move)) := by
  fun_induction takeSpecifiers seen tokens with
  | case1 => simp [takeSpecifiers]
  | case2 seen token specifies next inner grouped ih =>
      have step : takeSpecifiers seen ((token :: next :: inner).map (·.moved move)) =
          takeSpecifiers (token.text :: seen) (pastGroup 0 (inner.map (·.moved move))) := by
        rw [List.map_cons, List.map_cons, takeSpecifiers]
        exact (if_pos specifies).trans (if_pos grouped)
      rw [step, pastGroup_moved, ih]
  | case3 seen token specifies next inner plain ih =>
      have step : takeSpecifiers seen ((token :: next :: inner).map (·.moved move)) =
          takeSpecifiers (token.text :: seen) ((next :: inner).map (·.moved move)) := by
        rw [List.map_cons, List.map_cons, takeSpecifiers]
        exact (if_pos specifies).trans (if_neg plain)
      rw [step, ih]
  | case4 seen token specifies =>
      rw [List.map_cons, List.map_nil, takeSpecifiers]
      exact if_pos specifies
  | case5 seen token rest other =>
      rw [List.map_cons, takeSpecifiers.eq_def]
      exact if_neg other

theorem typeText_moved (tokens : List Token) :
    typeText (tokens.map (·.moved move)) = typeText tokens := by
  fun_induction typeText tokens with
  | case1 => rfl
  | case2 token => rfl
  | case3 token next rest blank ih =>
      rw [← ih]
      rfl

theorem faultAt_moved (start : Token) (tokens place : List Token) (problem : Problem) :
    faultAt (start.moved move) (tokens.map (·.moved move)) (place.map (·.moved move))
      (problem.moved move) = (faultAt start tokens place problem).moved move := by
  simp only [faultAt, Fault.moved, List.head?_map, List.getLast?_map]
  cases place.head? with
  | some token => rfl
  | none => cases tokens.getLast? <;> rfl

/-- A declaration of moved tokens, or the fault at a moved token. -/
def settled (move : Position → Position) : Except Fault Variable → Except Fault Variable
  | .ok node => .ok (node.moved move)
  | .error fault => .error (fault.moved move)

theorem settled_ite {condition other : Prop} [Decidable condition] [Decidable other]
    {first second third fourth : Except Fault Variable} (same : other ↔ condition)
    (yes : second = settled move first) (no : fourth = settled move third) :
    (if other then second else fourth) = settled move (if condition then first else third) := by
  by_cases holds : condition
  · rw [if_pos holds, if_pos (same.2 holds), yes]
  · rw [if_neg holds, if_neg (fun holding => holds (same.1 holding)), no]

theorem settled_faultAt (move : Position → Position) (start : Token)
    (tokens place : List Token) (problem : Problem) :
    .error (faultAt (start.moved move) (tokens.map (·.moved move)) (place.map (·.moved move))
      (problem.moved move)) = settled move (.error (faultAt start tokens place problem)) := by
  rw [faultAt_moved]
  rfl

theorem behindName_moved (move : Position → Position) (start : Token)
    (tokens afterName : List Token) :
    behindName (start.moved move) (tokens.map (·.moved move)) (afterName.map (·.moved move)) =
      settled move (behindName start tokens afterName) := by
  unfold behindName
  simp only [bind, Except.bind, pastIndexes_moved, takeSpecifiers_moved, List.length_map]
  generalize takeSpecifiers [] (pastIndexes afterName) = found
  obtain ⟨words, afterSpecifiers⟩ := found
  dsimp only
  rw [← List.map_take, typeText_moved]
  cases afterSpecifiers with
  | nil => exact settled_faultAt move start tokens [] (.expectedVariableName start.text)
  | cons name rest =>
      apply settled_ite .rfl
      · exact settled_faultAt move start tokens (name :: rest) (.expectedVariableName start.text)
      cases rest with
      | nil => rfl
      | cons following initializer =>
          have faulty := settled_faultAt move start tokens (following :: initializer)
          apply settled_ite .rfl
          · exact faulty (.unexpectedAfterVariable following.text name.text)
          rw [List.getLast?_map]
          cases initializer.getLast? with
          | none => exact faulty (.expectedInitializer name.text)
          | some last =>
              apply settled_ite .rfl
              · exact settled_faultAt move start tokens [last] (.expectedExpressionAfter last.text)
              · rfl

theorem ofTokens_moved (start : Token) (tokens : List Token) :
    ofTokens (start.moved move) (tokens.map (·.moved move)) =
      settled move (ofTokens start tokens) := by
  have faulty := settled_faultAt move start tokens
  have behind := behindName_moved move start tokens
  unfold ofTokens
  simp only [bind, Except.bind]
  cases tokens with
  | nil => exact faulty [] (.unexpected start.text)
  | cons first rest =>
      apply settled_ite .rfl
      · exact faulty (first :: rest) (.unexpected start.text)
      apply settled_ite .rfl
      · cases rest with
        | nil => exact faulty [] .expectedMappingTypes
        | cons next inner =>
            apply settled_ite .rfl
            · rw [pastGroup_moved]
              exact behind (pastGroup 0 inner)
            · exact faulty (next :: inner) .expectedMappingTypes
      · rw [pastQualifiers_moved]
        cases pastQualifiers rest with
        | error place => exact faulty place .expectedTypeName
        | ok left =>
            apply settled_ite (by cases left <;> exact .rfl)
            · rw [← List.map_tail]
              exact behind left.tail
            · exact behind left

end Tree.Variable

end Interlock
