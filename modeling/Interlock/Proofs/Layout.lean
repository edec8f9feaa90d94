import Interlock.Compliance
import Interlock.Proofs.Moving.SourceUnit
import Interlock.Proofs.Respelling

/-!
# Layout does not matter

How tokens are read depends on their kinds and texts alone.  Two token lists that
differ in comments and positions give the same tree up to positions, and findings of
the same severities and codes.  Two texts with the same lexemes, however they are
laid out and commented, are therefore judged alike.
-/

namespace Interlock

/-! ## Forgetting positions -/

/-- Forgets a position. -/
def Position.forget (_ : Position) : Position := .none

namespace Token

variable {first second : List Token}

/-- Without its position a token is its kind and its text. -/
theorem map_forget_of_content (same : first.map content = second.map content) :
    first.map (·.moved .forget) = second.map (·.moved .forget) := by
  have forgotten (tokens : List Token) : tokens.map (·.moved .forget) =
      (tokens.map content).map fun content => ⟨content.1, content.2, .none⟩ := by
    rw [List.map_map]
    rfl
  rw [forgotten, forgotten, same]

theorem withoutComments_idem (tokens : List Token) :
    withoutComments (withoutComments tokens) = withoutComments tokens := by
  rw [withoutComments, withoutComments, List.filter_filter]
  simp only [Bool.and_self]

end Token

section Tokens

open Token

variable [StackRoom] {first second : List Token}

theorem Reading.ofSource_of_tokenize {source : String} {tokens : List Token}
    (lexed : tokenize source = .ok tokens) (filename : String) :
    Reading.ofSource filename source = (Reading.ofTokens filename tokens).1 := by
  rw [Reading.ofSource, lexed]

theorem Reading.ofTokens_withoutComments (filename : String) (tokens : List Token) :
    Reading.ofTokens filename (withoutComments tokens) = Reading.ofTokens filename tokens := by
  rw [Reading.ofTokens, Reading.ofTokens, Parser.State.ofTokens, Parser.State.ofTokens,
    withoutComments_idem]

theorem Tree.SourceUnit.ofTokens_withoutComments (filename : String) (tokens : List Token) :
    Tree.SourceUnit.ofTokens filename (withoutComments tokens) =
      Tree.SourceUnit.ofTokens filename tokens := by
  rw [Tree.SourceUnit.ofTokens, Tree.SourceUnit.ofTokens, Parser.State.ofTokens,
    Parser.State.ofTokens, withoutComments_idem]

/-- Two token lists of the same content are read alike, up to positions. -/
theorem Reading.forget_eq_of_content (filename : String)
    (same : (withoutComments first).map content = (withoutComments second).map content) :
    (Reading.ofTokens filename first).1.moved .forget =
      (Reading.ofTokens filename second).1.moved .forget := by
  have forgotten (tokens : List Token) : (Reading.ofTokens filename tokens).1.moved .forget =
      (Reading.ofTokens filename ((withoutComments tokens).map (·.moved .forget))).1 := by
    rw [Reading.ofTokens_moved, Reading.ofTokens_withoutComments]
  rw [forgotten, forgotten, map_forget_of_content same]

theorem Tree.SourceUnit.succeeds_iff_moved (move : Position → Position) (filename : String)
    (tokens : List Token) :
    (∃ unit, Tree.SourceUnit.ofTokens filename (tokens.map (·.moved move)) = .ok unit) ↔
      ∃ unit, Tree.SourceUnit.ofTokens filename tokens = .ok unit := by
  rw [Tree.SourceUnit.ofTokens_moved]
  cases Tree.SourceUnit.ofTokens filename tokens <;> simp

theorem Tree.SourceUnit.succeeds_iff_of_content (filename : String)
    (same : (withoutComments first).map content = (withoutComments second).map content) :
    (∃ unit, Tree.SourceUnit.ofTokens filename first = .ok unit) ↔
      ∃ unit, Tree.SourceUnit.ofTokens filename second = .ok unit := by
  rw [← ofTokens_withoutComments filename first, ← ofTokens_withoutComments filename second,
    ← succeeds_iff_moved .forget filename (withoutComments first),
    ← succeeds_iff_moved .forget filename (withoutComments second), map_forget_of_content same]

omit [StackRoom] in
/-- The severity and the code of a diagnostic do not depend on positions. -/
theorem Reading.labels_moved (move : Position → Position) (reading : Reading) :
    (reading.moved move).diagnostics.map (fun found => (found.severity, found.code)) =
      reading.diagnostics.map fun found => (found.severity, found.code) := by
  simp only [Reading.diagnostics, Reading.moved, List.map_map]
  apply List.map_congr_left
  intro finding _
  simp only [Function.comp, Finding.toDiagnostic, Finding.moved_severity, Finding.moved_code]

end Tokens

/-! ## Judging moved trees -/

section Judging

variable (move : Position → Position)

/-- A violation at another position. -/
def Violation.moved (violation : Violation) : Violation :=
  { violation with position := move violation.position }

theorem Tree.Function.moved_exposure (function : Tree.Function) :
    (function.moved move).exposure = function.exposure := by
  have names : (function.moved move).modifierNames = function.modifierNames := List.map_map
  simp only [Tree.Function.exposure, names]
  rfl

theorem Tree.Contract.moved_functions (contract : Tree.Contract) :
    (contract.moved move).functions = contract.functions.map (·.moved move) := by
  simp only [Tree.Contract.functions, Tree.Contract.moved, List.filterMap_map,
    List.map_filterMap]
  apply List.filterMap_congr
  intro member _
  cases member <;> rfl

theorem Policy.moved_violations (policy : Policy) (path : String) (contract : Tree.Contract) :
    policy.violations path (contract.moved move) =
      (policy.violations path contract).map (·.moved move) := by
  have named : (contract.moved move).named = contract.named.map (·.moved move) := by
    rw [Tree.Contract.named, Tree.Contract.moved_functions, List.filter_map]
    rfl
  have accepted (function : Tree.Function) :
      policy.accepts (function.moved move) = policy.accepts function := by
    rw [Policy.accepts, Policy.accepts, Tree.Function.moved_exposure]
  have unguarded : (!policy.accepts ·) ∘ (·.moved move) = (!policy.accepts ·) := by
    funext function
    exact congrArg not (accepted function)
  rw [Policy.violations, Policy.violations, named, List.filter_map, unguarded, List.map_map,
    List.map_map]
  apply List.map_congr_left
  intro function _
  simp only [Function.comp, Tree.Function.moved_exposure]
  rfl

theorem Tree.SourceUnit.moved_primary? (unit : Tree.SourceUnit) :
    (unit.moved move).primary? = unit.primary?.map (·.moved move) := by
  have contracts : (unit.moved move).contracts = unit.contracts.map (·.moved move) := by
    simp only [Tree.SourceUnit.contracts, Tree.SourceUnit.moved, List.filterMap_map,
      List.map_filterMap]
    apply List.filterMap_congr
    intro element _
    cases element <;> rfl
  rw [Tree.SourceUnit.primary?, contracts, List.find?_map]
  rfl

theorem Reading.moved_gaveUp (reading : Reading) :
    (reading.moved move).gaveUp = reading.gaveUp := by
  have stops : Finding.isTooDeep ∘ (·.moved move) = Finding.isTooDeep := by
    funext finding
    exact finding.moved_isTooDeep move
  rw [Reading.gaveUp, Reading.gaveUp, Reading.moved, List.any_map, stops]

theorem Reading.moved_success (reading : Reading) :
    (reading.moved move).success = reading.success := by
  have errors : Finding.isError ∘ (·.moved move) = Finding.isError := by
    funext finding
    exact finding.moved_isError move
  rw [Reading.success, Reading.success, Reading.moved, List.any_map, errors]

/-- The violations that a reading leads to. -/
def Policy.verdict (policy : Policy) (path : String) (reading : Reading) : List Violation :=
  match reading.tree path with
  | .error _ => []
  | .ok unit => (unit.primary?.map (policy.violations path)).getD []

theorem Policy.checkSource_violations [StackRoom] (policy : Policy) (path text : String) :
    (policy.checkSource path text).violations =
      policy.verdict path (Reading.ofSource path text) := by
  rw [Policy.checkSource, Policy.verdict]
  cases (Reading.ofSource path text).tree path with
  | error failure => rfl
  | ok unit =>
      dsimp only
      cases unit.primary? <;> rfl

theorem Policy.moved_verdict (policy : Policy) (path : String) (reading : Reading) :
    policy.verdict path (reading.moved move) =
      (policy.verdict path reading).map (·.moved move) := by
  have succeeds := reading.moved_success move
  have stops := reading.moved_gaveUp move
  rw [Policy.verdict, Policy.verdict, Reading.tree, Reading.tree, stops, succeeds]
  cases reading.gaveUp with
  | true => rfl
  | false =>
      simp only [Bool.false_eq_true, if_false, Reading.moved]
      cases reading.unit with
      | none => rfl
      | some unit =>
          cases reading.success with
          | false => rfl
          | true =>
              simp only [Option.map_some, Tree.SourceUnit.moved_primary?]
              cases unit.primary? with
              | none => rfl
              | some contract => exact policy.moved_violations move path contract

end Judging

/-! ## Texts with the same lexemes -/

namespace Lexeme

/-- The lexemes of a text as they are written, in order and without comments; there are none
where the text cannot be split into tokens. -/
def allOf (text : List Char) : Option (List (List Char)) :=
  match text with
  | [] => some []
  | c :: rest =>
      if isGap c then allOf rest
      else match read c rest with
      | .error _ => none
      | .ok lexeme =>
          (allOf (rest.drop lexeme.more)).map fun others =>
            if lexeme.kind = .comment then others else (c :: rest.take lexeme.more) :: others
termination_by text.length
decreasing_by
  all_goals simp only [List.length_cons, List.length_drop]; omega

/-- The kind and text of the token that a lexeme stands for. -/
def meaning : List Char → Token.Kind × String
  | [] => (.endOfFile, "")
  | c :: more =>
      match read c more with
      | .ok lexeme => (lexeme.kind, String.ofList lexeme.text)
      | .error _ => (.endOfFile, "")

theorem meaning_of_read {c : Char} {rest : List Char} {lexeme : Lexeme}
    (found : read c rest = .ok lexeme) :
    meaning (c :: rest.take lexeme.more) = (lexeme.kind, String.ofList lexeme.text) := by
  simp only [meaning, read_take found]

end Lexeme

namespace Token

/-- The tokens of a text are what its lexemes stand for. -/
theorem scanFrom_allOf {text : List Char} {words : List (List Char)}
    (split : Lexeme.allOf text = some words) (position : Position) (seen : List Token) :
    (scanFrom position seen text).error = none ∧
      (withoutComments (scanFrom position seen text).tokens).map content =
        (withoutComments seen.reverse).map content ++
          (words.map Lexeme.meaning ++ [(.endOfFile, "")]) := by
  fun_induction Lexeme.allOf text generalizing words position seen with
  | case1 =>
      cases split
      rw [scanFrom]
      simp [withoutComments, content]
  | case2 c rest gap ih =>
      rw [scanFrom_gap gap]
      exact ih split (position.after c) seen
  | case3 c rest notGap _ read => cases split
  | case4 c rest notGap lexeme read ih =>
      obtain ⟨others, found, rfl⟩ := Option.map_eq_some_iff.1 split
      obtain ⟨accepted, contents⟩ := ih found (position.past (c :: rest.take lexeme.more))
        (⟨lexeme.kind, String.ofList lexeme.text, position⟩ :: seen)
      rw [scanFrom_read read]
      constructor
      · exact accepted
      · rw [contents]
        by_cases comment : lexeme.kind = .comment
        · simp [withoutComments, comment]
        · simp [withoutComments, comment, content, Lexeme.meaning_of_read read]

theorem tokenize_of_allOf {source : String} {words : List (List Char)}
    (split : Lexeme.allOf source.toList = some words) :
    ∃ tokens, tokenize source = .ok tokens ∧
      tokens.map content = words.map Lexeme.meaning ++ [(.endOfFile, "")] := by
  obtain ⟨accepted, contents⟩ := scanFrom_allOf split .start []
  exact ⟨_, tokenize_eq_ok_iff.2 ⟨accepted, rfl⟩, contents⟩

end Token

/-- Two texts with the same lexemes are read alike, up to positions. -/
theorem Reading.forget_eq_of_allOf [StackRoom] (filename : String) {source other : String}
    {words : List (List Char)} (split : Lexeme.allOf source.toList = some words)
    (otherSplit : Lexeme.allOf other.toList = some words) :
    (Reading.ofSource filename source).moved .forget =
      (Reading.ofSource filename other).moved .forget := by
  obtain ⟨tokens, lexed, contents⟩ := Token.tokenize_of_allOf split
  obtain ⟨otherTokens, otherLexed, otherContents⟩ := Token.tokenize_of_allOf otherSplit
  rw [Reading.ofSource_of_tokenize lexed, Reading.ofSource_of_tokenize otherLexed]
  apply Reading.forget_eq_of_content
  rw [Token.withoutComments_of_tokenize lexed, Token.withoutComments_of_tokenize otherLexed,
    contents, otherContents]

open Token

/-- Neither comments nor white space nor positions decide how a source is read and judged.  Token
lists of the same content are both read strictly or both refused; read tolerantly, they give the
same tree up to positions and diagnostics of the same severities and codes.  Texts with the same
lexemes have the same violations up to positions. -/
theorem layout_does_not_matter [StackRoom] :
    (∀ (filename : String) (first second : List Token),
      (withoutComments first).map content = (withoutComments second).map content →
      ((∃ unit, Tree.SourceUnit.ofTokens filename first = .ok unit) ↔
        ∃ unit, Tree.SourceUnit.ofTokens filename second = .ok unit) ∧
      (Reading.ofTokens filename first).1.unit.map (·.moved .forget) =
        (Reading.ofTokens filename second).1.unit.map (·.moved .forget) ∧
      (Reading.ofTokens filename first).1.diagnostics.map
          (fun found => (found.severity, found.code)) =
        (Reading.ofTokens filename second).1.diagnostics.map
          fun found => (found.severity, found.code)) ∧
    ∀ (policy : Policy) (path source other : String) (words : List (List Char)),
      Lexeme.allOf source.toList = some words → Lexeme.allOf other.toList = some words →
      (Reading.ofSource path source).success = (Reading.ofSource path other).success ∧
      (policy.checkSource path source).violations.map (·.moved .forget) =
        (policy.checkSource path other).violations.map (·.moved .forget) := by
  constructor
  · intro filename first second same
    have alike := Reading.forget_eq_of_content filename same
    refine ⟨Tree.SourceUnit.succeeds_iff_of_content filename same, congrArg Reading.unit alike, ?_⟩
    rw [← Reading.labels_moved .forget, alike, Reading.labels_moved]
  · intro policy path source other words split otherSplit
    have alike := Reading.forget_eq_of_allOf path split otherSplit
    constructor
    · rw [← Reading.moved_success .forget, alike, Reading.moved_success]
    · rw [policy.checkSource_violations, policy.checkSource_violations, ← policy.moved_verdict,
        alike, policy.moved_verdict]

/-- A source on one line. -/
def tightSource : String := "contract C\x7bfunction f()public\x7b\x7d\x7d"

/-- The same lexemes over several lines, with comments. -/
def looseSource : String :=
  "// A contract.\ncontract C\n\x7b /* f */ function f ( )\n  public \x7b \x7d\n\x7d\n"

/-- The lexemes of both. -/
def sharedLexemes : List (List Char) :=
  ["contract", "C", "\x7b", "function", "f", "(", ")", "public", "\x7b", "\x7d", "\x7d"].map
    String.toList

open StackRoom in
/-- The one violation stands at different places in them and is the same otherwise. -/
theorem looseSource_judged_alike :
    Lexeme.allOf tightSource.toList = some sharedLexemes ∧
      Lexeme.allOf looseSource.toList = some sharedLexemes ∧
      (Reading.ofTokens "C.sol" (scan tightSource).tokens).1.unit.map (·.moved .forget) =
        (Reading.ofTokens "C.sol" (scan looseSource).tokens).1.unit.map (·.moved .forget) ∧
      (Policy.standard.checkSource "C.sol" tightSource).violations.map (·.position) = [⟨1, 12⟩] ∧
      (Policy.standard.checkSource "C.sol" looseSource).violations.map (·.position) = [⟨3, 11⟩] ∧
      (Policy.standard.checkSource "C.sol" tightSource).violations.map (·.moved .forget) =
        (Policy.standard.checkSource "C.sol" looseSource).violations.map (·.moved .forget) := by
  have tight : Lexeme.allOf tightSource.toList = some sharedLexemes := by decide +kernel
  have loose : Lexeme.allOf looseSource.toList = some sharedLexemes := by decide +kernel
  have contents : (withoutComments (scan tightSource).tokens).map content =
      (withoutComments (scan looseSource).tokens).map content := by decide +kernel
  refine ⟨tight, loose, ?_, by decide +kernel, by decide +kernel, ?_⟩
  · exact (layout_does_not_matter.1 "C.sol" _ _ contents).2.1
  · exact (layout_does_not_matter.2 Policy.standard "C.sol" _ _ _ tight loose).2

end Interlock
