import Interlock.Failure
import Interlock.Proofs.Recovery
import Interlock.Proofs.Spelling

/-!
# Diagnostics in source order

The findings of a tolerant reading are made on a walk through the tokens.  The end
mark of a text is never taken, so on its tokens there is always one to find something
at, and the diagnostics come in the order in which their tokens stand.  The error that
a failure names is the first one in the file.
-/

namespace Interlock

/-! ## Positions -/

/-- A position is not behind another one. -/
def Position.AtMost (first second : Position) : Prop :=
  first.line < second.line ∨ first.line = second.line ∧ first.column ≤ second.column

theorem Position.AtMost.refl (position : Position) : position.AtMost position :=
  .inr ⟨rfl, Int.le_refl _⟩

theorem Position.Before.atMost {first second : Position} (before : first.Before second) :
    first.AtMost second := by
  rcases before with line | ⟨same, column⟩
  · exact .inl line
  · exact .inr ⟨same, Int.le_of_lt column⟩

theorem Token.placed_of_tokenize {source : String} {tokens : List Token}
    (lexed : Token.tokenize source = .ok tokens) : Token.Placed tokens := by
  have placed : Token.Placed (Token.scan source).tokens := Token.placed_scanFrom .nil nofun
  rw [← (Token.tokenize_eq_ok_iff.1 lexed).2]
  exact placed.filter _

/-! ## Findings on a walk -/

theorem Finding.first_of_token {finding : Finding} {token : Token}
    (place : finding.token = some token) : finding.toDiagnostic.first = token.position := by
  cases finding with
  | lexical error => cases place
  | _ =>
      simp only [Finding.toDiagnostic, Finding.range]
      rw [place]

/-- Whether a walk through some tokens must stop in front of one of them. -/
def Barred (tokens : List Token) : Prop := ∃ token ∈ tokens, ¬ token.Passable

theorem Barred.of_passable {token : Token} {tokens : List Token} (passable : token.Passable)
    (barred : Barred (token :: tokens)) : Barred tokens := by
  obtain ⟨bar, inside, barring⟩ := barred
  rcases List.mem_cons.1 inside with rfl | inside
  · exact absurd passable barring
  · exact ⟨bar, inside, barring⟩

/-- The end mark of a text bars the way. -/
theorem barred_of_tokenize {source : String} {tokens : List Token}
    (lexed : Token.tokenize source = .ok tokens) : Barred tokens := by
  obtain ⟨body, mark, rfl, isEnd, empty, -⟩ := Token.exists_endMark lexed
  refine ⟨mark, by simp, fun passable => ?_⟩
  rw [passable isEnd] at empty
  exact absurd empty (by decide)

namespace Walk

variable {tokens left : List Token} {findings : List Finding}

/-- What bars the way is never passed. -/
theorem barred (walk : Walk tokens left findings) (barred : Barred tokens) : Barred left := by
  induction walk with
  | stop => exact barred
  | take passable _ ih => exact ih (barred.of_passable passable)
  | mark _ _ _ ih => exact ih barred

/-- Where a token bars the way, every finding is at a token. -/
theorem located (walk : Walk tokens left findings) (barred : Barred tokens) :
    ∀ finding ∈ findings, ∃ token ∈ tokens, finding.toDiagnostic.first = token.position := by
  induction walk with
  | stop =>
      intro finding member
      cases member
  | take passable _ ih =>
      intro finding member
      obtain ⟨token, among, place⟩ := ih (barred.of_passable passable) finding member
      exact ⟨token, List.mem_cons_of_mem _ among, place⟩
  | @mark finding tokens left findings place _ _ ih =>
      intro other member
      rcases List.mem_cons.1 member with rfl | member
      · obtain ⟨bar, inside, -⟩ := barred
        cases tokens with
        | nil => cases inside
        | cons token rest =>
            exact ⟨token, List.mem_cons_self .., Finding.first_of_token place⟩
      · exact ih barred other member

/-- Findings come in the order of the tokens. -/
theorem ordered (walk : Walk tokens left findings) (barred : Barred tokens)
    (placed : Token.Placed tokens) :
    (findings.map (·.toDiagnostic)).Pairwise fun first second =>
      first.first.AtMost second.first := by
  induction walk with
  | stop => exact .nil
  | take passable _ ih =>
      exact ih (barred.of_passable passable) (List.pairwise_cons.1 placed).2
  | @mark finding tokens left findings place _ walk ih =>
      rw [List.map_cons, List.pairwise_cons]
      constructor
      · -- All that is found later is at the front or behind it.
        intro diagnostic member
        obtain ⟨other, later, rfl⟩ := List.mem_map.1 member
        obtain ⟨token, inside, found⟩ := walk.located barred other later
        cases tokens with
        | nil => cases inside
        | cons front rest =>
            rw [Finding.first_of_token place, found]
            rcases List.mem_cons.1 inside with rfl | inside
            · exact .refl _
            · exact ((List.pairwise_cons.1 placed).1 token inside).atMost
      · exact ih barred placed

end Walk

/-! ## Readings -/

/-- The diagnostics of a reading are those of a walk; if they say that it was stopped, then
last and behind an error. -/
theorem diagnostics_split [StackRoom] (filename : String) (tokens : List Token) :
    ∃ findings stop,
      Walk (Token.withoutComments tokens) (Reading.ofTokens filename tokens).2 findings ∧
      (Reading.ofTokens filename tokens).1.diagnostics =
        findings.map (·.toDiagnostic) ++ stop ∧
      (∀ diagnostic ∈ stop, diagnostic.code = "TOO_MANY_ERRORS") ∧
      (stop ≠ [] → Diagnostic.errors (findings.map (·.toDiagnostic)) ≠ []) := by
  have ends := Parser.reading_finished filename tokens
  generalize Reading.ofTokens filename tokens = read at ends ⊢
  cases ends with
  | @complete unit findings left _ walk _ _ =>
      refine ⟨findings, [], walk, ?_, nofun, absurd rfl⟩
      rw [List.append_nil]
      rfl
  | @stopped unit findings left _ walk full =>
      refine ⟨findings, [(Finding.tooManyErrors Parser.errorLimit).toDiagnostic], walk,
        List.map_append, ?_, ?_⟩
      · intro diagnostic member
        rw [List.mem_singleton.1 member]
        rfl
      · intro _ none
        have counted := errors_length findings
        rw [none, full] at counted
        cases counted
  | @givenUp fault findings left _ _ walk =>
      refine ⟨findings ++ [.fault fault], [], walk, ?_, nofun, absurd rfl⟩
      rw [List.append_nil]
      rfl

/-- A failure names the first error. -/
theorem Failure.message_unparsable {diagnostics rest : List Diagnostic} {first : Diagnostic}
    (errors : Diagnostic.errors diagnostics = first :: rest) (path : String) :
    ∃ more, (Failure.unparsable path diagnostics).message =
      "Failed to parse " ++ path ++ (": " ++ first.display ++ more) := by
  suffices detail : ∃ more, Failure.parseDetail diagnostics = ": " ++ first.display ++ more by
    obtain ⟨more, detail⟩ := detail
    exact ⟨more, congrArg ("Failed to parse " ++ path ++ ·) detail⟩
  unfold Failure.parseDetail
  rw [errors]
  cases rest with
  | nil => exact ⟨"", String.append_empty.symm⟩
  | cons second rest =>
      refine ⟨" (+" ++ toString (second :: rest).length ++ " more)", ?_⟩
      simp only [String.append_assoc]

/-- In an ordered list that is given up last, if at all, the first error is the earliest one. -/
theorem first_error_earliest {found stop rest : List Diagnostic} {first : Diagnostic}
    (ordered : found.Pairwise fun first second => first.first.AtMost second.first)
    (goes : ∀ diagnostic ∈ found, diagnostic.code ≠ "TOO_MANY_ERRORS")
    (stops : ∀ diagnostic ∈ stop, diagnostic.code = "TOO_MANY_ERRORS")
    (behind : stop ≠ [] → Diagnostic.errors found ≠ [])
    (errors : Diagnostic.errors (found ++ stop) = first :: rest) :
    first ∈ found ∧ ∀ other ∈ rest, other ∈ found → first.first.AtMost other.first := by
  have whole : Diagnostic.errors found ++ Diagnostic.errors stop = first :: rest := by
    rw [← errors]
    exact (List.filter_append _ _).symm
  cases errorsFound : Diagnostic.errors found with
  | nil =>
      have none : stop = [] := by
        by_contra some
        exact behind some errorsFound
      rw [errorsFound, none] at whole
      cases whole
  | cons earliest more =>
      rw [errorsFound] at whole
      obtain ⟨rfl, rfl⟩ := List.cons.inj whole
      have sorted : (earliest :: more).Pairwise fun first second =>
          first.first.AtMost second.first := by
        rw [← errorsFound]
        exact ordered.filter _
      constructor
      · have member : earliest ∈ Diagnostic.errors found := by simp [errorsFound]
        exact (List.mem_filter.1 member).1
      · intro other member inside
        rcases List.mem_append.1 member with later | stopped
        · exact (List.pairwise_cons.1 sorted).1 other later
        · exact absurd (stops other (List.mem_filter.1 stopped).1) (goes other inside)

/-- Diagnostics are placed at tokens of the source, in the order of the source, and the first
error is the one that a failure names. -/
theorem diagnostics_in_source_order [StackRoom] (filename source : String) (tokens : List Token)
    (lexed : Token.tokenize source = .ok tokens) :
    let diagnostics := (Reading.ofSource filename source).diagnostics
    let located := diagnostics.filter (·.code ≠ "TOO_MANY_ERRORS")
    (∀ diagnostic ∈ located,
      (∃ token ∈ tokens, diagnostic.first = token.position) ∧
        1 ≤ diagnostic.first.line ∧ 1 ≤ diagnostic.first.column) ∧
    (located.map (·.first)).Pairwise Position.AtMost ∧
    ∀ first rest, Diagnostic.errors diagnostics = first :: rest →
      first ∈ located ∧
      (∀ other ∈ rest, other ∈ located → first.first.AtMost other.first) ∧
      ∀ path, ∃ more, (Failure.unparsable path diagnostics).message =
        "Failed to parse " ++ path ++ (": " ++ first.display ++ more) := by
  intro diagnostics located
  obtain ⟨findings, stop, walk, split, stops, behind⟩ := diagnostics_split filename tokens
  rw [Token.withoutComments_of_tokenize lexed] at walk
  have same : diagnostics = findings.map (·.toDiagnostic) ++ stop := by
    rw [← split]
    exact congrArg Reading.diagnostics (by rw [Reading.ofSource, lexed])
  have kept : located = findings.map (·.toDiagnostic) := by
    have gone : stop.filter (·.code ≠ "TOO_MANY_ERRORS") = [] := by
      simpa [List.filter_eq_nil_iff] using stops
    have all : (findings.map (·.toDiagnostic)).filter (·.code ≠ "TOO_MANY_ERRORS") =
        findings.map (·.toDiagnostic) := by
      simpa [List.filter_eq_self] using walk.codes
    change diagnostics.filter _ = _
    rw [same, List.filter_append, gone, all, List.append_nil]
  have barred := barred_of_tokenize lexed
  have ordered := walk.ordered barred (Token.placed_of_tokenize lexed)
  refine ⟨?_, ?_, ?_⟩
  · intro diagnostic member
    rw [kept] at member
    obtain ⟨finding, inside, rfl⟩ := List.mem_map.1 member
    obtain ⟨token, among, place⟩ := walk.located barred finding inside
    refine ⟨⟨token, among, place⟩, ?_⟩
    rw [place]
    exact Token.one_le_position lexed token among
  · rw [kept, List.pairwise_map]
    exact ordered
  · intro first rest errors
    rw [same] at errors
    obtain ⟨member, earliest⟩ :=
      first_error_earliest ordered walk.codes stops behind errors
    rw [kept]
    exact ⟨member, earliest, Failure.message_unparsable (by rw [same, errors])⟩

/-- A source with a member and an element that are at fault. -/
def faultySource : String := "contract C { uint ; }\n) x ;"

open StackRoom in
/-- Its diagnostics, in order. -/
theorem faultySource_in_order :
    ((Reading.ofSource "C.sol" faultySource).diagnostics.map (·.first)) =
        [⟨1, 14⟩, ⟨2, 1⟩] ∧
      (((Reading.ofSource "C.sol" faultySource).diagnostics.filter
        (·.code ≠ "TOO_MANY_ERRORS")).map (·.first)).Pairwise Position.AtMost := by
  have lexed : Token.tokenize faultySource =
      .ok (Token.withoutComments (Token.scan faultySource).tokens) :=
    Token.tokenize_eq_ok_iff.2 ⟨by decide +kernel, rfl⟩
  exact ⟨by decide +kernel,
    (diagnostics_in_source_order "C.sol" faultySource _ lexed).2.1⟩

end Interlock
