import Interlock.Proofs.Acceptance
import Interlock.Proofs.Layout

/-!
# Sources one behind the other

A line feed ends whatever lexeme stands in front of it, and a declaration is read to
its own end without regard to what follows.  Two sources with a line feed between them
are therefore read one after the other: the second one as it is read alone, only
further down.
-/

namespace Interlock

/-! ## Further down -/

/-- How many lines a text has. -/
def lineCount (text : List Char) : Nat := text.count '\n' + 1

/-- A position some lines further down. -/
def Position.down (lines : Nat) (position : Position) : Position :=
  ⟨position.line + lines, position.column⟩

namespace Position

theorem down_after (lines : Nat) (position : Position) (c : Char) :
    (position.down lines).after c = (position.after c).down lines := by
  rw [after, after]
  split
  · simp only [down, Int.add_right_comm]
  · rfl

theorem down_past (lines : Nat) (position : Position) (text : List Char) :
    (position.down lines).past text = (position.past text).down lines := by
  induction text generalizing position with
  | nil => rfl
  | cons c text ih => rw [past_cons, past_cons, down_after, ih]

/-- Behind a text and a line feed a new line begins, further down by the lines of the text. -/
theorem past_feed (text : List Char) :
    (start.past text).after '\n' = start.down (lineCount text) := by
  rw [← behind_nil, behind_past, List.nil_append]
  simp only [after, behind, down, lineCount, if_true, List.count_nil]
  simp
  omega

end Position

/-- A diagnostic about what stands further down. -/
def Diagnostic.down (lines : Nat) (diagnostic : Diagnostic) : Diagnostic :=
  { diagnostic with first := diagnostic.first.down lines, last := diagnostic.last.down lines }

/-- What is said about tokens does not depend on where they stand. -/
theorem Remark.moved_message (move : Position → Position) (remark : Remark) :
    (remark.moved move).message = remark.message := by
  cases remark with
  | unrecognizedDirective start tokens =>
      have texts : (tokens.map (·.moved move)).map (·.text) = tokens.map (·.text) := by
        rw [List.map_map]
        rfl
      exact congrArg (fun texts =>
        "Ignoring unrecognized directive " ++ Text.quoted (" ".intercalate texts)) texts
  | _ => rfl

theorem Remark.moved_range (lines : Nat) (remark : Remark) :
    ((Finding.remark remark).moved (.down lines)).range =
      ((Finding.remark remark).range.1.down lines, (Finding.remark remark).range.2.down lines) := by
  cases remark <;> rfl

/-- Warnings are about tokens, so they move with them. -/
theorem Finding.moved_toDiagnostic (lines : Nat) {finding : Finding}
    (harmless : finding.isError = false) :
    (finding.moved (.down lines)).toDiagnostic = finding.toDiagnostic.down lines := by
  cases finding with
  | remark cause =>
      have message : ((Finding.remark cause).moved (.down lines)).message =
          (Finding.remark cause).message := cause.moved_message _
      rw [toDiagnostic, cause.moved_range, moved_severity, moved_code, message]
      rfl
  | _ => cases harmless

/-! ## Scanning -/

namespace Token

/-- A scan that begins further down finds the same further down, and adds it to the tokens
before. -/
theorem scanFrom_down (lines : Nat) (earlier : List Token) (position : Position)
    (seen : List Token) (text : List Char) :
    scanFrom (position.down lines) (seen.map (·.moved (.down lines)) ++ earlier) text =
      ⟨earlier.reverse ++ (scanFrom position seen text).tokens.map (·.moved (.down lines)),
        (scanFrom position seen text).error.map fun error =>
          { error with position := error.position.down lines }⟩ := by
  fun_induction scanFrom position seen text with
  | case1 position seen =>
      rw [scanFrom.eq_1]
      simp [moved]
  | case2 position seen c rest gap ih => rw [scanFrom_gap gap, Position.down_after, ih]
  | case3 position seen c rest gap offset problem read =>
      rw [scanFrom.eq_2, if_neg gap, read]
      simp [Position.down_past]
  | case4 position seen c rest gap lexeme read ih =>
      rw [scanFrom_read read, Position.down_past]
      exact ih

/-- A scan goes on behind a text and a line feed as if it began there. -/
theorem scanFrom_append {position : Position} {seen : List Token} {first : List Char}
    (accepted : (scanFrom position seen first).error = none) (second : List Char) :
    ∃ body, (scanFrom position seen first).tokens =
        body ++ [⟨.endOfFile, "", position.past first⟩] ∧
      scanFrom position seen (first ++ '\n' :: second) =
        scanFrom ((position.past first).after '\n') body.reverse second := by
  have feed : Lexeme.isGap '\n' := by decide
  fun_induction scanFrom position seen first with
  | case1 position seen =>
      refine ⟨seen.reverse, List.reverse_cons, ?_⟩
      rw [List.nil_append, scanFrom_gap feed, List.reverse_reverse, Position.past_nil]
  | case2 position seen c rest gap ih =>
      rw [List.cons_append, scanFrom_gap gap]
      exact ih accepted
  | case3 => cases accepted
  | case4 position seen c rest gap lexeme read ih =>
      -- A comment up to the end of its line ends in front of the line feed too.
      have again : Lexeme.read c (rest ++ '\n' :: second) = .ok lexeme :=
        Lexeme.read_append read (Lexeme.apart_cons feed second) fun _ g front =>
          (Option.some.inj front).symm
      have within : lexeme.more ≤ rest.length := by
        rw [← Lexeme.length_take_of_read read]
        exact List.length_take_le' ..
      obtain ⟨body, tokens, goesOn⟩ := ih accepted
      have whole : position.past (c :: rest) =
          (position.past (c :: rest.take lexeme.more)).past (rest.drop lexeme.more) := by
        rw [← Position.past_append, List.cons_append, List.take_append_drop]
      refine ⟨body, ?_, ?_⟩
      · rw [tokens, whole]
      · rw [List.cons_append, scanFrom_read again, whole, ← goesOn,
          List.take_append_of_le_length within, List.drop_append_of_le_length within]

variable {first second : String}

/-- The tokens of two texts with a line feed between them, comments included. -/
theorem scan_join (accepted : (scan first).error = none)
    (acceptedNext : (scan second).error = none) :
    ∃ body, (scan first).tokens = body ++ [⟨.endOfFile, "", Position.start.past first.toList⟩] ∧
      scan (first ++ "\n" ++ second) =
        ⟨body ++ (scan second).tokens.map (·.moved (.down (lineCount first.toList))),
          none⟩ := by
  obtain ⟨body, tokens, goesOn⟩ := scanFrom_append accepted second.toList
  refine ⟨body, tokens, ?_⟩
  have text : (first ++ "\n" ++ second).toList = first.toList ++ '\n' :: second.toList := by
    simp
  have lowered := scanFrom_down (lineCount first.toList) body.reverse .start [] second.toList
  rw [List.map_nil, List.nil_append, List.reverse_reverse] at lowered
  rw [scan, text, goesOn, Position.past_feed, lowered]
  change Scan.mk _ ((scan second).error.map _) = _
  rw [acceptedNext]
  rfl

theorem tokenize_join {tokens nextTokens : List Token} (lexed : tokenize first = .ok tokens)
    (lexedNext : tokenize second = .ok nextTokens) :
    ∃ body mark, tokens = body ++ [mark] ∧ mark.kind = .endOfFile ∧
      tokenize (first ++ "\n" ++ second) =
        .ok (body ++ nextTokens.map (·.moved (.down (lineCount first.toList)))) := by
  obtain ⟨accepted, rfl⟩ := tokenize_eq_ok_iff.1 lexed
  obtain ⟨acceptedNext, rfl⟩ := tokenize_eq_ok_iff.1 lexedNext
  obtain ⟨body, tokens, scanned⟩ := scan_join accepted acceptedNext
  refine ⟨withoutComments body, ⟨.endOfFile, "", Position.start.past first.toList⟩, ?_, rfl, ?_⟩
  · rw [tokens]
    simp [withoutComments]
  · rw [tokenize_eq_ok_iff, scanned]
    refine ⟨rfl, ?_⟩
    rw [withoutComments, List.filter_append, List.filter_map]
    rfl

end Token

/-! ## Reading -/

namespace Reading

variable [StackRoom] {filename source : String} {tokens : List Token}

/-- Tokens behind those of a source are read as they are read alone. -/
theorem ofTokens_append {next body : List Token} {mark : Token}
    (lexed : Token.tokenize source = .ok tokens) (split : tokens = body ++ [mark])
    (success : (ofTokens filename tokens).1.success = true)
    (successNext : (ofTokens filename next).1.success = true) :
    ∃ unit nextUnit, (ofTokens filename tokens).1.unit = some unit ∧
      (ofTokens filename next).1.unit = some nextUnit ∧
      (ofTokens filename (body ++ next)).1 =
        ⟨some ⟨filename, unit.elements ++ nextUnit.elements⟩,
          (ofTokens filename tokens).1.findings ++ (ofTokens filename next).1.findings⟩ := by
  obtain ⟨elements, remarks, own, _, last, shape, isEnd, pieces⟩ :=
    elements_of_success lexed success
  obtain ⟨rfl, same⟩ := List.append_inj' (shape.symm.trans split) rfl
  obtain rfl := List.singleton_inj.1 same
  obtain ⟨nextElements, nextRemarks, taken, _, rest, nextSplit, ended, nextPieces⟩ :=
    Parser.success_iff_elements.1 successNext
  have silent : Token.withoutComments own = own := by
    apply Token.withoutComments_of_mem lexed
    intro token member
    rw [split]
    exact List.mem_append_left _ member
  have alone : Token.withoutComments tokens = own ++ [last] := by
    rw [Token.withoutComments_of_tokenize lexed, split]
  have joined : Token.withoutComments (own ++ next) = own ++ taken ++ rest := by
    rw [List.append_assoc, ← nextSplit, Token.withoutComments, List.filter_append]
    exact congrArg (· ++ _) silent
  have atEnd : Parser.AtEnd [last] := by simp [Parser.AtEnd, isEnd]
  rw [Parser.reading_of_elements alone atEnd pieces,
    Parser.reading_of_elements nextSplit ended nextPieces,
    Parser.reading_of_elements joined ended (pieces.append nextPieces), List.map_append]
  exact ⟨_, _, rfl, rfl, rfl⟩

/-- A source whose tokens are those of another behind it, further down, is read in turn. -/
theorem ofSource_join {second both : String} {nextTokens body : List Token} {mark : Token}
    {lines : Nat} (lexed : Token.tokenize source = .ok tokens)
    (lexedNext : Token.tokenize second = .ok nextTokens) (split : tokens = body ++ [mark])
    (joined : Token.tokenize both = .ok (body ++ nextTokens.map (·.moved (.down lines))))
    (success : (ofSource filename source).success = true)
    (successNext : (ofSource filename second).success = true) :
    ∃ unit nextUnit, (ofSource filename source).unit = some unit ∧
      (ofSource filename second).unit = some nextUnit ∧
      ofSource filename both =
        ⟨some ⟨filename, unit.elements ++ nextUnit.elements.map (·.moved (.down lines))⟩,
          (ofSource filename source).findings ++
            ((ofSource filename second).moved (.down lines)).findings⟩ := by
  rw [ofSource_of_tokenize lexed] at success ⊢
  rw [ofSource_of_tokenize lexedNext] at successNext ⊢
  rw [ofSource_of_tokenize joined]
  have moved : (ofTokens filename (nextTokens.map (·.moved (.down lines)))).1 =
      (ofTokens filename nextTokens).1.moved (.down lines) :=
    congrArg Prod.fst (ofTokens_moved ..)
  have movedSuccess :
      (ofTokens filename (nextTokens.map (·.moved (.down lines)))).1.success = true := by
    rw [moved, moved_success, successNext]
  obtain ⟨unit, movedUnit, read, readNext, readBoth⟩ :=
    ofTokens_append lexed split success movedSuccess
  rw [moved] at readNext readBoth
  obtain ⟨nextUnit, readAlone, rfl⟩ := Option.map_eq_some_iff.1 readNext
  exact ⟨unit, nextUnit, read, readAlone, readBoth⟩

omit [StackRoom] in
theorem moved_diagnostics (lines : Nat) {reading : Reading} (success : reading.success = true) :
    (reading.moved (.down lines)).diagnostics = reading.diagnostics.map (·.down lines) := by
  rw [diagnostics, diagnostics, moved, List.map_map, List.map_map]
  apply List.map_congr_left
  intro finding member
  apply Finding.moved_toDiagnostic
  simp only [Reading.success, Bool.not_eq_true', List.any_eq_false] at success
  exact Bool.eq_false_iff.2 (success finding member)

end Reading

/-! ## Joining -/

open Token

/-- Two sources with a line feed between them are read one after the other.  The tokens of the
second follow those of the first without its end mark, with or without comments, and stand
further down by the lines of the first.  If neither source has errors then both together have
none, the elements of the second follow those of the first, further down at every depth, and so
do the warnings. -/
theorem joined_sources_read_in_turn [StackRoom] {first second : String}
    {tokens nextTokens : List Token}
    (lexed : tokenize first = .ok tokens) (lexedNext : tokenize second = .ok nextTokens) :
    (∃ body mark, (scan first).tokens = body ++ [mark] ∧ mark.kind = .endOfFile ∧
      scan (first ++ "\n" ++ second) =
        ⟨body ++ (scan second).tokens.map (·.moved (.down (lineCount first.toList))), none⟩) ∧
    (∃ body mark, tokens = body ++ [mark] ∧ mark.kind = .endOfFile ∧
      tokenize (first ++ "\n" ++ second) =
        .ok (body ++ nextTokens.map (·.moved (.down (lineCount first.toList))))) ∧
    ∀ filename, (Reading.ofSource filename first).success = true →
      (Reading.ofSource filename second).success = true →
      (Reading.ofSource filename (first ++ "\n" ++ second)).success = true ∧
      (∃ unit nextUnit, (Reading.ofSource filename first).unit = some unit ∧
        (Reading.ofSource filename second).unit = some nextUnit ∧
        (Reading.ofSource filename (first ++ "\n" ++ second)).unit =
          some ⟨filename, unit.elements ++
            nextUnit.elements.map (·.moved (.down (lineCount first.toList)))⟩) ∧
      (Reading.ofSource filename (first ++ "\n" ++ second)).diagnostics =
        (Reading.ofSource filename first).diagnostics ++
          (Reading.ofSource filename second).diagnostics.map
            (·.down (lineCount first.toList)) := by
  refine ⟨?_, ?_, ?_⟩
  · obtain ⟨body, split, scanned⟩ :=
      scan_join (tokenize_eq_ok_iff.1 lexed).1 (tokenize_eq_ok_iff.1 lexedNext).1
    exact ⟨body, _, split, rfl, scanned⟩
  · exact tokenize_join lexed lexedNext
  · intro filename success successNext
    obtain ⟨body, mark, split, -, joined⟩ := tokenize_join lexed lexedNext
    obtain ⟨unit, nextUnit, read, readNext, readBoth⟩ :=
      Reading.ofSource_join lexed lexedNext split joined success successNext
    rw [readBoth]
    refine ⟨?_, ⟨unit, nextUnit, read, readNext, rfl⟩, ?_⟩
    · have movedNext := successNext
      rw [← Reading.moved_success (.down (lineCount first.toList))] at movedNext
      simp only [Reading.success, List.any_append, Bool.not_or, Bool.and_eq_true] at *
      exact ⟨success, movedNext⟩
    · rw [← Reading.moved_diagnostics _ successNext, Reading.diagnostics, List.map_append]
      rfl

/-- A source that ends in a comment. -/
def leadingSource : String := "contract C \x7b\n  function f() public public; \x7d // hex"

/-- A source that begins with a string mark. -/
def followingSource : String := "hex \"00\";\n;function g() pure;"

open StackRoom in
/-- The comment ends in front of the second source, and the warnings of both come in turn. -/
theorem followingSource_read_in_turn :
    (Reading.ofSource "C.sol" (leadingSource ++ "\n" ++ followingSource)).success = true ∧
      (Reading.ofSource "C.sol" (leadingSource ++ "\n" ++ followingSource)).diagnostics.map
          (fun found => (found.first, found.code)) =
        [(⟨2, 23⟩, "DUPLICATE_SPECIFIER"), (⟨3, 1⟩, "UNRECOGNIZED_DIRECTIVE"),
          (⟨4, 1⟩, "STRAY_SEMICOLON")] := by
  have lexed : tokenize leadingSource = .ok (withoutComments (scan leadingSource).tokens) :=
    tokenize_eq_ok_iff.2 ⟨by decide +kernel, rfl⟩
  have lexedNext :
      tokenize followingSource = .ok (withoutComments (scan followingSource).tokens) :=
    tokenize_eq_ok_iff.2 ⟨by decide +kernel, rfl⟩
  obtain ⟨-, -, readings⟩ := joined_sources_read_in_turn lexed lexedNext
  obtain ⟨success, -, diagnostics⟩ :=
    readings "C.sol" (by decide +kernel) (by decide +kernel)
  refine ⟨success, ?_⟩
  rw [diagnostics]
  decide +kernel

end Interlock
