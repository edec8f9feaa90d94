import Interlock.Proofs.Cut
import Interlock.Proofs.Joining

/-!
# What stands behind the primary contract

A closing brace is a token by itself, and no token in front of it is read differently for what
stands behind it.  A source that is read without errors can therefore be cut off behind its
primary contract, and whatever follows there instead, the same contract is judged.
-/

namespace Interlock

/-! ## Scanning up to a brace -/

namespace Lexeme

variable {c : Char} {rest : List Char} {lexeme : Lexeme}

/-- A closing brace is a lexeme by itself. -/
theorem closing_of_read (found : read c rest = .ok lexeme)
    (closes : lexeme.kind = .closing .brace) :
    c = Bracket.brace.closer ∧ lexeme = ⟨.closing .brace, [Bracket.brace.closer], 0⟩ := by
  have spelled := spelled_read found
  have length := length_take_of_read found
  obtain ⟨kind, value, more⟩ := lexeme
  obtain rfl : kind = .closing .brace := closes
  dsimp only at spelled length
  generalize own : c :: rest.take more = lexeme at spelled
  cases spelled with
  | @punctuation kind mark _ punctuation =>
      obtain ⟨rfl, nothing⟩ := List.cons.inj own
      rw [nothing] at length
      have isCloser : c = Bracket.brace.closer := by
        rw [punctuation?] at punctuation
        grind
      exact ⟨isCloser, by rw [← length, isCloser]; rfl⟩

end Lexeme

namespace Token

variable {position : Position} {seen : List Token} {text : List Char}

theorem reverse_prefix_scanFrom (position : Position) (seen : List Token) (text : List Char) :
    seen.reverse <+: (scanFrom position seen text).tokens := by
  have longer (token : Token) (seen : List Token) :
      seen.reverse <+: (token :: seen).reverse := by
    rw [List.reverse_cons]
    exact List.prefix_append ..
  fun_induction scanFrom position seen text with
  | case1 position seen => exact longer _ seen
  | case2 position seen c rest gap ih => exact ih
  | case3 position seen c rest gap offset problem read => exact List.prefix_rfl
  | case4 position seen c rest gap lexeme read ih => exact (longer _ seen).trans ih

/-- A scan finds a closing brace and the tokens in front of it whatever stands behind the brace. -/
theorem scanFrom_upTo {closer : Token} (closes : closer.kind = .closing .brace)
    {earlier later : List Token}
    (tokens : (scanFrom position seen text).tokens =
      seen.reverse ++ (earlier ++ closer :: later)) :
    ∃ own back, text = own ++ Bracket.brace.closer :: back ∧
      ∀ rest, scanFrom position seen (own ++ Bracket.brace.closer :: rest) =
        scanFrom (position.past (own ++ [Bracket.brace.closer]))
          (closer :: (earlier.reverse ++ seen)) rest := by
  fun_induction scanFrom position seen text generalizing earlier with
  | case1 position seen =>
      rw [List.reverse_cons, List.append_cancel_left_eq] at tokens
      have isEnd : closer ∈ [(⟨.endOfFile, "", position⟩ : Token)] := by simp [tokens]
      rw [List.mem_singleton.1 isEnd] at closes
      cases closes
  | case2 position seen c rest gap ih =>
      obtain ⟨own, back, rfl, again⟩ := ih tokens
      refine ⟨c :: own, back, rfl, fun rest => ?_⟩
      rw [List.cons_append, scanFrom_gap gap, again]
      rfl
  | case3 position seen c rest gap offset problem read =>
      simp at tokens
  | case4 position seen c rest gap lexeme read ih =>
      obtain ⟨more, extended⟩ := reverse_prefix_scanFrom
        (position.past (c :: rest.take lexeme.more))
        (⟨lexeme.kind, String.ofList lexeme.text, position⟩ :: seen) (rest.drop lexeme.more)
      have split : ⟨lexeme.kind, String.ofList lexeme.text, position⟩ :: more =
          earlier ++ closer :: later := by
        rw [← extended, List.reverse_cons, List.append_assoc] at tokens
        exact List.append_cancel_left tokens
      cases earlier with
      | nil =>
          -- The brace itself: nothing stands between it and what follows.
          obtain ⟨rfl, -⟩ := List.cons.inj split
          obtain ⟨rfl, rfl⟩ := Lexeme.closing_of_read read closes
          refine ⟨[], rest, rfl, fun rest => ?_⟩
          have brace : Lexeme.read Bracket.brace.closer rest =
              .ok ⟨.closing .brace, [Bracket.brace.closer], 0⟩ := rfl
          rw [List.nil_append, scanFrom_read brace]
          rfl
      | cons first earlier =>
          obtain ⟨rfl, rfl⟩ := List.cons.inj split
          obtain ⟨own, back, left, again⟩ := ih extended.symm
          have length := Lexeme.length_take_of_read read
          have whole : rest = rest.take lexeme.more ++ own ++ Bracket.brace.closer :: back := by
            rw [List.append_assoc, ← left, List.take_append_drop]
          refine ⟨c :: (rest.take lexeme.more ++ own), back, congrArg (c :: ·) whole, ?_⟩
          intro other
          generalize rest.take lexeme.more = taken at *
          subst whole
          have reread := Lexeme.read_of_within (by decide) read (by simp [length]) other
          rw [List.cons_append, scanFrom_read reread, List.append_assoc,
            List.take_left' length, List.drop_left' length, again, ← Position.past_append]
          simp

/-- A token that is no comment has its place among all tokens. -/
theorem withoutComments_split {tokens before later : List Token} {token : Token}
    (content : withoutComments tokens = before ++ token :: later) :
    ∃ earlier rest, tokens = earlier ++ token :: rest ∧ withoutComments earlier = before := by
  obtain ⟨first, second, rfl, rfl, behind⟩ := List.filter_eq_append_iff.1 content
  obtain ⟨comments, rest, rfl, silent, -, -⟩ := List.filter_eq_cons_iff.1 behind
  refine ⟨first ++ comments, rest, (List.append_assoc ..).symm, ?_⟩
  rw [withoutComments, List.filter_append, List.filter_eq_nil_iff.2 silent, List.append_nil]

/-- A text can be cut off behind a closing brace: the tokens up to the brace stay, whatever
follows. -/
theorem tokenize_upTo {source : String} {before later : List Token} {closer : Token}
    (closes : closer.kind = .closing .brace)
    (lexed : tokenize source = .ok (before ++ closer :: later)) :
    ∃ front back, source = front ++ back ∧
      front.toList.getLast? = some Bracket.brace.closer ∧
      (∃ mark, mark.kind = .endOfFile ∧ tokenize front = .ok (before ++ closer :: [mark])) ∧
      ∀ more tokens, tokenize (front ++ more) = .ok tokens →
        ∃ rest, tokens = before ++ closer :: rest := by
  obtain ⟨earlier, rest, split, rfl⟩ := withoutComments_split (tokenize_eq_ok_iff.1 lexed).2
  obtain ⟨own, back, text, again⟩ := scanFrom_upTo closes split
  have content (rest : List Token) :
      withoutComments ((closer :: earlier.reverse).reverse ++ rest) =
        withoutComments earlier ++ closer :: withoutComments rest := by
    simp [withoutComments, closes]
  have scanned (more : List Char) : scan (String.ofList (own ++ Bracket.brace.closer :: more)) =
      scanFrom (Position.start.past (own ++ [Bracket.brace.closer]))
        (closer :: earlier.reverse) more := by
    rw [scan, String.toList_ofList, again, List.append_nil]
  refine ⟨String.ofList (own ++ [Bracket.brace.closer]), String.ofList back, ?_, by simp,
    ⟨⟨.endOfFile, "", Position.start.past (own ++ [Bracket.brace.closer])⟩, rfl, ?_⟩, ?_⟩
  · rw [← String.toList_inj, text]
    simp
  · rw [tokenize_eq_ok_iff, scanned, scanFrom.eq_1, List.reverse_cons, content]
    exact ⟨rfl, rfl⟩
  · intro more tokens lexedMore
    have joined : String.ofList (own ++ [Bracket.brace.closer]) ++ more =
        String.ofList (own ++ Bracket.brace.closer :: more.toList) := by
      rw [← String.toList_inj]
      simp
    obtain ⟨-, same⟩ := tokenize_eq_ok_iff.1 lexedMore
    rw [joined, scanned] at same
    obtain ⟨behind, extended⟩ := reverse_prefix_scanFrom
      (Position.start.past (own ++ [Bracket.brace.closer])) (closer :: earlier.reverse) more.toList
    exact ⟨withoutComments behind, by rw [← same, ← extended, content]⟩

end Token

/-! ## The primary contract -/

/-- Elements further behind do not change which contract is the primary one. -/
theorem Tree.SourceUnit.primary?_append {filename : String} {elements : List Tree.Element}
    {contract : Tree.Contract} (primary : primary? ⟨filename, elements⟩ = some contract)
    (more : List Tree.Element) : primary? ⟨filename, elements ++ more⟩ = some contract := by
  rw [primary?, contracts] at primary ⊢
  rw [List.filterMap_append, List.find?_append, primary]
  rfl

/-- The primary contract is the primary one of the elements up to it. -/
theorem Tree.SourceUnit.primary?_upTo {filename : String} {before after : List Tree.Element}
    {contract : Tree.Contract}
    (primary : primary? ⟨filename, before ++ .contract contract :: after⟩ = some contract) :
    primary? ⟨filename, before ++ [.contract contract]⟩ = some contract := by
  rw [primary?, contracts] at primary ⊢
  have isContract := List.find?_some primary
  rw [List.filterMap_append, List.find?_append] at primary ⊢
  cases first : List.find? _ (before.filterMap _) with
  | some other =>
      rw [first] at primary
      exact primary
  | none => simpa using isContract

theorem Tree.SourceUnit.contract_mem_of_primary? {unit : Tree.SourceUnit}
    {contract : Tree.Contract} (primary : unit.primary? = some contract) :
    Tree.Element.contract contract ∈ unit.elements := by
  obtain ⟨element, member, same⟩ := List.mem_filterMap.1 (List.mem_of_find?_eq_some primary)
  cases element with
  | contract node => exact Option.some.inj same ▸ member
  | _ => cases same

namespace Reading

variable [StackRoom] {filename source : String}

omit [StackRoom] in
/-- A reading that is given up has an error. -/
theorem gaveUp_of_success {reading : Reading} (success : reading.success = true) :
    reading.gaveUp = false := by
  rw [Reading.success, Bool.not_eq_true', List.any_eq_false] at success
  rw [gaveUp, List.any_eq_false]
  intro finding member
  have harmless := success finding member
  cases finding with
  | fault => exact absurd rfl harmless
  | _ => simp [Finding.isTooDeep]

omit [StackRoom] in
theorem tree_eq_ok_iff {path : String} {reading : Reading} {unit : Tree.SourceUnit} :
    reading.tree path = .ok unit ↔ reading.unit = some unit ∧ reading.success = true := by
  rw [tree]
  cases read : reading.success with
  | false => cases reading.gaveUp <;> cases reading.unit <;> simp
  | true =>
      rw [gaveUp_of_success read]
      cases reading.unit <;> simp

theorem exists_tree (success : (ofSource filename source).success = true) :
    ∃ unit, (ofSource filename source).tree filename = .ok unit := by
  simp only [tree_eq_ok_iff, success, and_true]
  cases lexed : Token.tokenize source with
  | error problem =>
      rw [ofSource, lexed] at success
      cases success
  | ok tokens =>
      rw [ofSource_of_tokenize lexed] at success ⊢
      obtain ⟨elements, remarks, taken, kept, rest, split, ended, pieces⟩ :=
        Parser.success_iff_elements.1 success
      rw [Parser.reading_of_elements split ended pieces]
      exact ⟨_, rfl⟩

/-- A source that is read without errors is the elements of its tree, up to the end mark. -/
theorem elements_of_tree {unit : Tree.SourceUnit}
    (read : (ofSource filename source).tree filename = .ok unit) :
    ∃ elements remarks body kept mark, unit = ⟨filename, elements⟩ ∧
      Token.tokenize source = .ok (body ++ [mark]) ∧ mark.kind = .endOfFile ∧
      Parser.Pieces Parser.sourceElement elements remarks body kept := by
  obtain ⟨found, success⟩ := tree_eq_ok_iff.1 read
  cases lexed : Token.tokenize source with
  | error problem =>
      rw [ofSource, lexed] at found
      cases found
  | ok tokens =>
      rw [ofSource_of_tokenize lexed] at found success
      obtain ⟨elements, remarks, body, kept, mark, rfl, isEnd, pieces⟩ :=
        elements_of_success lexed success
      have atEnd : Parser.AtEnd [mark] := by simp [Parser.AtEnd, isEnd]
      rw [Parser.reading_of_elements (Token.withoutComments_of_tokenize lexed) atEnd pieces]
        at found
      cases found
      exact ⟨elements, remarks, body, kept, mark, rfl, rfl, isEnd, pieces⟩

theorem tree_of_elements {elements : List Tree.Element} {remarks : List Remark}
    {body kept : List Token} {mark : Token} (lexed : Token.tokenize source = .ok (body ++ [mark]))
    (isEnd : mark.kind = .endOfFile)
    (pieces : Parser.Pieces Parser.sourceElement elements remarks body kept) (filename : String) :
    (ofSource filename source).tree filename = .ok ⟨filename, elements⟩ := by
  have atEnd : Parser.AtEnd [mark] := by simp [Parser.AtEnd, isEnd]
  rw [tree_eq_ok_iff, ofSource_of_tokenize lexed,
    Parser.reading_of_elements (Token.withoutComments_of_tokenize lexed) atEnd pieces]
  simp [success, Finding.isError, Finding.severity]

/-- A source can be cut off behind its primary contract.  What is left is read without errors, and
whatever follows instead, the elements up to the contract stay the same. -/
theorem tree_upTo {unit : Tree.SourceUnit} {contract : Tree.Contract}
    (read : (ofSource filename source).tree filename = .ok unit)
    (primary : unit.primary? = some contract) :
    ∃ front back before, source = front ++ back ∧
      front.toList.getLast? = some Bracket.brace.closer ∧
      (ofSource filename front).tree filename =
        .ok ⟨filename, before ++ [.contract contract]⟩ ∧
      Tree.SourceUnit.primary? ⟨filename, before ++ [.contract contract]⟩ = some contract ∧
      ∀ more other, (ofSource filename (front ++ more)).tree filename = .ok other →
        ∃ after, other = ⟨filename, before ++ .contract contract :: after⟩ := by
  obtain ⟨elements, remarks, body, kept, mark, rfl, lexed, -, pieces⟩ := elements_of_tree read
  have member := Tree.SourceUnit.contract_mem_of_primary? primary
  obtain ⟨earlier, _, before, _, _, own, _, after, rfl, first, its⟩ := pieces.of_mem member
  have upTo := first.append (.single its)
  obtain ⟨further, _, _, -, rfl⟩ := upTo.of_append (List.append_assoc .. ▸ pieces)
  obtain ⟨head, opener, inner, closer, rfl, closes, -⟩ := Parser.exists_contract its
  -- The closing brace of the contract is where the source is cut.
  have brace (rest : List Token) : before ++ (head ++ opener :: (inner ++ [closer])) ++ rest =
      before ++ (head ++ opener :: inner) ++ closer :: rest := by simp
  rw [← List.append_assoc, List.append_assoc, brace] at lexed
  obtain ⟨front, back, split, ends, ⟨last, isEnd, lexedFront⟩, again⟩ :=
    Token.tokenize_upTo closes lexed
  rw [← brace] at lexedFront
  refine ⟨front, back, earlier, split, ends, tree_of_elements lexedFront isEnd upTo filename,
    Tree.SourceUnit.primary?_upTo (by simpa using primary), ?_⟩
  intro more other readOther
  obtain ⟨elements, _, body, _, mark, rfl, lexedOther, isEnd, pieces⟩ :=
    elements_of_tree readOther
  obtain ⟨rest, same⟩ := again more _ lexedOther
  rw [← brace] at same
  -- The end mark is behind the brace, so the body of the source begins with the shared tokens.
  obtain rfl | ⟨behind, token, rfl⟩ := rest.eq_nil_or_concat
  · rw [brace] at same
    obtain ⟨-, isCloser⟩ := List.append_inj' same rfl
    rw [List.singleton_inj.1 isCloser, closes] at isEnd
    cases isEnd
  · rw [List.concat_eq_append, ← List.append_assoc] at same
    obtain ⟨rfl, -⟩ := List.append_inj' same rfl
    obtain ⟨after, _, _, -, rfl⟩ := upTo.of_append pieces
    exact ⟨after, by simp⟩

end Reading

/-! ## Judging -/

/-- A source that is read without errors, with the contract that the rule looks at. -/
def HasPrimary [StackRoom] (filename source : String) (contract : Tree.Contract) : Prop :=
  ∃ unit, (Reading.ofSource filename source).tree filename = .ok unit ∧
    unit.primary? = some contract

section Judging

variable [StackRoom] {filename source front more : String} {contract : Tree.Contract}

/-- A source has an end of its own behind the primary contract, where it can be cut off. -/
theorem HasPrimary.cut (judged : HasPrimary filename source contract) :
    ∃ front back before, source = front ++ back ∧
      front.toList.getLast? = some Bracket.brace.closer ∧
      (Reading.ofSource filename front).tree filename =
        .ok ⟨filename, before ++ [.contract contract]⟩ ∧
      HasPrimary filename front contract := by
  obtain ⟨unit, read, primary⟩ := judged
  obtain ⟨front, back, before, split, ends, readFront, upTo, -⟩ := Reading.tree_upTo read primary
  exact ⟨front, back, before, split, ends, readFront, _, readFront, upTo⟩

/-- Whatever follows a source, its primary contract stays the primary one. -/
theorem HasPrimary.append (judged : HasPrimary filename front contract)
    (success : (Reading.ofSource filename (front ++ more)).success = true) :
    HasPrimary filename (front ++ more) contract := by
  obtain ⟨unit, read, primary⟩ := judged
  obtain ⟨own, back, before, rfl, -, -, upTo, again⟩ := Reading.tree_upTo read primary
  obtain ⟨other, readMore⟩ := Reading.exists_tree success
  rw [String.append_assoc] at readMore ⊢
  obtain ⟨after, rfl⟩ := again _ _ readMore
  have longer := Tree.SourceUnit.primary?_append upTo after
  rw [List.append_assoc] at longer
  exact ⟨_, readMore, longer⟩

/-- The violations of a source are those of its primary contract. -/
theorem Policy.checkSource_of_hasPrimary (policy : Policy)
    (judged : HasPrimary filename source contract) :
    (policy.checkSource filename source).violations = policy.violations filename contract ∧
      (policy.checkSource filename source).failure = none := by
  obtain ⟨unit, read, primary⟩ := judged
  rw [Policy.checkSource, read]
  simp only [primary, and_self]

/-- A source with a violation has a primary contract. -/
theorem Policy.hasPrimary_of_mem {policy : Policy} {violation : Violation}
    (member : violation ∈ (policy.checkSource filename source).violations) :
    ∃ contract, HasPrimary filename source contract := by
  revert member
  fun_cases policy.checkSource filename source with
  | case1 => simp
  | case2 => simp
  | case3 reading log unit read contract primary => exact fun _ => ⟨contract, unit, read, primary⟩

end Judging

end Interlock
