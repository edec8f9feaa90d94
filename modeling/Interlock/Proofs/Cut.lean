import Interlock.Compliance
import Interlock.Proofs.Body
import Interlock.Proofs.Lexing
import Interlock.Proofs.Written

/-!
# Which functions of a contract are found

A function stands in the tree of its contract when nothing in front of it in the body
is left open.  That can be seen by cutting the contract off in front of the function and
closing it there: what is left reads without errors exactly when the function is found.

A declaration that lacks its semicolon takes what follows into itself, and no error need
show; a function behind it is then lost.
-/

namespace Interlock.Parser

variable [StackRoom]

/-! ## Contracts -/

/-- The tokens of a contract up to the brace that opens it: what stands behind them is read
as its body. -/
structure ContractHead (node : Tree.Contract) (head : List Token) (opener : Token) :
    Prop where
  begins : ∃ token rest, head = token :: rest ∧ token.kind = .identifier ∧
    token.position = node.position
  opens : opener.kind = .opening .brace
  read : ∀ mode rest findings errors,
    sourceElement mode ⟨head ++ opener :: rest, findings, errors⟩ =
      (loop #[] (bodyStep mode node.kind node.name) >>= fun members =>
        pure (some (.contract { node with members := members.toList })))
        ⟨rest, findings, errors⟩

theorem contract_run {kind : Tree.ContractKind} {isAbstract : Bool} {start : Token}
    {node : Tree.Contract} {before after : State}
    (run : contract .tolerant kind isAbstract start before = .ok node after) :
    ∃ front opener left, before.rest = front ++ opener :: left ∧
      opener.kind = .opening .brace ∧ node.position = start.position ∧
      ∀ mode rest findings errors,
        contract mode kind isAbstract start ⟨front ++ opener :: rest, findings, errors⟩ =
          (loop #[] (bodyStep mode node.kind node.name) >>= fun members =>
            pure { node with members := members.toList }) ⟨rest, findings, errors⟩ := by
  rw [contract_eq] at run
  obtain ⟨⟨name, bases⟩, between, frontRun, run⟩ := bind_eq_ok_iff.1 run
  obtain ⟨opener, _, openerRun, run⟩ := bind_eq_ok_iff.1 run
  obtain ⟨members, _, -, answered⟩ := bind_eq_ok_iff.1 run
  obtain ⟨rfl, -⟩ := pure_eq_ok_iff.1 answered
  obtain ⟨front, split, again⟩ := local_contractFront kind (ofReader_eq_ok_iff.1 frontRun).1
  obtain ⟨opened, notEnd, opens⟩ :=
    Reader.expectElse_eq_ok_iff.1 (ofReader_eq_ok_iff.1 openerRun).1
  rw [opened] at split again
  refine ⟨front, opener, _, split, opens, rfl, fun mode rest findings errors => ?_⟩
  have expected : Reader.expectElse (.opening .brace) (.expectedContractBody kind name.text)
      (opener :: rest) = .ok opener rest :=
    Reader.expectElse_eq_ok_iff.2 ⟨rfl, notEnd, opens⟩
  rw [contract_eq, bind_of_ok (ofReader_of_ok (again _ (Look.front.same ..)) findings errors),
    bind_of_ok (ofReader_of_ok expected findings errors)]

/-- Only contract keywords announce contracts. -/
theorem elementParser?_contract {token : Token} {next : Option Token}
    {parser : Mode → Parser Tree.Element} (found : elementParser? token next = some parser)
    {node : Tree.Contract} {before after : State}
    (run : parser .tolerant before = .ok (.contract node) after) :
    (∃ kind, parser = fun mode =>
      contract mode kind false token >>= fun node => pure (.contract node)) ∨
    parser = fun mode => ofReader Reader.advance >>= fun _ =>
      contract mode .contract true token >>= fun node => pure (.contract node) := by
  rw [elementParser?] at found
  split at found
  · cases found
    exact .inl ⟨_, rfl⟩
  · split at found
    -- Every other keyword answers an element of its own sort.
    iterate 2
      cases found
      obtain ⟨_, -, impossible⟩ := map_eq_ok_iff.1 run
      cases impossible
    · split at found <;> cases found
      right
      rfl
    iterate 7
      cases found
      obtain ⟨_, -, impossible⟩ := map_eq_ok_iff.1 run
      cases impossible
    · cases found

/-- A word that announces a contract and the tokens up to its brace are the head of it. -/
theorem contractHead_of_announced {node : Tree.Contract} {token opener : Token}
    {own left : List Token} {parser : Mode → Parser Tree.Element}
    (isWord : token.kind = .identifier) (place : node.position = token.position)
    (found : elementParser? token (own ++ opener :: left).head? = some parser)
    (opens : opener.kind = .opening .brace)
    (read : ∀ mode rest findings errors, parser mode ⟨own ++ opener :: rest, findings, errors⟩ =
      (loop #[] (bodyStep mode node.kind node.name) >>= fun members =>
        pure (.contract { node with members := members.toList })) ⟨rest, findings, errors⟩) :
    ContractHead node (token :: own) opener := by
  refine ⟨⟨token, own, rfl, isWord, place.symm⟩, opens, fun mode rest findings errors => ?_⟩
  -- The word still announces a contract, since the token behind it stays the same.
  have next : (own ++ opener :: rest).head? = (own ++ opener :: left).head? := by
    cases own <;> rfl
  rw [← next] at found
  rw [sourceElement_eq_piece]
  refine (piece_announced dispatches_element isWord found mode).trans ?_
  rw [bind_of_eq (read mode rest findings errors)]
  simp only [bind_assoc, pure_bind]

/-- A contract that is read has a head. -/
theorem exists_contractHead {node : Tree.Contract} {before after : State}
    (run : sourceElement .tolerant before = .ok (some (.contract node)) after) :
    ∃ head opener left, before.rest = head ++ opener :: left ∧ ContractHead node head opener := by
  rw [sourceElement_eq_piece] at run
  obtain ⟨token, rest, front, ⟨-, impossible, -⟩ | ⟨isWord, announced | stated⟩⟩ :=
    piece_cases dispatches_element run
  · cases impossible
  · obtain ⟨parser, element, found, same, parsed⟩ := announced
    cases same
    rcases elementParser?_contract found parsed with ⟨kind, rfl⟩ | rfl
    · obtain ⟨_, contractRun, same⟩ := map_eq_ok_iff.1 parsed
      cases same
      obtain ⟨own, opener, left, split, opens, place, read⟩ := contract_run contractRun
      have split : rest = own ++ opener :: left := split
      rw [split] at found
      refine ⟨token :: own, opener, left, front.trans (congrArg (token :: ·) split),
        contractHead_of_announced isWord place found opens ?_⟩
      intro mode rest findings errors
      refine (bind_of_eq (read mode rest findings errors)).trans ?_
      simp only [bind_assoc, pure_bind]
    · obtain ⟨_, between, advanced, parsed⟩ := bind_eq_ok_iff.1 parsed
      obtain ⟨_, contractRun, same⟩ := map_eq_ok_iff.1 parsed
      cases same
      obtain ⟨own, opener, left, split, opens, place, read⟩ := contract_run contractRun
      cases rest with
      | nil =>
          cases advanced
          cases own <;> cases split
      | cons second rest =>
          cases advanced
          have split : second :: rest = (second :: own) ++ opener :: left :=
            congrArg (second :: ·) split
          rw [split] at found
          refine ⟨token :: second :: own, opener, left, front.trans (congrArg (token :: ·) split),
            contractHead_of_announced isWord place found opens ?_⟩
          intro mode rest findings errors
          change (contract mode .contract true token >>= fun node =>
            pure (Tree.Element.contract node)) ⟨own ++ opener :: rest, findings, errors⟩ = _
          rw [bind_of_eq (read mode rest findings errors)]
          simp only [bind_assoc, pure_bind]
  · obtain ⟨phrase, left, -, -, settled⟩ := stated
    split at settled
    · obtain ⟨_, _, -, answered⟩ := bind_eq_ok_iff.1 settled
      cases (pure_eq_ok_iff.1 answered).1
    · obtain ⟨_, _, -, answered⟩ := bind_eq_ok_iff.1 settled
      cases (pure_eq_ok_iff.1 answered).1

/-! ## Functions -/

section Function

variable {before after : State}

omit [StackRoom] in
/-- A function stands at its keyword and has the name that is read behind it. -/
theorem function_run {limit : Nat} {mode : Mode} {kind : Tree.FunctionKind} {start : Token}
    {node : Tree.Function} (run : function limit mode kind start before = .ok node after) :
    node.position = start.position ∧
      ∃ left, functionName kind before.rest = .ok node.name left := by
  rw [function] at run
  obtain ⟨name, between, named, run⟩ := bind_eq_ok_iff.1 run
  obtain ⟨_, _, -, run⟩ := bind_eq_ok_iff.1 run
  obtain ⟨_, _, -, answered⟩ := bind_eq_ok_iff.1 run
  obtain ⟨rfl, -⟩ := pure_eq_ok_iff.1 answered
  exact ⟨rfl, between.rest, (ofReader_eq_ok_iff.1 named).1⟩

/-- What announces a function is its first token. -/
theorem memberParser?_function {token : Token} {next : Option Token}
    {parser : Mode → Parser Tree.Member} (found : memberParser? token next = some parser)
    {node : Tree.Function} (run : parser .tolerant before = .ok (.function node) after) :
    node.position = token.position := by
  have its {kind : Tree.FunctionKind}
      (run : (function StackRoom.member .tolerant kind token >>= fun node =>
        pure (Tree.Member.function node)) before = .ok (.function node) after) :
      node.position = token.position := by
    obtain ⟨_, functionRun, same⟩ := map_eq_ok_iff.1 run
    cases same
    exact (function_run functionRun).1
  rw [memberParser?] at found
  split at found
  · split at found <;> cases found
    exact its run
  · split at found
    · cases found
      exact its run
    iterate 5
      cases found
      obtain ⟨_, -, impossible⟩ := map_eq_ok_iff.1 run
      cases impossible
    iterate 2
      split at found <;> cases found
      obtain ⟨_, -, impossible⟩ := map_eq_ok_iff.1 run
      cases impossible
    · cases found

/-- A part that answers a function begins at that function. -/
theorem front_of_function_part {node : Tree.Function}
    (run : contractPart .tolerant before = .ok (some (.function node)) after) :
    ∃ token rest, before.rest = token :: rest ∧ token.position = node.position := by
  rw [contractPart_eq_piece] at run
  obtain ⟨token, rest, front, ⟨-, impossible, -⟩ | ⟨-, announced | stated⟩⟩ :=
    piece_cases dispatches_member run
  · cases impossible
  · obtain ⟨parser, member, found, same, parsed⟩ := announced
    cases same
    exact ⟨token, rest, front, (memberParser?_function found parsed).symm⟩
  · obtain ⟨phrase, left, -, -, settled⟩ := stated
    obtain ⟨_, _, -, answered⟩ := bind_eq_ok_iff.1 settled
    cases (pure_eq_ok_iff.1 answered).1

/-- A part that begins with the word `function` and a name answers that function. -/
theorem function_of_part {keyword name : Token} {rest : List Token} {answer : Option Tree.Member}
    (front : before.rest = keyword :: name :: rest) (isKeyword : keyword.isWord "function")
    (isName : name.kind = .identifier)
    (run : contractPart .tolerant before = .ok answer after) :
    ∃ node, answer = some (.function node) ∧ node.position = keyword.position ∧
      node.name = name.text := by
  obtain ⟨tokens, findings, errors⟩ := before
  cases front
  simp only [Token.isWord, Bool.and_eq_true, decide_eq_true_eq] at isKeyword
  obtain ⟨isWord, text⟩ := isKeyword
  have found : memberParser? keyword (name :: rest).head? = some fun mode =>
      function StackRoom.member mode .function keyword >>= fun node => pure (.function node) := by
    rw [memberParser?, text]
    rfl
  rw [contractPart_eq_piece, piece_announced dispatches_member isWord found] at run
  obtain ⟨member, memberRun, rfl⟩ := map_eq_ok_iff.1 run
  obtain ⟨node, functionRun, rfl⟩ := map_eq_ok_iff.1 memberRun
  obtain ⟨place, left, named⟩ := function_run functionRun
  refine ⟨node, rfl, place, ?_⟩
  have read : functionName .function (name :: rest) = .ok name.text rest := by
    change (Reader.at? .identifier >>= _) _ = _
    rw [Reader.at?_bind]
    simp [isName]
    rfl
  injection named.symm.trans read

end Function

/-! ## Cutting a contract off -/

section Cut

variable {node : Tree.Contract} {head : List Token} {opener closer : Token}

/-- Parts between the braces of a contract make a contract with these members. -/
theorem ContractHead.piece (headed : ContractHead node head opener)
    {members : List Tree.Member} {remarks : List Remark} {body kept : List Token}
    (parts : Pieces contractPart members remarks body kept)
    (closes : closer.kind = .closing .brace) :
    Piece sourceElement (some (.contract { node with members := members })) remarks
      (head ++ opener :: (body ++ [closer])) (head ++ opener :: (kept ++ [closer])) := by
  have replay := body_of_parts node.kind node.name parts closes #[]
  obtain ⟨token, more, rfl, isWord, -⟩ := headed.begins
  constructor
  · simpa using (Pruned.refl (token :: more ++ [opener])).append replay.pruned
  · exact ⟨token, _, rfl, .inl isWord⟩
  · intro rest findings errors limit
    have shape : token :: more ++ opener :: (body ++ [closer]) ++ rest =
        token :: more ++ opener :: (body ++ [closer] ++ rest) := by simp
    rw [shape, headed.read, bind_of_ok (replay.tolerant rest findings errors limit)]
    simp
    rfl
  · nofun
  · intro _
    refine ⟨⟨token, _, rfl, .inl isWord⟩, fun rest findings errors => ?_⟩
    have shape : token :: more ++ opener :: (kept ++ [closer]) ++ rest =
        token :: more ++ opener :: (kept ++ [closer] ++ rest) := by simp
    rw [shape, headed.read, bind_of_ok (replay.strict rest findings errors)]
    simp
    rfl

/-- A contract that reads without errors has parts up to some closing brace. -/
theorem ContractHead.parts (headed : ContractHead node head opener) {filename : String}
    {rest : List Token}
    (clean : Token.withoutComments (head ++ opener :: rest) = head ++ opener :: rest)
    (success : (Reading.ofTokens filename (head ++ opener :: rest)).1.success = true) :
    ∃ members remarks body kept closer left, closer.kind = .closing .brace ∧
      rest = body ++ closer :: left ∧ Pieces contractPart members remarks body kept := by
  obtain ⟨found, remarks, taken, kept, left, split, ended, pieces⟩ :=
    success_iff_elements.1 success
  rw [clean] at split
  obtain ⟨token, more, rfl, isWord, -⟩ := headed.begins
  cases pieces with
  | nil =>
      rw [List.nil_append] at split
      rw [← split] at ended
      simp [AtEnd, isWord] at ended
  | @cons answer _ itsRemarks _ own itsKept later _ piece _ =>
      have run := piece.tolerant (later ++ left) #[] 0 (by decide)
      rw [← List.append_assoc, ← split, headed.read] at run
      obtain ⟨members, bodyRun, -⟩ := map_eq_ok_iff.1 run
      obtain ⟨members, partRemarks, body, keptBody, closer, closes, bodySplit, parts, -⟩ :=
        parts_of_body ⟨bodyRun, show 0 < errorLimit by decide, rfl⟩
      exact ⟨members, partRemarks, body, keptBody, closer, _, closes, bodySplit, parts⟩

/-- Where tokens of a body are followed by further ones, cutting the contract off behind
them leaves no error exactly when they are parts of their own. -/
theorem ContractHead.cut_iff (headed : ContractHead node head opener)
    (closes : closer.kind = .closing .brace) {filename : String}
    {members : List Tree.Member} {remarks : List Remark} {before after kept : List Token}
    (parts : Pieces contractPart members remarks (before ++ after) kept)
    (clean : Token.withoutComments (head ++ opener :: (before ++ [closer])) =
      head ++ opener :: (before ++ [closer])) :
    (Reading.ofTokens filename (head ++ opener :: (before ++ [closer]))).1.success = true ↔
      ∃ earlier earlierRemarks keptBefore,
        Pieces contractPart earlier earlierRemarks before keptBefore := by
  constructor
  · intro success
    obtain ⟨earlier, earlierRemarks, body, keptBody, other, left, otherCloses, split, first⟩ :=
      headed.parts clean success
    -- The parts end at the new brace: a brace in front of it would begin a part.
    rcases List.append_eq_append_iff.1 split with ⟨own, rfl, same⟩ | ⟨own, rfl, same⟩
    · cases own with
      | nil => exact ⟨earlier, earlierRemarks, keptBody, by simpa using first⟩
      | cons token own => simp at same
    · cases own with
      | nil => exact ⟨earlier, earlierRemarks, keptBody, by simpa using first⟩
      | cons token own =>
          obtain ⟨rfl, -⟩ := List.cons.inj same
          rw [List.append_assoc] at parts
          obtain ⟨more, moreRemarks, keptMore, rest, -⟩ := first.of_append parts
          generalize tokens : other :: own ++ after = full at rest
          cases rest with
          | nil => cases tokens
          | cons piece _ =>
              obtain ⟨token, more, rfl, kinds⟩ := piece.begins
              obtain ⟨rfl, -⟩ := List.cons.inj tokens
              rw [otherCloses] at kinds
              rcases kinds with kind | kind <;> cases kind
  · rintro ⟨earlier, earlierRemarks, keptBefore, first⟩
    exact success_iff_elements.2 ⟨_, _, _, _, [], clean.trans (List.append_nil _).symm, rfl,
      .single (headed.piece first closes)⟩

/-- A contract that is read by itself has a head, parts and a closing brace. -/
theorem exists_contract {remarks : List Remark} {own kept : List Token}
    (piece : Piece sourceElement (some (.contract node)) remarks own kept) :
    ∃ head opener body closer, own = head ++ opener :: (body ++ [closer]) ∧
      closer.kind = .closing .brace ∧ ContractHead node head opener ∧
      ∃ partRemarks keptBody, Pieces contractPart node.members partRemarks body keptBody := by
  have run := piece.tolerant [] #[] 0 (by decide)
  obtain ⟨head, opener, left, split, headed⟩ := exists_contractHead run
  rw [show own ++ [] = _ from split, headed.read] at run
  obtain ⟨members, bodyRun, same⟩ := map_eq_ok_iff.1 run
  obtain ⟨found, partRemarks, body, keptBody, closer, closes, bodySplit, parts, rfl⟩ :=
    parts_of_body ⟨bodyRun, show 0 < errorLimit by decide, rfl⟩
  have whole : left = body ++ [closer] := bodySplit
  have all : node.members = found := by
    injection same with same
    injection same with same
    simpa using congrArg Tree.Contract.members same.symm
  rw [← all] at parts
  refine ⟨head, opener, body, closer, ?_, closes, headed, partRemarks, keptBody, parts⟩
  rw [← whole, ← show own ++ [] = _ from split, List.append_nil]

end Cut

end Interlock.Parser

namespace Interlock

open Interlock.Parser

/-- Two places with the same position are the same where positions differ. -/
theorem eq_of_position_eq {before other after rest : List Token} {first second : Token}
    (distinct : ((before ++ first :: after).map Token.position).Nodup)
    (same : before ++ first :: after = other ++ second :: rest)
    (place : first.position = second.position) : before = other := by
  induction before generalizing other with
  | nil =>
      cases other with
      | nil => rfl
      | cons token other =>
          obtain ⟨rfl, rfl⟩ := List.cons.inj same
          simp [place] at distinct
  | cons token before ih =>
      cases other with
      | nil =>
          obtain ⟨rfl, -⟩ := List.cons.inj same
          simp [place] at distinct
      | cons head other =>
          obtain ⟨rfl, later⟩ := List.cons.inj same
          rw [ih (List.nodup_cons.1 distinct).2 later]

/-- Among parts at different positions, a function is found exactly when the tokens in front
of it are parts of their own. -/
theorem found_iff_parts [StackRoom] {contract : Tree.Contract} {remarks : List Remark}
    {before after kept : List Token} {keyword name : Token}
    (parts : Pieces contractPart contract.members remarks (before ++ keyword :: name :: after) kept)
    (distinct : ((before ++ keyword :: name :: after).map Token.position).Nodup)
    (isKeyword : keyword.isWord "function") (isName : name.kind = .identifier)
    (nonempty : name.text ≠ "") :
    (∃ function ∈ contract.named, function.position = keyword.position ∧
        function.name = name.text) ↔
      ∃ earlier earlierRemarks keptBefore,
        Pieces contractPart earlier earlierRemarks before keptBefore := by
  constructor
  · rintro ⟨function, named, place, -⟩
    have member : Tree.Member.function function ∈ contract.members := by
      obtain ⟨member, stands, chosen⟩ := List.mem_filterMap.1 (List.mem_filter.1 named).1
      cases member <;> simp_all
    obtain ⟨earlier, earlierRemarks, front, keptFront, _, own, _, rest, split, first, piece⟩ :=
      parts.of_mem member
    obtain ⟨token, more, ownFront, start⟩ :=
      front_of_function_part (piece.tolerant [] #[] 0 (by decide))
    have whole : own = token :: more := by simpa using ownFront
    subst whole
    have same : before = front := eq_of_position_eq distinct split (place.symm.trans start.symm)
    subst same
    exact ⟨earlier, earlierRemarks, keptFront, first⟩
  · rintro ⟨earlier, earlierRemarks, keptBefore, first⟩
    obtain ⟨more, moreRemarks, keptMore, rest, all⟩ := first.of_append parts
    generalize tokens : keyword :: name :: after = full at rest
    cases rest with
    | nil => cases tokens
    | @cons answer values _ _ own _ later _ piece pieces =>
        have run := piece.tolerant later #[] 0 (by decide)
        rw [← tokens] at run
        obtain ⟨node, rfl, place, called⟩ := function_of_part rfl isKeyword isName run
        refine ⟨node, List.mem_filter.2 ⟨?_, ?_⟩, place, called⟩
        · rw [Tree.Contract.functions, all]
          simp
        · simpa [called] using nonempty

/-- Tokens that are read without errors as a contract and nothing else. -/
def ReadsAlone [StackRoom] (filename : String) (contract : Tree.Contract)
    (tokens : List Token) : Prop :=
  (Reading.ofTokens filename tokens).1.success = true ∧
    (Reading.ofTokens filename tokens).1.unit = some ⟨filename, [.contract contract]⟩

instance [StackRoom] (filename : String) (contract : Tree.Contract) (tokens : List Token) :
    Decidable (ReadsAlone filename contract tokens) :=
  inferInstanceAs (Decidable (_ ∧ _))

/-- The parts between the braces of a contract are read as its members. -/
theorem readsAlone_of_parts [StackRoom] {node : Tree.Contract} {head : List Token}
    {opener closer : Token}
    (headed : ContractHead node head opener) {members : List Tree.Member}
    {remarks : List Remark} {body kept : List Token}
    (parts : Pieces contractPart members remarks body kept)
    (closes : closer.kind = .closing .brace) (filename : String)
    (clean : Token.withoutComments (head ++ opener :: (body ++ [closer])) =
      head ++ opener :: (body ++ [closer])) :
    ReadsAlone filename { node with members := members }
      (head ++ opener :: (body ++ [closer])) := by
  have split := clean.trans (List.append_nil _).symm
  have pieces := Pieces.single (headed.piece parts closes)
  constructor
  · exact success_iff_elements.2 ⟨_, _, _, _, [], split, rfl, pieces⟩
  · rw [reading_of_elements split rfl pieces]
    rfl

/-- Where a contract stands in a source: the tokens around it, its head, its braces and
what is between them. -/
structure Span where
  lead : List Token
  head : List Token
  opener : Token
  body : List Token
  closer : Token
  trail : List Token

namespace Span

def tokens (span : Span) : List Token :=
  span.lead ++ (span.head ++ span.opener :: (span.body ++ span.closer :: span.trail))

/-- The contract alone, cut off behind the first tokens of its body and closed there. -/
def cut (span : Span) (before : List Token) : List Token :=
  span.head ++ span.opener :: (before ++ [span.closer])

/-- A contract stands between the braces: cut off behind the brace that opens it, it is
read without members, and cut off nowhere it is read as it is. -/
structure Holds [StackRoom] (filename : String) (contract : Tree.Contract) (span : Span) :
    Prop where
  begins : span.head.head?.map Token.position = some contract.position
  opens : span.opener.kind = .opening .brace
  closes : span.closer.kind = .closing .brace
  bare : ReadsAlone filename { contract with members := [] } (span.cut [])
  whole : ReadsAlone filename contract (span.cut span.body)

end Span

/-- In a source that reads without errors, a function that is written in a contract is found
exactly when the contract reads without errors where it is cut off in front of it. -/
theorem function_found_iff_cut_reads [StackRoom] (filename source : String) (tokens : List Token)
    (lexed : Token.tokenize source = .ok tokens)
    (success : (Reading.ofSource filename source).success = true) :
    ∃ unit, (Reading.ofSource filename source).unit = some unit ∧
      ∀ contract ∈ unit.contracts, ∃ span : Span,
        span.tokens = tokens ∧ span.Holds filename contract ∧
        ∀ before keyword name after, span.body = before ++ keyword :: name :: after →
          keyword.isWord "function" → name.kind = .identifier →
          ((∃ function ∈ contract.named, function.position = keyword.position ∧
              function.name = name.text) ↔
            (Reading.ofTokens filename (span.cut before)).1.success = true) := by
  have same : Reading.ofSource filename source = (Reading.ofTokens filename tokens).1 := by
    rw [Reading.ofSource, lexed]
  rw [same] at success ⊢
  obtain ⟨found, remarks, taken, kept, rest, split, ended, pieces⟩ :=
    success_iff_elements.1 success
  refine ⟨⟨filename, found⟩, by rw [reading_of_elements split ended pieces], ?_⟩
  intro contract member
  have element : Tree.Element.contract contract ∈ found := by
    obtain ⟨element, member, chosen⟩ := List.mem_filterMap.1 member
    cases element <;> simp_all
  obtain ⟨_, _, lead, _, itsRemarks, own, _, after, rfl, -, piece⟩ := pieces.of_mem element
  obtain ⟨head, opener, body, closer, rfl, closes, headed, partRemarks, keptBody, parts⟩ :=
    exists_contract piece
  rw [Token.withoutComments_of_tokenize lexed] at split
  have whole : lead ++ (head ++ opener :: (body ++ closer :: (after ++ rest))) = tokens := by
    simpa using split.symm
  have inside {list : List Token} (sub : ∀ token ∈ list, token ∈ body) :
      Token.withoutComments (head ++ opener :: (list ++ [closer])) =
        head ++ opener :: (list ++ [closer]) := by
    apply Token.withoutComments_of_mem lexed
    intro token member
    rw [← whole]
    simp only [List.mem_append, List.mem_cons, List.not_mem_nil, or_false] at member
    rcases member with inHead | rfl | inList | rfl
    · simp [inHead]
    · simp
    · simp [sub token inList]
    · simp
  refine ⟨⟨lead, head, opener, body, closer, after ++ rest⟩, whole,
    ⟨?_, headed.opens, closes, ?_, ?_⟩, ?_⟩
  · obtain ⟨token, more, rfl, -, place⟩ := headed.begins
    simp [place]
  · exact readsAlone_of_parts headed .nil closes filename (inside nofun)
  · exact readsAlone_of_parts headed parts closes filename (inside fun _ member => member)
  · rintro before keyword name after rfl isKeyword isName
    -- No two tokens of a text share a position, so a function at the position of the keyword
    -- is the part that begins there.
    have within : (before ++ keyword :: name :: after).Sublist tokens := by
      rw [← whole]
      apply List.Sublist.trans _ (List.sublist_append_right lead _)
      apply List.Sublist.trans _ (List.sublist_append_right head _)
      exact .cons _ (List.sublist_append_left _ _)
    have distinct := (Token.nodup_positions lexed).sublist (within.map Token.position)
    have member : name ∈ tokens := within.subset (by simp)
    exact (found_iff_parts parts distinct isKeyword isName
      (Token.text_ne_of_identifier lexed member isName)).trans
        (headed.cut_iff closes parts (inside fun _ member => List.mem_append_left _ member)).symm

namespace Written

/-- A contract in which the semicolon between a variable and a function is left out. -/
def openSource : String :=
  "contract C \x7b function bar() public; uint x = 1 function foo() public \x7b \x7d uint y; \x7d"

/-- Where that contract stands. -/
def openSpan : Span where
  lead := []
  head := [word "contract" ⟨1, 1⟩, word "C" ⟨1, 10⟩]
  opener := ⟨.opening .brace, "\x7b", ⟨1, 12⟩⟩
  body :=
    [word "function" ⟨1, 14⟩, word "bar" ⟨1, 23⟩, ⟨.opening .paren, "(", ⟨1, 26⟩⟩,
     ⟨.closing .paren, ")", ⟨1, 27⟩⟩, word "public" ⟨1, 29⟩, ⟨.semicolon, ";", ⟨1, 35⟩⟩,
     word "uint" ⟨1, 37⟩, word "x" ⟨1, 42⟩, ⟨.operator, "=", ⟨1, 44⟩⟩, ⟨.number, "1", ⟨1, 46⟩⟩,
     word "function" ⟨1, 48⟩, word "foo" ⟨1, 57⟩, ⟨.opening .paren, "(", ⟨1, 60⟩⟩,
     ⟨.closing .paren, ")", ⟨1, 61⟩⟩, word "public" ⟨1, 63⟩, ⟨.opening .brace, "\x7b", ⟨1, 70⟩⟩,
     ⟨.closing .brace, "\x7d", ⟨1, 72⟩⟩, word "uint" ⟨1, 74⟩, word "y" ⟨1, 79⟩,
     ⟨.semicolon, ";", ⟨1, 80⟩⟩]
  closer := ⟨.closing .brace, "\x7d", ⟨1, 82⟩⟩
  trail := [⟨.endOfFile, "", ⟨1, 83⟩⟩]

/-- What is read of it: the variable has taken all the rest. -/
def openContract : Tree.Contract where
  name := "C"
  kind := .contract
  isAbstract := false
  bases := []
  members :=
    [.function ⟨"bar", .function, "", none, some .publicly, none, [], false, none, false, ⟨1, 14⟩⟩,
     .stateVariable ⟨"x", "uint", none, false, false, ⟨1, 37⟩⟩]
  position := ⟨1, 1⟩

theorem tokenize_openSource : Token.tokenize openSource = .ok openSpan.tokens :=
  Token.tokenize_eq_ok_iff.2 (by decide +kernel)

open StackRoom in
theorem ofSource_openSource :
    Reading.ofSource "C.sol" openSource = ⟨some ⟨"C.sol", [.contract openContract]⟩, []⟩ := by
  decide +kernel

end Written

open StackRoom in
/-- Each function of that contract is found exactly when nothing in front of it is open. -/
theorem openSource_found_iff :
    ∃ span : Span, span.tokens = Written.openSpan.tokens ∧
      span.Holds "C.sol" Written.openContract ∧
      ∀ before keyword name after, span.body = before ++ keyword :: name :: after →
        keyword.isWord "function" → name.kind = .identifier →
        ((∃ function ∈ Written.openContract.named, function.position = keyword.position ∧
            function.name = name.text) ↔
          (Reading.ofTokens "C.sol" (span.cut before)).1.success = true) := by
  have success : (Reading.ofSource "C.sol" Written.openSource).success = true := by
    rw [Written.ofSource_openSource]
    rfl
  obtain ⟨unit, read, found⟩ := function_found_iff_cut_reads "C.sol" Written.openSource
    Written.openSpan.tokens Written.tokenize_openSource success
  rw [Written.ofSource_openSource] at read
  obtain rfl : _ = unit := Option.some.inj read
  exact found Written.openContract (List.mem_singleton.2 rfl)

open StackRoom in
/-- The function behind the place where the semicolon is left out is lost, and nothing is
reported. -/
theorem openSource_lost :
    Token.tokenize Written.openSource = .ok Written.openSpan.tokens ∧
      Reading.ofSource "C.sol" Written.openSource =
        ⟨some ⟨"C.sol", [.contract Written.openContract]⟩, []⟩ ∧
      Written.openSpan.Holds "C.sol" Written.openContract ∧
      ∃ before keyword name paren after,
        Written.openSpan.body = before ++ keyword :: name :: paren :: after ∧ Balanced before ∧
        keyword.isWord "function" ∧ name.kind = .identifier ∧ paren.kind = .opening .paren ∧
        ∀ function ∈ Written.openContract.functions, function.position ≠ keyword.position := by
  refine ⟨Written.tokenize_openSource, Written.ofSource_openSource,
    ⟨rfl, rfl, rfl, by decide +kernel, by decide +kernel⟩, Written.openSpan.body.take 10,
    _, _, _, _, rfl, ?_, rfl, rfl, rfl, by decide⟩
  have tail : Balanced [Written.word "public" ⟨1, 29⟩, ⟨.semicolon, ";", ⟨1, 35⟩⟩,
      Written.word "uint" ⟨1, 37⟩, Written.word "x" ⟨1, 42⟩, ⟨.operator, "=", ⟨1, 44⟩⟩,
      ⟨.number, "1", ⟨1, 46⟩⟩] := by
    repeat' apply Balanced.plain rfl
    exact .nil
  exact .plain rfl (.plain rfl (.group rfl .nil rfl tail))

end Interlock
