import Interlock.Proofs.Depth
import Interlock.Proofs.Order

/-!
# Parts behind a malformed part

A contract is written here as a list of parts, each either accepted or a malformed declaration.  A
malformed declaration is taken with its semicolon before it is found to be one, and the search for
the next statement begins behind that semicolon.  So its fault is reported, but the part that
stands directly behind it is passed over.

A malformed part costs nothing exactly where nothing stands behind it.  The exception is a part
in which the search stops too early, at a brace or a semicolon of its own.
-/

namespace Interlock.Written

open Interlock.Parser

/-! ## Contracts of parts -/

variable [StackRoom]

/-- A declaration that begins with no keyword and declares nothing. -/
structure Malformed where
  first : Token
  more : List Token
  semicolon : Token
  fault : Fault
  begins : first.kind = .identifier
  unannounced : memberParser? first (more ++ [semicolon]).head? = none
  phrase : Reader.Phrase (first :: more)
  ends : semicolon.kind = .semicolon
  refused : Tree.Variable.ofTokens first (first :: more) = .error fault

/-- A part of a contract: one that is read strictly as a whole, or a malformed declaration. -/
inductive Part where
  | accepted (tokens : List Token) (node : Tree.Member)
      (reads : contractPart .strict ⟨tokens, #[], 0⟩ = .ok (some node) ⟨[], #[], 0⟩)
  | malformed (declaration : Malformed)

namespace Part

def tokens : Part → List Token
  | .accepted tokens _ _ => tokens
  | .malformed declaration => declaration.first :: (declaration.more ++ [declaration.semicolon])

/-- The member that an accepted part declares. -/
def node? : Part → Option Tree.Member
  | .accepted _ node _ => some node
  | .malformed _ => none

/-- What is wrong with a malformed part. -/
def fault? : Part → Option Fault
  | .accepted _ _ _ => none
  | .malformed declaration => some declaration.fault

/-- A part that ends where the search for the next statement stops first. -/
def Whole (part : Part) : Prop :=
  ∀ rest, nextStatementFrom 0 (part.tokens ++ rest) = rest

/-- A part with a brace in it, or with a semicolon before its last token. -/
def Tangled (part : Part) : Prop :=
  ∃ token ∈ part.tokens.dropLast,
    token.kind = .opening .brace ∨ token.kind = .closing .brace ∨ token.kind = .semicolon

end Part

/-- The parts that are read, where a part behind a malformed one is passed over.  The flag says
whether the first one is. -/
def kept : Bool → List Part → List Part
  | _, [] => []
  | true, _ :: parts => kept false parts
  | false, part :: parts => part :: kept part.fault?.isSome parts

/-- The parts that are passed over. -/
def passed : Bool → List Part → List Part
  | _, [] => []
  | true, part :: parts => part :: passed false parts
  | false, part :: parts => passed part.fault?.isSome parts

/-- Whether what stands behind some parts is passed over. -/
def pending : Bool → List Part → Bool
  | skipping, [] => skipping
  | true, _ :: parts => pending false parts
  | false, part :: parts => pending part.fault?.isSome parts

/-- A contract of parts, up to the end mark. -/
structure Draft where
  position : Position
  name : String
  namePosition : Position
  opener : Token
  parts : List Part
  closer : Token
  endMark : Token
  opens : opener.kind = .opening .brace
  closes : closer.kind = .closing .brace
  ends : endMark.kind = .endOfFile

namespace Draft

/-- The tokens behind the opening brace. -/
def body (draft : Draft) : List Token :=
  draft.parts.flatMap (·.tokens) ++ [draft.closer, draft.endMark]

def tokens (draft : Draft) : List Token :=
  word "contract" draft.position :: word draft.name draft.namePosition :: draft.opener ::
    draft.body

/-- The contract that has the members of some parts. -/
def node (draft : Draft) (parts : List Part) : Tree.Contract where
  name := draft.name
  kind := .contract
  isAbstract := false
  bases := []
  members := parts.filterMap (·.node?)
  position := draft.position

/-- Every malformed part of a contract is reported by an error at one of its tokens, and the
members are those of the accepted parts. -/
structure Told (draft : Draft) (reading : Reading) : Prop where
  reported : ∀ part ∈ draft.parts, part.fault? ≠ none →
    ∃ finding ∈ reading.findings, finding.isError ∧
      ∃ token ∈ part.tokens, finding.token = some token
  members : ∃ unit primary, reading.unit = some unit ∧ unit.primary? = some primary ∧
    primary.members = draft.parts.filterMap (·.node?)

end Draft

/-! ## Reading a part -/

section Reading

variable {rest : List Token} {findings : Array Finding} {errors : Nat}
variable (kind : Tree.ContractKind) (name : String) (members : Array Tree.Member)

/-- A part that is accepted is a piece that draws no remark. -/
theorem piece_of_accepted {tokens : List Token} {node : Tree.Member}
    (reads : contractPart .strict ⟨tokens, #[], 0⟩ = .ok (some node) ⟨[], #[], 0⟩) :
    ∃ kept, Piece contractPart (some node) [] tokens kept := by
  have tolerant : contractPart .tolerant ⟨tokens, #[], 0⟩ = .ok (some node) ⟨[], #[], 0⟩ := by
    have follows := agrees_contractPart.follows ⟨tokens, #[], 0⟩ (Nat.zero_lt_succ _)
    rw [reads] at follows
    generalize contractPart .tolerant ⟨tokens, #[], 0⟩ = run at follows
    cases follows
    rfl
  obtain ⟨remarks, taken, kept, split, piece⟩ :=
    exists_part ⟨tolerant, Nat.zero_lt_succ _, rfl⟩
  have whole : tokens = taken := by simpa using split
  subst whole
  have again := piece.tolerant [] #[] 0 (Nat.zero_lt_succ _)
  rw [List.append_nil, tolerant] at again
  have silent : remarks = [] := by
    simpa [State.note] using again
  exact ⟨kept, silent ▸ piece⟩

theorem Part.begins (part : Part) : BeginsPiece part.tokens := by
  cases part with
  | malformed declaration => exact ⟨_, _, rfl, .inl declaration.begins⟩
  | accepted tokens node reads =>
      obtain ⟨kept, piece⟩ := piece_of_accepted reads
      exact piece.begins

theorem bodyStep_accepted {tokens : List Token} {node : Tree.Member}
    (reads : contractPart .strict ⟨tokens, #[], 0⟩ = .ok (some node) ⟨[], #[], 0⟩)
    (limit : errors < errorLimit) :
    bodyStep .tolerant kind name members ⟨tokens ++ rest, findings, errors⟩ =
      .ok (.yield (members.push node)) ⟨rest, findings, errors⟩ := by
  obtain ⟨kept, piece⟩ := piece_of_accepted reads
  obtain ⟨token, more, rfl, kinds⟩ := piece.begins
  have run := piece.tolerant rest findings errors limit
  rw [State.note_nil] at run
  exact bodyStep_part ⟨token, more ++ rest, rfl, kinds⟩ (fun _ => limit) run

/-- A malformed declaration is taken to its semicolon, and refused. -/
theorem contractPart_malformed (declaration : Malformed) :
    contractPart .tolerant ⟨(Part.malformed declaration).tokens ++ rest, findings, errors⟩ =
      .error declaration.fault ⟨rest, findings, errors⟩ := by
  obtain ⟨first, more, semicolon, fault, begins, unannounced, phrase, ends, refused⟩ :=
    declaration
  have split : (first :: (more ++ [semicolon])) ++ rest =
      first :: (more ++ semicolon :: rest) := by simp
  have absent : memberParser? first (more ++ semicolon :: rest).head? = none := by
    rw [← unannounced]
    cases more <;> rfl
  have read : Reader.statement (first :: (more ++ semicolon :: rest)) =
      .ok (first :: more) rest :=
    Reader.statement_eq_ok_iff.2 ⟨phrase, semicolon, ends, rfl⟩
  rw [Part.tokens, split, contractPart_eq_piece,
    piece_of_statement dispatches_member begins absent read]
  exact bind_of_error (by rw [stateVariable, refused]; rfl)

/-- Behind a malformed declaration the next statement is looked for. -/
theorem bodyStep_malformed (declaration : Malformed) (limit : errors < errorLimit) :
    bodyStep .tolerant kind name members
        ⟨(Part.malformed declaration).tokens ++ rest, findings, errors⟩ =
      .ok (.yield members)
        ⟨nextStatementFrom 0 rest, findings.push (.fault declaration.fault), errors + 1⟩ := by
  have refused : contractPart .tolerant
      ⟨(Part.malformed declaration).tokens ++ rest, findings, errors⟩ =
        .error declaration.fault ⟨rest, findings, errors⟩ := contractPart_malformed declaration
  have known := Tree.Variable.showsIn_ofTokens (List.cons_ne_nil _ _) _ declaration.refused
  have room : declaration.fault.problem ≠ .tooDeep := known.1.2
  refine (bodyStep_of_memberInto ?_ ?_ limit).trans
    (bind_of_ok (bind_of_ok (attempt_of_error refused room)))
  · simp [declaration.begins]
  · simp [declaration.begins]

/-- The tokens from where a reading goes on, at a part or at the next statement. -/
def goingOn (skipping : Bool) (tokens : List Token) : List Token :=
  if skipping then nextStatementFrom 0 tokens else tokens

/-- The findings on the malformed ones of some parts. -/
def faults (parts : List Part) : List Finding := (parts.filterMap (·.fault?)).map .fault

theorem goingOn_length (part : Part) (rest : List Token) :
    (goingOn part.fault?.isSome rest).length < (part.tokens ++ rest).length := by
  have taken : 0 < part.tokens.length := by
    obtain ⟨token, more, shape, -⟩ := part.begins
    rw [shape]
    exact Nat.zero_lt_succ _
  have atMost : (goingOn part.fault?.isSome rest).length ≤ rest.length := by
    rw [goingOn]
    split
    · exact (walk_nextStatementFrom 0 rest).length_le
    · exact Nat.le_refl _
  rw [List.length_append]
  omega

/-- A part that is not passed over is read in one step. -/
theorem bodyStep_read (part : Part) (limit : errors < errorLimit) :
    bodyStep .tolerant kind name members ⟨part.tokens ++ rest, findings, errors⟩ =
      .ok (.yield (members ++ part.node?.toArray))
        ⟨goingOn part.fault?.isSome rest, findings ++ (faults [part]).toArray,
          errors + (faults [part]).length⟩ := by
  cases part with
  | accepted tokens node reads =>
      simpa [Part.tokens, Part.node?, Part.fault?, faults, goingOn] using
        bodyStep_accepted kind name members reads limit
  | malformed declaration =>
      simpa [Part.node?, Part.fault?, faults, goingOn] using
        bodyStep_malformed kind name members declaration limit

/-- Parts are read one by one, where those that are passed over are passed over as a whole. -/
theorem loop_parts (skipping : Bool) (parts : List Part)
    (whole : ∀ part ∈ passed skipping parts, part.Whole)
    (limit : errors + (faults (kept skipping parts)).length < errorLimit) :
    loop members (bodyStep .tolerant kind name)
        ⟨goingOn skipping (parts.flatMap (·.tokens) ++ rest), findings, errors⟩ =
      loop (members ++ ((kept skipping parts).filterMap (·.node?)).toArray)
        (bodyStep .tolerant kind name)
        ⟨goingOn (pending skipping parts) rest,
          findings ++ (faults (kept skipping parts)).toArray,
          errors + (faults (kept skipping parts)).length⟩ := by
  induction parts generalizing skipping members findings errors with
  | nil => simp [kept, pending, faults]
  | cons part parts ih =>
      rw [List.flatMap_cons, List.append_assoc]
      cases skipping with
      | true =>
          have skipped : goingOn true (part.tokens ++ (parts.flatMap (·.tokens) ++ rest)) =
              goingOn false (parts.flatMap (·.tokens) ++ rest) :=
            whole part List.mem_cons_self _
          rw [skipped, ih]
          · rfl
          · exact fun other member => whole other (List.mem_cons_of_mem _ member)
          · exact limit
      | false =>
          have own : faults (kept false (part :: parts)) =
              faults [part] ++ faults (kept part.fault?.isSome parts) := by
            rw [kept, ← List.singleton_append, faults, List.filterMap_append, List.map_append]
            rfl
          rw [own, List.length_append] at limit
          have below : errors < errorLimit := by omega
          refine (loop_of_yield (bodyStep_read kind name members part below)
            (goingOn_length part _)).trans ?_
          rw [ih]
          · rw [own]
            cases found : part.node? <;>
              simp [kept, pending, found, Nat.add_assoc]
          · exact whole
          · omega

end Reading

/-! ## What is passed over -/

/-- Where nothing is passed over, all parts are read. -/
theorem kept_of_passed {skipping : Bool} {parts : List Part}
    (none : passed skipping parts = []) : kept skipping parts = parts := by
  induction parts generalizing skipping with
  | nil => rfl
  | cons part parts ih =>
      cases skipping with
      | true => cases none
      | false => rw [kept, ih none]

/-- The first part that is passed over stands behind parts of which none is, the last of them
malformed. -/
theorem exists_first_passed {skipping : Bool} {parts : List Part}
    (some : passed skipping parts ≠ []) :
    ∃ front next later, parts = front ++ next :: later ∧ passed skipping front = [] ∧
      pending skipping front = true := by
  induction parts generalizing skipping with
  | nil => exact absurd rfl some
  | cons part parts ih =>
      cases skipping with
      | true => exact ⟨[], part, parts, rfl, rfl, rfl⟩
      | false =>
          obtain ⟨front, next, later, split, nothing, waiting⟩ := ih some
          exact ⟨part :: front, next, later, congrArg (part :: ·) split, nothing, waiting⟩

theorem exists_malformed_last {skipping : Bool} {front : List Part} (some : front ≠ [])
    (nothing : passed skipping front = []) (waiting : pending skipping front = true) :
    ∃ before bad, front = before ++ [bad] ∧ bad.fault? ≠ none := by
  induction front generalizing skipping with
  | nil => exact absurd rfl some
  | cons part front ih =>
      cases skipping with
      | true => cases nothing
      | false =>
          cases front with
          | nil => exact ⟨[], part, rfl, Option.isSome_iff_ne_none.1 waiting⟩
          | cons next later =>
              obtain ⟨before, bad, split, isBad⟩ := ih (by simp) nothing waiting
              exact ⟨part :: before, bad, congrArg (part :: ·) split, isBad⟩

/-- The parts that are read are some of all parts. -/
theorem kept_sublist (skipping : Bool) (parts : List Part) :
    (kept skipping parts).Sublist parts := by
  induction parts generalizing skipping with
  | nil => exact .slnil
  | cons part parts ih =>
      cases skipping with
      | true => exact (ih false).cons part
      | false => exact (ih _).cons_cons part

/-! ## The next statement -/

section NextStatement

omit [StackRoom]

variable {token : Token} {rest : List Token}

theorem nextStatementFrom_closer (closes : token.kind = .closing .brace) :
    nextStatementFrom 0 (token :: rest) = token :: rest := by
  simp only [nextStatementFrom, closes]

theorem nextStatementFrom_semicolon (ends : token.kind = .semicolon) :
    nextStatementFrom 0 (token :: rest) = rest := by
  simp only [nextStatementFrom, ends]

/-- The front token is passed over, unless it is the end or a closing brace. -/
theorem mem_of_nextStatementFrom {other : Token} (notEnd : token.kind ≠ .endOfFile)
    (notCloser : token.kind ≠ .closing .brace)
    (member : other ∈ nextStatementFrom 0 (token :: rest)) : other ∈ rest := by
  have shorter : (nextStatementFrom 0 (token :: rest)).length < (token :: rest).length :=
    nextStatementFrom_length notEnd notCloser
  rcases List.suffix_cons_iff.1 (walk_nextStatementFrom 0 (token :: rest)).suffix with
    same | behind
  · rw [same] at shorter
    exact absurd shorter (lt_irrefl _)
  · exact behind.mem member

/-- Tokens that are no end mark, semicolon or brace are passed over. -/
theorem nextStatementFrom_append {tokens : List Token}
    (plain : ∀ token ∈ tokens, token.kind ≠ .endOfFile ∧ token.kind ≠ .semicolon ∧
      token.kind ≠ .opening .brace ∧ token.kind ≠ .closing .brace) :
    nextStatementFrom 0 (tokens ++ rest) = nextStatementFrom 0 rest := by
  induction tokens with
  | nil => rfl
  | cons token tokens ih =>
      obtain ⟨notEnd, notSemicolon, notOpening, notClosing⟩ := plain token List.mem_cons_self
      have step : nextStatementFrom 0 (token :: (tokens ++ rest)) =
          nextStatementFrom 0 (tokens ++ rest) := by
        rw [nextStatementFrom.eq_def]
        dsimp only
        split <;> simp_all
      rw [List.cons_append, step]
      exact ih fun other member => plain other (List.mem_cons_of_mem _ member)

/-- No end mark is among balanced tokens. -/
theorem not_end_of_balanced {tokens : List Token} (balanced : Balanced tokens) :
    ∀ token ∈ tokens, token.kind ≠ .endOfFile := by
  induction balanced with
  | nil => exact fun _ member => absurd member List.not_mem_nil
  | plain plain _ ih =>
      refine List.forall_mem_cons.2 ⟨?_, ih⟩
      intro isEnd
      rw [isEnd] at plain
      cases plain
  | group opens _ closes _ inside behind =>
      refine List.forall_mem_cons.2 ⟨by simp [opens], List.forall_mem_append.2 ⟨inside, ?_⟩⟩
      exact List.forall_mem_cons.2 ⟨by simp [closes], behind⟩

theorem not_end_of_phrase {phrase : List Token} (reads : Reader.Phrase phrase) :
    ∀ token ∈ phrase, token.kind ≠ .endOfFile := by
  induction reads with
  | nil => exact fun _ member => absurd member List.not_mem_nil
  | token _ _ _ notEnd _ ih => exact List.forall_mem_cons.2 ⟨notEnd, ih⟩
  | group encloses _ ih =>
      exact List.forall_mem_append.2 ⟨not_end_of_balanced encloses.balanced_tokens, ih⟩

end NextStatement

namespace Part

/-- The fault of a malformed part shows at one of its tokens. -/
theorem fault_shows {part : Part} {fault : Fault} (found : part.fault? = some fault) :
    ∃ token ∈ part.tokens, fault.token = some token := by
  cases part with
  | accepted => cases found
  | malformed declaration =>
      cases found
      obtain ⟨-, token, member, place⟩ :=
        Tree.Variable.showsIn_ofTokens (List.cons_ne_nil _ _) _ declaration.refused
      refine ⟨token, ?_, place⟩
      rw [tokens, ← List.cons_append]
      exact List.mem_append_left _ member

/-- An accepted part begins with a token at which its member stands. -/
theorem front_of_accepted {tokens : List Token} {node : Tree.Member}
    (reads : contractPart .strict ⟨tokens, #[], 0⟩ = .ok (some node) ⟨[], #[], 0⟩) :
    ∃ token more, tokens = token :: more ∧
      (token.kind = .identifier ∨ token.kind = .semicolon) ∧ node.position = token.position := by
  obtain ⟨kept, piece⟩ := piece_of_accepted reads
  obtain ⟨token, more, rfl, kinds⟩ := piece.begins
  have run := piece.tolerant [] #[] 0 (Nat.zero_lt_succ _)
  exact ⟨token, more, rfl, kinds, (member_of_part run).1⟩

/-- Where no brace and no semicolon stands in the way, the search stops behind a malformed
declaration. -/
theorem whole_of_not_tangled {part : Part} (isBad : part.fault? ≠ none)
    (plain : ¬ part.Tangled) : part.Whole := by
  intro rest
  cases part with
  | accepted => exact absurd rfl isBad
  | malformed declaration =>
      have shape : (Part.malformed declaration).tokens =
          (declaration.first :: declaration.more) ++ [declaration.semicolon] := rfl
      have passable : ∀ token ∈ declaration.first :: declaration.more,
          token.kind ≠ .endOfFile ∧ token.kind ≠ .semicolon ∧
            token.kind ≠ .opening .brace ∧ token.kind ≠ .closing .brace := by
        intro token member
        refine ⟨not_end_of_phrase declaration.phrase token member, ?_, ?_, ?_⟩
        all_goals
          intro isKind
          refine plain ⟨token, ?_, by simp [isKind]⟩
          rw [shape, List.dropLast_concat]
          exact member
      rw [shape, List.append_assoc, nextStatementFrom_append passable]
      exact nextStatementFrom_semicolon declaration.ends

end Part

/-! ## Reading a draft -/

section Drafts

variable (path : String) {draft : Draft} {tokens : List Token}

/-- The parts at the front of a body are read from the start. -/
theorem loop_front (name : String) (front : List Part) (rest : List Token)
    (whole : ∀ part ∈ passed false front, part.Whole)
    (limit : (faults (kept false front)).length < errorLimit) :
    loop #[] (bodyStep .tolerant .contract name) ⟨front.flatMap (·.tokens) ++ rest, #[], 0⟩ =
      loop ((kept false front).filterMap (·.node?)).toArray (bodyStep .tolerant .contract name)
        ⟨goingOn (pending false front) rest, (faults (kept false front)).toArray,
          (faults (kept false front)).length⟩ := by
  refine (loop_parts .contract name #[] false front whole (by omega)).trans ?_
  simp

/-- When the body of a draft is read, a reading goes on behind it. -/
theorem loop_of_body (written : Token.withoutComments tokens = draft.tokens)
    {members : Array Tree.Member} {after : State}
    (shorter : after.rest.length ≤ draft.body.length)
    (body : loop #[] (bodyStep .tolerant .contract draft.name) ⟨draft.body, #[], 0⟩ =
      .ok members after) :
    loop #[] (unitStep .tolerant) (.ofTokens tokens) =
      loop #[.contract ⟨draft.name, .contract, false, [], members.toList, draft.position⟩]
        (unitStep .tolerant) after := by
  have contract : Parser.contract .tolerant .contract false (word "contract" draft.position)
      ⟨draft.tokens.tail, #[], 0⟩ =
        .ok ⟨draft.name, .contract, false, [], members.toList, draft.position⟩ after :=
    (contract_front _ _ _ draft.opens).trans (bind_of_ok body)
  rw [State.ofTokens, written]
  refine loop_of_yield (unitStep_contract _ (Nat.zero_lt_succ _) contract) ?_
  simp only [Draft.tokens, List.length_cons]
  omega

/-- Where all that is passed over is passed over as a whole, the other parts are read, and
nothing else is found. -/
theorem reading_of_whole (written : Token.withoutComments tokens = draft.tokens)
    (few : (draft.parts.filterMap (·.fault?)).length < errorLimit)
    (whole : ∀ part ∈ passed false draft.parts, part.Whole) :
    Reading.ofTokens path tokens =
      (⟨some ⟨path, [.contract (draft.node (kept false draft.parts))]⟩,
        faults (kept false draft.parts)⟩, [draft.endMark]) := by
  have limit : (faults (kept false draft.parts)).length < errorLimit := by
    have fewer := ((kept_sublist false draft.parts).filterMap (·.fault?)).length_le
    rw [faults, List.length_map]
    omega
  have stays (skipping : Bool) :
      goingOn skipping [draft.closer, draft.endMark] = [draft.closer, draft.endMark] := by
    cases skipping with
    | false => rfl
    | true => exact nextStatementFrom_closer draft.closes
  have front := loop_front draft.name draft.parts [draft.closer, draft.endMark] whole limit
  rw [stays] at front
  have body := front.trans (loop_of_done (bodyStep_closer draft.closes fun _ => limit))
  have ended : AtEnd [draft.endMark] := by simp [AtEnd, draft.ends]
  have shorter : [draft.endMark].length ≤ draft.body.length := by simp [Draft.body]
  have read := reading_of_loop path
    ((loop_of_body written shorter body).trans (loop_of_done (unitStep_end ended fun _ => limit)))
  simpa [Nat.not_le.2 limit, Draft.node] using read

/-- Behind a malformed part that is read, a reading goes on where the search for the next
statement stops.  Unless it is given up, all members and findings from there on stand at tokens
from there on. -/
theorem reading_behind (written : Token.withoutComments tokens = draft.tokens)
    (few : (draft.parts.filterMap (·.fault?)).length < errorLimit)
    {front later : List Part} {next : Part} (split : draft.parts = front ++ next :: later)
    (nothing : passed false front = []) (waiting : pending false front = true)
    (goesOn : (Reading.ofTokens path tokens).1.gaveUp = false) :
    let left := nextStatementFrom 0
      (next.tokens ++ (later.flatMap (·.tokens) ++ [draft.closer, draft.endMark]))
    ∃ found more findings,
      (Reading.ofTokens path tokens).1 =
        ⟨some ⟨path, .contract ⟨draft.name, .contract, false, [],
          front.filterMap (·.node?) ++ found, draft.position⟩ :: more⟩,
          faults front ++ findings⟩ ∧
      (∀ member ∈ found, ∃ token ∈ left, member.position = token.position) ∧
      ∀ finding ∈ findings, ∀ token, finding.token = some token → token ∈ left := by
  intro left
  have all := kept_of_passed nothing
  have limit : (faults (kept false front)).length < errorLimit := by
    rw [all, faults, List.length_map]
    rw [split, List.filterMap_append, List.length_append] at few
    omega
  have parts : draft.body = front.flatMap (·.tokens) ++
      (next.tokens ++ (later.flatMap (·.tokens) ++ [draft.closer, draft.endMark])) := by
    simp [Draft.body, split]
  have start := loop_front draft.name front
    (next.tokens ++ (later.flatMap (·.tokens) ++ [draft.closer, draft.endMark]))
    (by simp [nothing]) limit
  rw [← parts, waiting, all] at start
  obtain ⟨result, after, run, reaches, -⟩ | ⟨fault, after, failed, ends⟩ :=
    (persistent_bodyStep .contract draft.name).loop (front.filterMap (·.node?)).toArray
      ⟨left, (faults front).toArray, (faults front).length⟩
  case inr =>
    have deep : loop #[] (unitStep .tolerant) (.ofTokens tokens) = .error fault after := by
      rw [State.ofTokens, written]
      exact loop_of_deep_body _ _ _ draft.opens (start.trans failed) ends.noRoom
    rw [gaveUp_of_loop path deep ends.noRoom] at goesOn
    cases goesOn
  obtain ⟨found, members, outlined⟩ := outlines_loop_behind
    (persistent_bodyStep .contract draft.name) (collects_bodyStep .contract draft.name)
    outlines_contractPart run
  have shorter : after.rest.length ≤ draft.body.length := by
    have behind := (walk_nextStatementFrom 0 (next.tokens ++
      (later.flatMap (·.tokens) ++ [draft.closer, draft.endMark]))).length_le
    have further := reaches.suffix.length_le
    rw [parts, List.length_append]
    exact (further.trans behind).trans (Nat.le_add_left _ _)
  have goes := loop_of_body written shorter (start.trans run)
  obtain ⟨elements, last, unitRun, unitReaches, -⟩ | ⟨fault, last, failed, ends⟩ :=
    persistent_unitStep.loop
      #[.contract ⟨draft.name, .contract, false, [], result.toList, draft.position⟩] after
  case inr =>
    rw [gaveUp_of_loop path (goes.trans failed) ends.noRoom] at goesOn
    cases goesOn
  obtain ⟨more, contract, -⟩ :=
    outlines_loop_behind persistent_unitStep collects_unitStep outlines_sourceElement unitRun
  obtain ⟨findings, ⟨added, -⟩, -, walk⟩ := (reaches.trans unitReaches).walk
  have read := reading_of_loop path (goes.trans unitRun)
  refine ⟨found, more, findings ++
    if errorLimit ≤ last.errors then [.tooManyErrors errorLimit] else [], ?_, ?_, ?_⟩
  · rw [read, added, contract, members]
    simp
  · intro member among
    exact outlined.along.exists_token
      (List.mem_flatMap.2 ⟨member, among, List.mem_singleton_self _⟩)
  · intro finding among token place
    rcases List.mem_append.1 among with onWalk | stop
    · exact walk.mem_of_token finding onWalk token place
    · split at stop
      · rw [List.mem_singleton.1 stop] at place
        cases place
      · cases stop

/-- Where nothing is passed over, a reading tells all. -/
theorem told_of_passed (written : Token.withoutComments tokens = draft.tokens)
    (few : (draft.parts.filterMap (·.fault?)).length < errorLimit)
    (nothing : passed false draft.parts = []) :
    draft.Told (Reading.ofTokens path tokens).1 := by
  have read := reading_of_whole path written few (by simp [nothing])
  rw [kept_of_passed nothing] at read
  rw [read]
  refine ⟨?_, _, _, rfl, rfl, rfl⟩
  intro part member isBad
  obtain ⟨fault, found⟩ := Option.ne_none_iff_exists'.1 isBad
  have reported : Finding.fault fault ∈ faults draft.parts :=
    List.mem_map_of_mem (List.mem_filterMap.2 ⟨part, member, found⟩)
  exact ⟨_, reported, rfl, Part.fault_shows found⟩

/-- A member that is told of is found where the members in front of it end. -/
theorem mem_found {earlier found later : List Tree.Member} {node : Tree.Member}
    {more : List Tree.Element} {findings : List Finding}
    (told : draft.Told ⟨some ⟨path, .contract ⟨draft.name, .contract, false, [],
      earlier ++ found, draft.position⟩ :: more⟩, findings⟩)
    (split : draft.parts.filterMap (·.node?) = earlier ++ node :: later) : node ∈ found := by
  obtain ⟨unit, primary, isUnit, isPrimary, members⟩ := told.members
  cases isUnit
  cases isPrimary
  rw [split] at members
  simp [List.append_cancel_left members]

/-- Where something is passed over, a reading does not tell all, unless the search stops inside
of what is passed over. -/
theorem tangled_of_told (written : Token.withoutComments tokens = draft.tokens)
    (distinct : (draft.tokens.map (·.position)).Nodup)
    (few : (draft.parts.filterMap (·.fault?)).length < errorLimit)
    (some : passed false draft.parts ≠ [])
    (told : draft.Told (Reading.ofTokens path tokens).1) :
    ∃ before first second later, draft.parts = before ++ first :: second :: later ∧
      first.fault? ≠ none ∧ second.fault? ≠ none ∧ second.Tangled := by
  obtain ⟨front, next, later, split, nothing, waiting⟩ := exists_first_passed some
  obtain ⟨before, bad, ends, isBad⟩ :=
    exists_malformed_last (by rintro rfl; cases waiting) nothing waiting
  have answered : ∃ unit, (Reading.ofTokens path tokens).1.unit = Option.some unit := by
    obtain ⟨unit, -, isUnit, -⟩ := told.members
    exact ⟨unit, isUnit⟩
  obtain ⟨found, more, findings, read, places, shown⟩ :=
    reading_behind path written few split nothing waiting (Reading.gaveUp_eq_false_iff.2 answered)
  rw [read] at told
  -- No two tokens share a position, so what is left behind the next part is none of its own.
  have apart : ((front.flatMap (·.tokens) ++ (next.tokens ++ (later.flatMap (·.tokens) ++
      [draft.closer, draft.endMark]))).map (·.position)).Nodup := by
    have body : draft.body = front.flatMap (·.tokens) ++ (next.tokens ++
        (later.flatMap (·.tokens) ++ [draft.closer, draft.endMark])) := by
      simp [Draft.body, split]
    rw [← body]
    exact distinct.sublist (List.Sublist.map _ (List.sublist_append_right [_, _, _] _))
  generalize later.flatMap (·.tokens) ++ [draft.closer, draft.endMark] = behind
    at places shown apart
  rw [List.map_append, List.nodup_append] at apart
  obtain ⟨-, own, across⟩ := apart
  cases next with
  | accepted taken node reads =>
      exfalso
      have split : draft.parts.filterMap (·.node?) =
          front.filterMap (·.node?) ++ node :: later.filterMap (·.node?) := by
        rw [split, List.filterMap_append]
        rfl
      have among : node ∈ found := mem_found path told split
      obtain ⟨token, left, place⟩ := places node among
      obtain ⟨first, rest, rfl, kinds, sits⟩ := Part.front_of_accepted reads
      have behindFirst : token ∈ rest ++ behind := by
        refine mem_of_nextStatementFrom ?_ ?_ left <;> rcases kinds with isKind | isKind <;>
          simp [isKind]
      refine (List.nodup_cons.1 own).1 ?_
      exact List.mem_map.2 ⟨token, behindFirst, place.symm.trans sits⟩
  | malformed declaration =>
      by_cases tangled : (Part.malformed declaration).Tangled
      · refine ⟨before, bad, _, later, ?_, isBad, by simp [Part.fault?], tangled⟩
        rw [split, ends, List.append_assoc, List.singleton_append]
      · exfalso
        rw [Part.whole_of_not_tangled (by simp [Part.fault?]) tangled] at shown
        obtain ⟨finding, reported, -, token, inside, place⟩ := told.reported
          (.malformed declaration) (by simp [split]) (by simp [Part.fault?])
        have mine := List.mem_map_of_mem (f := (·.position)) inside
        rcases List.mem_append.1 reported with early | late
        · obtain ⟨fault, among, rfl⟩ := List.mem_map.1 early
          obtain ⟨part, earlier, isFault⟩ := List.mem_filterMap.1 among
          obtain ⟨other, within, shows⟩ := Part.fault_shows isFault
          obtain rfl : other = token := Option.some.inj (shows.symm.trans place)
          have theirs := List.mem_map_of_mem (f := (·.position))
            (List.mem_flatMap.2 ⟨part, earlier, within⟩)
          exact across _ theirs _ (by simp [mine]) rfl
        · have theirs := List.mem_map_of_mem (f := (·.position)) (shown finding late token place)
          rw [List.map_append, List.nodup_append] at own
          exact own.2.2 _ mine _ theirs rfl

end Drafts

end Interlock.Written

namespace Interlock

open Interlock.Parser

/-- Where no part stands behind a malformed one, all malformed parts are reported and no
accepted part is lost; and only there, unless one malformed part stands behind another and is
tangled.  A malformed part takes the part behind it along: where those parts are passed over as
a whole, the reading is that of the parts without them. -/
theorem malformed_part_takes_next [StackRoom] (path : String) (draft : Written.Draft)
    (tokens : List Token)
    (written : Token.withoutComments tokens = draft.tokens)
    (distinct : (draft.tokens.map (·.position)).Nodup)
    (few : (draft.parts.filterMap (·.fault?)).length < 100) :
    (Written.passed false draft.parts = [] → draft.Told (Reading.ofTokens path tokens).1) ∧
    (draft.Told (Reading.ofTokens path tokens).1 →
      Written.passed false draft.parts = [] ∨
      ∃ before first second later, draft.parts = before ++ first :: second :: later ∧
        first.fault? ≠ none ∧ second.fault? ≠ none ∧ second.Tangled) ∧
    ((∀ part ∈ Written.passed false draft.parts, part.Whole) →
      Reading.ofTokens path tokens =
        (⟨some ⟨path, [.contract (draft.node (Written.kept false draft.parts))]⟩,
          ((Written.kept false draft.parts).filterMap (·.fault?)).map .fault⟩,
          [draft.endMark])) := by
  refine ⟨Written.told_of_passed path written few, ?_, Written.reading_of_whole path written few⟩
  intro told
  refine or_iff_not_imp_left.2 fun some => ?_
  exact Written.tangled_of_told path written distinct few some told

namespace Written

open StackRoom

/-- A contract in which a variable without a name stands in front of a function. -/
def namelessSource : String := "contract C \x7b uint = 1; function f() public \x7b \x7d \x7d"

/-- The variable without a name. -/
def nameless : Malformed where
  first := word "uint" ⟨1, 14⟩
  more := [⟨.operator, "=", ⟨1, 19⟩⟩, ⟨.number, "1", ⟨1, 21⟩⟩]
  semicolon := ⟨.semicolon, ";", ⟨1, 22⟩⟩
  fault := ⟨.expectedVariableName "uint", some ⟨.operator, "=", ⟨1, 19⟩⟩⟩
  begins := rfl
  unannounced := by decide
  phrase := by
    refine .token ?_ ?_ ?_ ?_ (.token ?_ ?_ ?_ ?_ (.token ?_ ?_ ?_ ?_ .nil)) <;> simp [word]
  ends := rfl
  refused := by decide +kernel

/-- The parts of that contract. -/
def namelessDraft : Draft where
  position := ⟨1, 1⟩
  name := "C"
  namePosition := ⟨1, 10⟩
  opener := ⟨.opening .brace, "\x7b", ⟨1, 12⟩⟩
  parts :=
    [.malformed nameless,
     .accepted
       [word "function" ⟨1, 24⟩, word "f" ⟨1, 33⟩, ⟨.opening .paren, "(", ⟨1, 34⟩⟩,
        ⟨.closing .paren, ")", ⟨1, 35⟩⟩, word "public" ⟨1, 37⟩,
        ⟨.opening .brace, "\x7b", ⟨1, 44⟩⟩, ⟨.closing .brace, "\x7d", ⟨1, 46⟩⟩]
       (.function
        ⟨"f", .function, "", none, some .publicly, none, [], false, none, true, ⟨1, 24⟩⟩)
       (by decide +kernel)]
  closer := ⟨.closing .brace, "\x7d", ⟨1, 48⟩⟩
  endMark := ⟨.endOfFile, "", ⟨1, 49⟩⟩
  opens := rfl
  closes := rfl
  ends := rfl

theorem tokenize_namelessSource : Token.tokenize namelessSource = .ok namelessDraft.tokens :=
  Token.tokenize_eq_ok_iff.2 (by decide +kernel)

theorem whole_of_passed_namelessDraft :
    ∀ part ∈ passed false namelessDraft.parts, part.Whole := by
  intro part member rest
  obtain rfl := List.mem_singleton.1 member
  rfl

end Written

open StackRoom in
/-- The function in that contract is passed over. -/
theorem namelessSource_read_without_function :
    Token.tokenize Written.namelessSource = .ok Written.namelessDraft.tokens ∧
      Reading.ofTokens "C.sol" Written.namelessDraft.tokens =
        (⟨some ⟨"C.sol", [.contract ⟨"C", .contract, false, [], [], ⟨1, 1⟩⟩]⟩,
          [.fault Written.nameless.fault]⟩, [⟨.endOfFile, "", ⟨1, 49⟩⟩]) := by
  have lexed := Written.tokenize_namelessSource
  refine ⟨lexed, ?_⟩
  exact (malformed_part_takes_next "C.sol" Written.namelessDraft Written.namelessDraft.tokens
    (by decide) (Token.nodup_positions lexed) (by decide)).2.2
      Written.whole_of_passed_namelessDraft

open StackRoom in
/-- So not all of that contract is told: the function is none of the members. -/
theorem namelessSource_not_told :
    Token.tokenize Written.namelessSource = .ok Written.namelessDraft.tokens ∧
      (Written.namelessDraft.parts.filterMap (·.fault?)).length < 100 ∧
      ¬ Written.namelessDraft.Told (Reading.ofSource "C.sol" Written.namelessSource) := by
  refine ⟨Written.tokenize_namelessSource, by decide, ?_⟩
  have read : Reading.ofSource "C.sol" Written.namelessSource =
      ⟨some ⟨"C.sol", [.contract ⟨"C", .contract, false, [], [], ⟨1, 1⟩⟩]⟩,
        [.fault Written.nameless.fault]⟩ := by
    decide +kernel
  intro told
  obtain ⟨unit, primary, isUnit, isPrimary, members⟩ := told.members
  rw [read] at isUnit
  cases isUnit
  cases isPrimary
  cases members

end Interlock
