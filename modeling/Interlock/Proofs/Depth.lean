import Interlock.Proofs.Grammar
import Interlock.Proofs.Outline
import Interlock.Proofs.Verdict

/-!
# Reading and the room on the stack

A tolerant reading is only given up where a block in the source nests deeper than the stack has
room, whatever its other tokens are.  The reader of blocks gives up nowhere else, no other part
gives up by itself, and each part is read in what its predecessors have left.  So a source with no
more opening braces than there is room for is always read to the end, or until it has too many
errors.
-/

namespace Interlock

namespace Grammar

/-- Whether a block somewhere in the tokens nests deeper than one of the limits. -/
def HoldsDeeper (limits : List Nat) (tokens : List Token) : Prop :=
  ∃ limit ∈ limits, ∃ front, Deepens limit front ∧ front <:+: tokens

theorem HoldsDeeper.of_suffix {limits : List Nat} {left tokens : List Token}
    (suffix : left <:+ tokens) (holds : HoldsDeeper limits left) : HoldsDeeper limits tokens := by
  obtain ⟨limit, member, front, deepens, inside⟩ := holds
  exact ⟨limit, member, front, deepens, inside.trans suffix.isInfix⟩

/-- With as many braces there is a limit that is as low. -/
theorem HoldsDeeper.exists_lt_braces {limits : List Nat} {tokens : List Token}
    (holds : HoldsDeeper limits tokens) : ∃ limit ∈ limits, limit < braces tokens := by
  obtain ⟨limit, member, front, deepens, inside⟩ := holds
  exact ⟨limit, member, deepens.lt_braces.trans_le inside.sublist.countP_le⟩

end Grammar

/-! ## Runs that fit -/

section Fitting

variable {σ α β : Type} {limits : List Nat} {rest : σ → List Token}

/-- How a run through some tokens ends that keeps to them, and that only lacks room where they hold
a block that nests deeper than one of the limits. -/
def Within (limits : List Nat) (rest : σ → List Token) (tokens : List Token) :
    EStateM.Result Fault σ α → Prop
  | .ok _ after => rest after <:+ tokens
  | .error fault after =>
      rest after <:+ tokens ∧ (fault.problem = .tooDeep → Grammar.HoldsDeeper limits tokens)

theorem Within.of_suffix {left tokens : List Token} {result : EStateM.Result Fault σ α}
    (suffix : left <:+ tokens) (within : Within limits rest left result) :
    Within limits rest tokens result := by
  cases result with
  | ok value after => exact List.IsSuffix.trans within suffix
  | error fault after =>
      exact ⟨within.1.trans suffix, fun noRoom => (within.2 noRoom).of_suffix suffix⟩

/-- A computation that fits wherever it starts. -/
def Fits (limits : List Nat) (rest : σ → List Token) (run : EStateM Fault σ α) : Prop :=
  ∀ before, Within limits rest (rest before) (run before)

namespace Fits

theorem pure (value : α) : Fits limits rest (pure value) := fun _ => List.suffix_refl _

theorem throw {fault : Fault} (room : fault.problem ≠ .tooDeep) :
    Fits limits rest (throw fault : EStateM Fault σ α) :=
  fun _ => ⟨List.suffix_refl _, fun noRoom => absurd noRoom room⟩

theorem bind {first : EStateM Fault σ α} {next : α → EStateM Fault σ β}
    (earlier : Fits limits rest first) (later : ∀ value, Fits limits rest (next value)) :
    Fits limits rest (first >>= next) := by
  intro before
  have within := earlier before
  cases run : first before with
  | error fault after =>
      rw [run] at within
      rw [bind_of_error run]
      exact within
  | ok value between =>
      rw [run] at within
      rw [bind_of_ok run]
      exact (later value between).of_suffix within

theorem repeatSteps {size : σ → Nat} {step : β → EStateM Fault σ (ForInStep β)}
    (steps : ∀ value, Fits limits rest (step value)) (value : β) :
    Fits limits rest (repeatSteps size step value) := by
  intro before
  fun_induction Interlock.repeatSteps size step value before with
  | case1 value before fault left run
  | case2 value before result left run
  | case4 value before found left run stuck =>
      have within := steps value before
      rwa [run] at within
  | case3 value before found left run shorter ih =>
      have within := steps value before
      rw [run] at within
      exact ih.of_suffix within

end Fits

end Fitting

/-! ## Readers -/

namespace Reader

variable {α β : Type} {limits : List Nat}

/-- What never lacks room fits. -/
theorem fits_of_sourced {reader : Reader α} (walks : Walks reader) (sourced : Sourced reader) :
    Fits limits id reader := by
  intro tokens
  have walk := walks tokens
  cases run : reader tokens with
  | ok value left =>
      rw [run] at walk
      exact Walk.suffix walk
  | error fault left =>
      rw [run] at walk
      exact ⟨Walk.suffix walk, fun noRoom => absurd noRoom (sourced run).2⟩

theorem Built.fits {reader : Reader α} (built : Built reader) : Fits limits id reader :=
  fits_of_sourced built.walks built.sourced

theorem fits_current : Fits limits id current := fun tokens => List.suffix_refl tokens

theorem fits_peek (offset : Nat) : Fits limits id (peek offset) :=
  fun tokens => List.suffix_refl tokens

theorem fits_advance : Fits limits id advance := by
  intro tokens
  cases tokens with
  | nil => exact List.suffix_refl []
  | cons token rest => exact List.suffix_cons token rest

theorem fits_failAt {problem : Problem} (room : problem ≠ .tooDeep) (token : Option Token) :
    Fits limits id (failAt problem token : Reader α) :=
  .throw room

theorem fits_front : Fits limits id front := by
  refine fits_current.bind fun token => ?_
  cases token with
  | none => exact fits_failAt (by simp) none
  | some token => exact .pure token

theorem fits_atEnd : Fits limits id atEnd := by
  refine fits_current.bind fun token => ?_
  cases token <;> exact .pure _

/-- A block only lacks room where it nests deeper than its limit. -/
theorem fits_block {limit : Nat} (member : limit ∈ limits) : Fits limits id (block limit) := by
  intro tokens
  have walk := walks_block limit tokens
  cases run : block limit tokens with
  | ok value left =>
      rw [run] at walk
      exact Walk.suffix walk
  | error fault left =>
      rw [run] at walk
      refine ⟨Walk.suffix walk, fun noRoom => ?_⟩
      obtain ⟨problem, token⟩ := fault
      obtain rfl : problem = .tooDeep := noRoom
      obtain ⟨front, deepens, inside⟩ := block_tooDeep_iff.1 ⟨token, left, run⟩
      exact ⟨limit, member, front, deepens, inside.isInfix⟩

theorem fits_modifierStep {limit : Nat} (member : limit ∈ limits) (name : String)
    (isVirtual : Bool) : Fits limits id (modifierStep limit name isVirtual) := by
  refine fits_current.bind fun token => ?_
  cases token with
  | none => exact fits_failAt (by simp) none
  | some token =>
      dsimp only
      split
      next => exact fits_failAt (by simp) _
      next => exact (fits_block member).bind fun _ => .pure _
      next => exact fits_advance.bind fun _ => .pure _
      next =>
        split
        · exact fits_advance.bind fun _ => .pure _
        · split
          · exact fits_advance.bind fun _ => built_parenthesized?.fits.bind fun _ => .pure _
          · exact fits_failAt (by simp) _

theorem fits_modifier {limit : Nat} (member : limit ∈ limits) (start : Token) :
    Fits limits id (modifier limit start) := by
  refine (built_expectName _).fits.bind fun name => ?_
  refine built_parenthesized?.fits.bind fun parameters => ?_
  exact (Fits.repeatSteps (fits_modifierStep member name.text) false).bind fun _ => .pure _

theorem fits_importPath (start : Token) : Fits limits id (importPath start) := by
  refine Built.statement.fits.bind fun tokens => ?_
  split
  · exact .pure _
  · exact fits_failAt (by simp) _

theorem fits_usingFor (start : Token) : Fits limits id (usingFor start) := by
  refine Built.statement.fits.bind fun tokens => ?_
  dsimp only
  split
  · exact fits_failAt (by simp) _
  · exact .pure _

end Reader

/-! ## Parsers -/

namespace Parser

variable {α β : Type} {limits : List Nat}

theorem fits_ofReader {reader : Reader α} (fits : Fits limits id reader) :
    Fits limits State.rest (ofReader reader) := by
  intro before
  have within := fits before.rest
  rw [ofReader]
  cases run : reader before.rest with
  | ok value left =>
      rw [run] at within
      exact within
  | error fault left =>
      rw [run] at within
      exact within

theorem fits_record (finding : Finding) : Fits limits State.rest (record finding) :=
  fun before => List.suffix_refl before.rest

theorem fits_remark (oddity : Remark) : Fits limits State.rest (remark .tolerant oddity) :=
  fits_record _

theorem fits_exhausted : Fits limits State.rest exhausted :=
  fun before => List.suffix_refl before.rest

theorem fits_resume : Fits limits State.rest resume :=
  fun before => (walk_nextStatementFrom 0 before.rest).suffix

theorem fits_attempt {parser : Parser α} (fits : Fits limits State.rest parser) :
    Fits limits State.rest (attempt parser) := by
  intro before
  have within := fits before
  cases run : parser before with
  | ok value after =>
      rw [run] at within
      rw [attempt_of_ok run]
      exact within
  | error fault after =>
      rw [run] at within
      by_cases noRoom : fault.problem = .tooDeep
      · rw [attempt_of_tooDeep run noRoom]
        exact within
      · rw [attempt_of_error run noRoom]
        exact within.1

/-! ### Functions -/

theorem fits_headerItem (header : Header) (token : Token) :
    Fits limits State.rest (headerItem .tolerant header token) := by
  rcases headerItem_built header token with ⟨previous, again⟩ | ⟨item, built, same⟩
  · rw [again]
    exact (fits_ofReader Reader.fits_advance).bind fun _ => (fits_remark _).bind fun _ => .pure _
  · rw [same]
    exact (fits_ofReader Reader.fits_advance).bind fun _ => fits_ofReader built.fits

theorem fits_headerStep {limit : Nat} (member : limit ∈ limits) (label : String)
    (header : Header) : Fits limits State.rest (headerStep limit .tolerant label header) := by
  refine (fits_ofReader Reader.fits_current).bind fun token => ?_
  cases token with
  | none => exact fits_ofReader (Reader.fits_failAt (by simp) none)
  | some token =>
      dsimp only
      split
      next => exact fits_ofReader (Reader.fits_failAt (by simp) _)
      next => exact (fits_ofReader (Reader.fits_block member)).bind fun _ => .pure _
      next => exact (fits_ofReader Reader.fits_advance).bind fun _ => .pure _
      next => exact (fits_headerItem header token).bind fun _ => .pure _
      next => exact fits_ofReader (Reader.fits_failAt (by simp) _)

theorem fits_function {limit : Nat} (member : limit ∈ limits) (kind : Tree.FunctionKind)
    (start : Token) : Fits limits State.rest (function limit .tolerant kind start) := by
  refine (fits_ofReader (built_functionName kind).fits).bind fun name => ?_
  refine (fits_ofReader (Reader.built_shaped _ (by simp)).fits).bind fun parameters => ?_
  exact (Fits.repeatSteps (fits_headerStep member _) {}).bind fun _ => .pure _

theorem fits_announced {limit : Nat} (member : limit ∈ limits) {token : Token}
    {parser : Parser α} (announced : Announced limit token parser) :
    Fits limits State.rest parser := by
  cases announced with
  | function kind give => exact (fits_function member kind token).bind fun _ => .pure _
  | modifier give => exact (fits_ofReader (Reader.fits_modifier member token)).bind fun _ => .pure _
  | reader give built => exact (fits_ofReader built.fits).bind fun _ => .pure _
  | importPath give => exact (fits_ofReader (Reader.fits_importPath token)).bind fun _ => .pure _
  | usingFor give => exact (fits_ofReader (Reader.fits_usingFor token)).bind fun _ => .pure _

/-! ### Pieces -/

theorem fits_stateVariable (start : Token) (tokens : List Token) :
    Fits limits State.rest (stateVariable start tokens) := by
  rw [stateVariable]
  split
  next => exact .pure _
  next fault refused =>
    by_cases nonempty : tokens = []
    · subst nonempty
      cases refused
      exact .throw (by simp)
    · exact .throw (Tree.Variable.showsIn_ofTokens nonempty fault refused).1.2

/-- A piece fits when all that words announce fits, and so does every statement. -/
theorem fits_piece {keyword : Mode → Token → Parser (Option α)}
    {dispatch : Token → Option Token → Option (Mode → Parser α)}
    {settle : Mode → Token → List Token → Parser (Option α)} {refuse : String → Problem}
    (dispatches : Dispatches keyword dispatch)
    (announced : ∀ {token next parser}, dispatch token next = some parser →
      Fits limits State.rest (parser .tolerant))
    (settled : ∀ token phrase, Fits limits State.rest (settle .tolerant token phrase))
    (room : ∀ text, refuse text ≠ .tooDeep) :
    Fits limits State.rest (piece keyword settle refuse .tolerant) := by
  refine (fits_ofReader Reader.fits_front).bind fun token => ?_
  split
  next =>
    exact (fits_ofReader Reader.fits_advance).bind fun _ => (fits_remark _).bind fun _ => .pure _
  next =>
    refine Fits.bind ?_ fun found => ?_
    · rw [dispatches.read]
      refine (fits_ofReader (Reader.fits_peek 1)).bind fun next => ?_
      cases looked : dispatch token next with
      | none => exact .pure none
      | some parser =>
          refine (fits_ofReader Reader.fits_advance).bind fun _ => ?_
          exact (announced looked).bind fun _ => .pure _
    · cases found with
      | some found => exact .pure _
      | none => exact (fits_ofReader Reader.Built.statement.fits).bind fun _ => settled _ _
  next => exact fits_ofReader (Reader.fits_failAt (room _) _)

variable [StackRoom]

/-! ### Contracts -/

theorem fits_contractPart (member : StackRoom.member ∈ limits) :
    Fits limits State.rest (contractPart .tolerant) := by
  rw [contractPart_eq_piece]
  apply fits_piece dispatches_member
  · exact fun found => fits_announced member (announced_member found)
  · exact fun token phrase => (fits_stateVariable token phrase).bind fun _ => .pure _
  · simp

theorem fits_memberInto (member : StackRoom.member ∈ limits) (members : Array Tree.Member) :
    Fits limits State.rest (memberInto .tolerant members) := by
  refine (fits_attempt (fits_contractPart member)).bind fun found => ?_
  cases found with
  | ok found => exact .pure _
  | error fault => exact (fits_record _).bind fun _ => fits_resume.bind fun _ => .pure _

theorem fits_bodyStep (member : StackRoom.member ∈ limits) (kind : Tree.ContractKind)
    (name : String) (members : Array Tree.Member) :
    Fits limits State.rest (bodyStep .tolerant kind name members) := by
  refine fits_exhausted.bind fun full => ?_
  split
  · exact .pure _
  · refine (fits_ofReader Reader.fits_current).bind fun token => ?_
    split
    iterate 2 exact (fits_record _).bind fun _ => .pure _
    · exact (fits_ofReader Reader.fits_advance).bind fun _ => .pure _
    · exact (fits_memberInto member members).bind fun _ => .pure _

theorem fits_contract (member : StackRoom.member ∈ limits) (kind : Tree.ContractKind)
    (isAbstract : Bool) (start : Token) :
    Fits limits State.rest (contract .tolerant kind isAbstract start) := by
  rw [contract_eq]
  refine (fits_ofReader (built_contractFront kind).fits).bind fun front => ?_
  have opener (problem : Problem) (known : problem.OfSource) :
      Fits limits id (Reader.expectElse (.opening .brace) problem) :=
    Reader.fits_of_sourced (Reader.walks_expectElse _ known.1) (Reader.sourced_expectElse _ known)
  refine (fits_ofReader (opener _ (by simp))).bind fun _ => ?_
  exact (Fits.repeatSteps (fits_bodyStep member kind _) #[]).bind fun _ => .pure _

/-! ### Sources -/

variable (member : StackRoom.member ∈ limits) (free : StackRoom.free ∈ limits)
include member free

theorem fits_sourceElement : Fits limits State.rest (sourceElement .tolerant) := by
  rw [sourceElement_eq_piece]
  apply fits_piece dispatches_element
  · intro token next parser found
    rcases announced_element found with announced | ⟨kind, same⟩ | ⟨-, same⟩
    · exact fits_announced free announced
    · rw [same]
      exact (fits_contract member kind _ token).bind fun _ => .pure _
    · rw [same]
      refine (fits_ofReader Reader.fits_advance).bind fun _ => ?_
      exact (fits_contract member _ _ token).bind fun _ => .pure _
  · intro token phrase
    split
    · exact (fits_stateVariable token phrase).bind fun _ => .pure _
    · exact (fits_remark _).bind fun _ => .pure _
  · simp

theorem fits_elementInto (elements : Array Tree.Element) :
    Fits limits State.rest (elementInto .tolerant elements) := by
  have size : Fits limits State.rest (get : Parser State) :=
    fun before => List.suffix_refl before.rest
  refine size.bind fun before => ?_
  refine (fits_attempt (fits_sourceElement member free)).bind fun found => ?_
  cases found with
  | ok found => exact .pure _
  | error fault =>
      refine (fits_record _).bind fun _ => fits_resume.bind fun _ => size.bind fun after => ?_
      split
      · exact (fits_ofReader Reader.fits_advance).bind fun _ => .pure _
      · exact .pure _

theorem fits_unitStep (elements : Array Tree.Element) :
    Fits limits State.rest (unitStep .tolerant elements) := by
  refine fits_exhausted.bind fun full => ?_
  split
  · exact .pure _
  · refine (fits_ofReader Reader.fits_atEnd).bind fun ended => ?_
    split
    · exact .pure _
    · exact (fits_elementInto member free elements).bind fun _ => .pure _

end Parser

/-! ## Readings -/

namespace Reading

variable [StackRoom] (filename : String) (tokens : List Token)

/-- A reading is only given up where a block of the source nests deeper than there is room for. -/
theorem holdsDeeper_of_gaveUp (stopped : (ofTokens filename tokens).1.gaveUp = true) :
    Grammar.HoldsDeeper [StackRoom.member, StackRoom.free] (Token.withoutComments tokens) := by
  have room : ∀ value, Fits [StackRoom.member, StackRoom.free] Parser.State.rest
      (Parser.unitStep .tolerant value) := Parser.fits_unitStep (by simp) (by simp)
  rcases Parser.persistent_unitStep.loop #[] (.ofTokens tokens) with
      ⟨elements, after, run, -⟩ | ⟨fault, after, run, ends⟩
  · have read := Parser.reading_of_loop filename run
    have goesOn := gaveUp_eq_false_iff.2 ⟨_, congrArg (·.1.unit) read⟩
    rw [stopped] at goesOn
    cases goesOn
  · have within : Within _ _ (Token.withoutComments tokens)
        (Parser.loop #[] (Parser.unitStep .tolerant) (.ofTokens tokens)) :=
      Fits.repeatSteps room #[] (.ofTokens tokens)
    rw [run] at within
    exact within.2 ends.noRoom

/-- A source with no more braces than there is room for is not given up. -/
theorem gaveUp_of_braces
    (members : Grammar.braces (Token.withoutComments tokens) ≤ StackRoom.member)
    (functions : Grammar.braces (Token.withoutComments tokens) ≤ StackRoom.free) :
    (ofTokens filename tokens).1.gaveUp = false := by
  rw [← Bool.not_eq_true]
  intro stopped
  obtain ⟨limit, among, below⟩ := (holdsDeeper_of_gaveUp filename tokens stopped).exists_lt_braces
  simp only [List.mem_cons, List.not_mem_nil, or_false] at among
  rcases among with rfl | rfl <;> omega

end Reading

/-! ## How a reading ends -/

namespace Reading

/-- Whether a reading says that it has found too many errors. -/
def Overflows (reading : Reading) : Prop :=
  ∃ diagnostic ∈ reading.diagnostics, diagnostic.code = "TOO_MANY_ERRORS"

/-- How many errors are among the diagnostics of a reading. -/
def errorCount (reading : Reading) : Nat := (Diagnostic.errors reading.diagnostics).length

/-- The end of a reading of `source` that leaves `left`.  It has found too many errors and says so
last, or nothing in front of the end mark is left over. -/
structure Ended (reading : Reading) (source left : List Token) : Prop where
  atMost : reading.errorCount ≤ 101
  notHundred : reading.errorCount ≠ 100
  overflows_iff : reading.Overflows ↔ reading.errorCount = 101
  last : reading.Overflows → ∃ earlier last, reading.diagnostics = earlier ++ [last] ∧
    last.code = "TOO_MANY_ERRORS" ∧ ∀ diagnostic ∈ earlier, diagnostic.code ≠ "TOO_MANY_ERRORS"
  atEnd : ¬ reading.Overflows →
    Parser.AtEnd left ∧ left <:+ source.dropWhile (·.kind ≠ .endOfFile)

variable {unit : Option Tree.SourceUnit} {findings : List Finding} {source left : List Token}

theorem ended_of_complete (walk : Walk source left findings)
    (below : findings.countP (·.isError) < Parser.errorLimit) (ended : Parser.AtEnd left) :
    Ended ⟨unit, findings⟩ source left := by
  have goesOn : ¬ Overflows ⟨unit, findings⟩ := by
    rintro ⟨diagnostic, member, overflows⟩
    exact walk.codes diagnostic member overflows
  have count : errorCount ⟨unit, findings⟩ < 100 := by
    rw [errorCount, diagnostics, errors_length]
    exact below
  constructor
  case atMost => omega
  case notHundred => omega
  case overflows_iff => exact iff_of_false goesOn (by omega)
  case last => exact fun overflows => absurd overflows goesOn
  case atEnd => exact fun _ => ⟨ended, suffix_dropWhile walk.suffix ended⟩

theorem ended_of_stopped (walk : Walk source left findings)
    (full : findings.countP (·.isError) = Parser.errorLimit) :
    Ended ⟨unit, findings ++ [.tooManyErrors Parser.errorLimit]⟩ source left := by
  have overflows : Overflows ⟨unit, findings ++ [.tooManyErrors Parser.errorLimit]⟩ :=
    ⟨(Finding.tooManyErrors Parser.errorLimit).toDiagnostic, by simp [diagnostics], rfl⟩
  have count : errorCount ⟨unit, findings ++ [.tooManyErrors Parser.errorLimit]⟩ = 101 := by
    rw [errorCount, diagnostics, errors_length, List.countP_append, full]
    rfl
  constructor
  case atMost => omega
  case notHundred => omega
  case overflows_iff => exact iff_of_true overflows count
  case last =>
    have split : diagnostics ⟨unit, findings ++ [.tooManyErrors Parser.errorLimit]⟩ =
        findings.map (·.toDiagnostic) ++ [(Finding.tooManyErrors Parser.errorLimit).toDiagnostic] :=
      List.map_append
    exact fun _ => ⟨_, _, split, rfl, walk.codes⟩
  case atEnd => exact fun goesOn => absurd overflows goesOn

end Reading

open Interlock.Parser in
/-- Every step of a tolerant reading takes tokens unless it is the last of its repetition, and the
steps through a source and through a body only fail when the stack has no room for a block.  So a
reading of any tokens ends.  It answers a tree and finds at most 101 errors, the last of them if it
stops there, and else it goes to the end; or it is given up, at a block that nests deeper than there
is room for.  With no more braces than that it is never given up. -/
theorem tolerant_reading_ends [StackRoom] (filename : String) (tokens : List Token) :
    (Answers (unitStep .tolerant) ∧ Advances State.rest (unitStep .tolerant) ∧
      (∀ kind name, Answers (bodyStep .tolerant kind name) ∧
        Advances State.rest (bodyStep .tolerant kind name)) ∧
      (∀ limit label, Advances State.rest (headerStep limit .tolerant label)) ∧
      (∀ limit name, Advances id (Reader.modifierStep limit name)) ∧
      (∀ what, Advances id (Reader.dottedStep what)) ∧ Advances id Reader.basesStep) ∧
    ∃ reading left, Reading.ofTokens filename tokens = (reading, left) ∧
      left <:+ Token.withoutComments tokens ∧
      (∀ fault, .fault fault ∈ reading.findings → fault.problem ≠ .nothingLeft) ∧
      (reading.gaveUp = false → (∃ unit, reading.unit = some unit) ∧
        reading.Ended (Token.withoutComments tokens) left) ∧
      (reading.gaveUp = true → Grammar.HoldsDeeper [StackRoom.member, StackRoom.free]
        (Token.withoutComments tokens)) ∧
      (Grammar.braces (Token.withoutComments tokens) ≤ StackRoom.member →
        Grammar.braces (Token.withoutComments tokens) ≤ StackRoom.free →
        reading.gaveUp = false) := by
  refine ⟨⟨answers_of_persistent persistent_unitStep, advances_of_persistent persistent_unitStep,
    fun kind name => ⟨answers_of_persistent (persistent_bodyStep kind name),
      advances_of_persistent (persistent_bodyStep kind name)⟩, advances_headerStep,
    advances_modifierStep, advances_dottedStep, advances_basesStep⟩, ?_⟩
  have deep := Reading.holdsDeeper_of_gaveUp filename tokens
  have roomy := Reading.gaveUp_of_braces filename tokens
  have finished := reading_finished filename tokens
  generalize Reading.ofTokens filename tokens = answer at deep roomy finished
  refine ⟨answer.1, answer.2, rfl, ?_, ?_, ?_, deep, roomy⟩
  · cases finished <;> exact Walk.suffix ‹_›
  · intro fault member
    cases finished with
    | complete _ walk => exact walk.not_nothingLeft fault member
    | stopped _ walk =>
        rcases List.mem_append.1 member with member | isStop
        · exact walk.not_nothingLeft fault member
        · cases List.mem_singleton.1 isStop
    | givenUp _ _ walk => exact walk.not_nothingLeft fault member
  · intro goesOn
    cases finished with
    | complete _ walk below ended => exact ⟨⟨_, rfl⟩, Reading.ended_of_complete walk below ended⟩
    | stopped _ walk full => exact ⟨⟨_, rfl⟩, Reading.ended_of_stopped walk full⟩
    | givenUp _ noRoom => simp [Reading.gaveUp, Finding.isTooDeep, noRoom] at goesOn

/-! ### A function that nests too deep -/

namespace Written

open Interlock.Parser

section Deep

variable [StackRoom] {fault : Fault} {after : State}

/-- When the stack has no room in the body of a contract, the loop over the elements fails there. -/
theorem loop_of_deep_body (position namePosition : Position) (name : String) {opener : Token}
    (opens : opener.kind = .opening .brace) {body : List Token}
    (failed : loop #[] (bodyStep .tolerant .contract name) ⟨body, #[], 0⟩ = .error fault after)
    (noRoom : fault.problem = .tooDeep) :
    loop #[] (unitStep .tolerant)
        ⟨word "contract" position :: word name namePosition :: opener :: body, #[], 0⟩ =
      .error fault after := by
  have contract : Parser.contract .tolerant .contract false (word "contract" position)
      ⟨word name namePosition :: opener :: body, #[], 0⟩ = .error fault after :=
    (contract_front position namePosition name opens).trans (bind_of_error failed)
  have announced (next : Option Token) : elementParser? (word "contract" position) next =
      some fun mode => Parser.contract mode .contract false (word "contract" position) >>=
        fun node => pure (Tree.Element.contract node) := rfl
  have element : sourceElement .tolerant
        ⟨word "contract" position :: word name namePosition :: opener :: body, #[], 0⟩ =
      .error fault after := by
    rw [sourceElement_eq_piece, piece_announced dispatches_element rfl (announced _)]
    exact bind_of_error (bind_of_error contract)
  have into : elementInto .tolerant #[]
        ⟨word "contract" position :: word name namePosition :: opener :: body, #[], 0⟩ =
      .error fault after := by
    rw [elementInto_tolerant]
    exact bind_of_error (attempt_of_tooDeep element noRoom)
  have front : (word "contract" position).kind ≠ .endOfFile := by simp [word]
  exact loop_of_error
    ((unitStep_of_elementInto front (Nat.zero_lt_succ _)).trans (bind_of_error into))

/-- A reading is given up when the loop over the elements is. -/
theorem gaveUp_of_loop (path : String) {tokens : List Token}
    (failed : loop #[] (unitStep .tolerant) (.ofTokens tokens) = .error fault after)
    (noRoom : fault.problem = .tooDeep) : (Reading.ofTokens path tokens).1.gaveUp = true := by
  rw [Reading.ofTokens, sourceUnit, bind_of_error failed]
  simp [Reading.gaveUp, Finding.isTooDeep, noRoom]

end Deep

open Grammar

/-- The tokens of a function up to its body. -/
def bareHeader : List Token :=
  [word "function" ⟨1, 1⟩, word "f" ⟨1, 1⟩, ⟨.opening .paren, "(", ⟨1, 1⟩⟩,
   ⟨.closing .paren, ")", ⟨1, 1⟩⟩]

/-- What stands in a contract with one function, whose body consists of nested blocks. -/
def deepBody (depth : Nat) : List Token :=
  bareHeader ++ (nestedBraces depth ++ [closeBrace, ⟨.endOfFile, "", ⟨1, 1⟩⟩])

/-- The contract. -/
def deepContract (depth : Nat) : List Token :=
  word "contract" ⟨1, 1⟩ :: word "C" ⟨1, 1⟩ :: openBrace :: deepBody depth

theorem withoutComments_deepContract (depth : Nat) :
    Token.withoutComments (deepContract depth) = deepContract depth := by
  rw [Token.withoutComments, List.filter_eq_self]
  intro token member
  simp only [deepContract, deepBody, bareHeader, List.mem_cons, List.mem_append,
    List.not_mem_nil, or_false] at member
  rcases member with rfl | rfl | rfl | (rfl | rfl | rfl | rfl) | nested | rfl | rfl
  case inr.inr.inr.inr.inl =>
    rcases kind_of_mem_nestedBraces nested with isKind | isKind <;> simp [isKind]
  all_goals rfl

/-- A function whose body nests deeper than the limit. -/
theorem function_of_deep {limit : Nat} {body : List Token}
    (deep : Reader.LacksRoom (Reader.block limit (openBrace :: body))) :
    ∃ place after, function limit .tolerant .function (word "function" ⟨1, 1⟩)
        ⟨bareHeader.tail ++ openBrace :: body, #[], 0⟩ = .error ⟨.tooDeep, place⟩ after := by
  obtain ⟨place, left, failed⟩ := deep
  have read : ofReader (Reader.block limit) ⟨openBrace :: body, #[], 0⟩ =
      .error ⟨.tooDeep, place⟩ ⟨left, #[], 0⟩ := by
    rw [ofReader, failed]
  have step : headerStep limit .tolerant "f" {} ⟨openBrace :: body, #[], 0⟩ =
      .error ⟨.tooDeep, place⟩ ⟨left, #[], 0⟩ := by
    rw [headerStep, current_bind]
    exact bind_of_error read
  have named : functionName .function (bareHeader.tail ++ openBrace :: body) =
      .ok "f" (bareHeader.tail.tail ++ openBrace :: body) := rfl
  have shaped : Reader.shaped .paren (.expectedParameters "f")
        (bareHeader.tail.tail ++ openBrace :: body) =
      .ok ⟨⟨.opening .paren, "(", ⟨1, 1⟩⟩, [], ⟨.closing .paren, ")", ⟨1, 1⟩⟩⟩
        (openBrace :: body) := rfl
  refine ⟨place, ⟨left, #[], 0⟩, ?_⟩
  rw [function]
  refine (bind_of_ok (ofReader_of_ok named #[] 0)).trans ?_
  refine (bind_of_ok (ofReader_of_ok shaped #[] 0)).trans ?_
  exact bind_of_error (loop_of_error step)

/-- A reading is given up at one block more than there is room for. -/
theorem gaveUp_deepContract [StackRoom] (path : String) :
    (Reading.ofTokens path (deepContract (StackRoom.member + 1))).1.gaveUp = true := by
  have deep := lacksRoom_nestedBraces StackRoom.member [closeBrace, ⟨.endOfFile, "", ⟨1, 1⟩⟩]
  obtain ⟨place, after, function⟩ := function_of_deep deep
  have announced (next : Option Token) : memberParser? (word "function" ⟨1, 1⟩) next =
      some fun mode => Parser.function StackRoom.member mode .function (word "function" ⟨1, 1⟩) >>=
        fun node => pure (Tree.Member.function node) := rfl
  have part : contractPart .tolerant ⟨deepBody (StackRoom.member + 1), #[], 0⟩ =
      .error ⟨.tooDeep, place⟩ after := by
    rw [contractPart_eq_piece, deepBody, bareHeader, List.cons_append,
      piece_announced dispatches_member rfl (announced _)]
    exact bind_of_error (bind_of_error function)
  have step : bodyStep .tolerant .contract "C" #[] ⟨deepBody (StackRoom.member + 1), #[], 0⟩ =
      .error ⟨.tooDeep, place⟩ after :=
    (bodyStep_of_memberInto (by simp [word]) (by simp [word]) (Nat.zero_lt_succ _)).trans
      (bind_of_error (bind_of_error (attempt_of_tooDeep part rfl)))
  have failed : loop #[] (unitStep .tolerant) (.ofTokens (deepContract (StackRoom.member + 1))) =
      .error ⟨.tooDeep, place⟩ after := by
    rw [State.ofTokens, withoutComments_deepContract]
    exact loop_of_deep_body ⟨1, 1⟩ ⟨1, 1⟩ "C" rfl (loop_of_error step) rfl
  exact gaveUp_of_loop path failed rfl

end Written

open StackRoom in
/-- A contract in which blocks nest one deeper than there usually is room for is given up, and no
tree comes of it. -/
theorem deepContract_unread :
    (Reading.ofTokens "C.sol" (Written.deepContract (StackRoom.member + 1))).1.gaveUp = true ∧
      ¬ ∃ unit, (Reading.ofTokens "C.sol"
        (Written.deepContract (StackRoom.member + 1))).1.unit = some unit := by
  have stopped := Written.gaveUp_deepContract "C.sol"
  refine ⟨stopped, fun answered => ?_⟩
  rw [Reading.gaveUp_eq_false_iff.2 answered] at stopped
  cases stopped

end Interlock
