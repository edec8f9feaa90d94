import Interlock.Proofs.Run

/-!
# Strict and tolerant reading agree

A strict run and a tolerant run from one state go through the same steps until the
strict one fails.  There the tolerant run either fails in the same way, or has
recorded a finding at the place of the fault and goes on.  Findings are only ever
added, so that finding stays the first one.

The relation is kept by sequences and by repetition.  Only three places know the
mode: oddities, members and elements with a fault, and the error limit.
-/

namespace Interlock.Parser

variable {α β : Type}

/-- The state in which a run ends, with an answer or with a fault. -/
def final : EStateM.Result Fault State α → State
  | .ok _ after => after
  | .error _ after => after

/-- One state has the findings of another and perhaps more, and has counted the errors
among them. -/
def State.Extends (before after : State) : Prop :=
  ∃ more : List Finding, after.findings.toList = before.findings.toList ++ more ∧
    after.errors = before.errors + more.countP (·.isError)

namespace State.Extends

theorem of_eq {before after : State} (findings : after.findings = before.findings)
    (errors : after.errors = before.errors) : before.Extends after :=
  ⟨[], by simp [findings], by simp [errors]⟩

theorem refl (state : State) : state.Extends state := of_eq rfl rfl

theorem trans {first second third : State} (left : first.Extends second)
    (right : second.Extends third) : first.Extends third := by
  obtain ⟨some, someFindings, someErrors⟩ := left
  obtain ⟨more, moreFindings, moreErrors⟩ := right
  refine ⟨some ++ more, ?_, ?_⟩
  · rw [moreFindings, someFindings, List.append_assoc]
  · rw [moreErrors, someErrors, List.countP_append, Nat.add_assoc]

theorem errors_le {before after : State} (extends_ : before.Extends after) :
    before.errors ≤ after.errors := by
  obtain ⟨more, -, errors⟩ := extends_
  omega

end State.Extends

/-! ## Recording -/

/-- A parser that only adds findings, and counts the errors it adds. -/
def Records (parser : Parser α) : Prop :=
  ∀ before : State, before.Extends (final (parser before))

namespace Records

variable {parser : Parser α} {next : α → Parser β}

theorem pure (value : α) : Records (pure value) := State.Extends.refl

theorem throw (fault : Fault) : Records (throw fault : Parser α) := State.Extends.refl

theorem ofReader (reader : Reader α) : Records (ofReader reader) := by
  intro before
  rw [Parser.ofReader]
  cases reader before.rest <;> exact .of_eq rfl rfl

theorem record (finding : Finding) : Records (record finding) := by
  intro before
  refine ⟨[finding], Array.toList_push, ?_⟩
  change (if finding.isError then before.errors + 1 else before.errors) = _
  cases counted : finding.isError <;> simp [counted]

theorem resume : Records resume := fun _ => State.Extends.of_eq rfl rfl

theorem bind (first : Records parser) (second : ∀ value, Records (next value)) :
    Records (parser >>= next) := by
  intro before
  have opening := first before
  cases run : parser before with
  | ok found between =>
      rw [run] at opening
      rw [bind_of_ok run]
      exact opening.trans (second found between)
  | error fault after =>
      rw [run] at opening
      rw [bind_of_error run]
      exact opening

theorem attempt (parse : Records parser) : Records (attempt parser) := by
  intro before
  have opening := parse before
  rw [Parser.attempt]
  cases run : parser before with
  | ok value after =>
      rw [run] at opening
      exact opening
  | error fault after =>
      rw [run] at opening
      dsimp only
      split <;> exact opening

theorem loop {step : β → Parser (ForInStep β)} (steps : ∀ value, Records (step value))
    (value : β) : Records (loop value step) := by
  intro before
  change before.Extends
    (final (repeatSteps (fun state : State => state.rest.length) step value before))
  fun_induction repeatSteps (fun state : State => state.rest.length) step value before with
  | case1 value before fault left run =>
      have opening := steps value before
      rwa [run] at opening
  | case2 value before result left run =>
      have opening := steps value before
      rwa [run] at opening
  | case3 value before found left run shorter ih =>
      have opening := steps value before
      rw [run] at opening
      exact opening.trans ih
  | case4 value before found left run stuck =>
      have opening := steps value before
      rwa [run] at opening

end Records

/-! ## Agreement -/

/-- A state has findings beyond those of another, the first of them where a fault shows. -/
def Marked (fault : Fault) (before after : State) : Prop :=
  ∃ (first : Finding) (more : List Finding),
    after.findings.toList = before.findings.toList ++ first :: more ∧
      first.toDiagnostic.first = fault.position

theorem Marked.trans {fault : Fault} {first second third : State}
    (marked : Marked fault first second) (later : second.Extends third) :
    Marked fault first third := by
  obtain ⟨finding, more, findings, place⟩ := marked
  obtain ⟨further, furtherFindings, -⟩ := later
  refine ⟨finding, more ++ further, ?_, place⟩
  rw [furtherFindings, findings]
  simp

theorem Marked.record {fault : Fault} (finding : Finding) {before after : State}
    (findings : after.findings = before.findings)
    (place : finding.toDiagnostic.first = fault.position) :
    Marked fault before (final (record finding after)) := by
  refine ⟨finding, [], ?_, place⟩
  rw [← findings]
  exact Array.toList_push

theorem first_fault (fault : Fault) :
    (Finding.fault fault).toDiagnostic.first = fault.position := by
  obtain ⟨problem, token⟩ := fault
  cases token <;> rfl

theorem first_unclosedContract (fault : Fault) :
    (Finding.unclosedContract fault).toDiagnostic.first = fault.position := by
  obtain ⟨problem, token⟩ := fault
  cases token <;> rfl

/-- How a tolerant run may end when the strict run from the same state ends. -/
inductive Follows (before : State) :
    EStateM.Result Fault State α → EStateM.Result Fault State α → Prop where
  | ok {value : α} {after : State} :
      after.findings = before.findings → after.errors = before.errors →
      Follows before (.ok value after) (.ok value after)
  | fault {fault : Fault} {after : State} :
      after.findings = before.findings → Follows before (.error fault after) (.error fault after)
  | marked {fault : Fault} {after : State} {tolerant : EStateM.Result Fault State α} :
      Marked fault before (final tolerant) → Follows before (.error fault after) tolerant

theorem Follows.of_eq {before other : State} {strict tolerant : EStateM.Result Fault State α}
    (findings : before.findings = other.findings) (errors : before.errors = other.errors)
    (follows : Follows before strict tolerant) : Follows other strict tolerant := by
  cases follows with
  | ok sameFindings sameErrors =>
      exact .ok (sameFindings.trans findings) (sameErrors.trans errors)
  | fault sameFindings => exact .fault (sameFindings.trans findings)
  | marked marked =>
      apply Follows.marked
      obtain ⟨first, more, split, place⟩ := marked
      exact ⟨first, more, by rw [split, findings], place⟩

/-- A parser whose tolerant runs follow its strict ones. -/
structure Agrees (parser : Mode → Parser α) : Prop where
  records : Records (parser .tolerant)
  follows : ∀ before : State, before.errors < errorLimit →
    Follows before (parser .strict before) (parser .tolerant before)

namespace Agrees

theorem pure (value : α) : Agrees fun _ => pure value where
  records := .pure value
  follows _ _ := .ok rfl rfl

theorem throw (fault : Fault) : Agrees fun _ => (throw fault : Parser α) where
  records := .throw fault
  follows _ _ := .fault rfl

theorem ofReader (reader : Reader α) : Agrees fun _ => liftM reader where
  records := .ofReader reader
  follows before _ := by
    change Follows before (Parser.ofReader reader before) (Parser.ofReader reader before)
    rw [Parser.ofReader]
    cases reader before.rest with
    | ok value rest => exact .ok rfl rfl
    | error fault rest => exact .fault rfl

theorem remark (oddity : Remark) : Agrees fun mode => remark mode oddity where
  records := .record _
  follows _ _ := .marked (.record _ rfl rfl)

theorem bind {parser : Mode → Parser α} {next : Mode → α → Parser β}
    (first : Agrees parser) (second : ∀ value, Agrees fun mode => next mode value) :
    Agrees fun mode => parser mode >>= next mode where
  records := first.records.bind fun value => (second value).records
  follows before limit := by
    have opening := first.follows before limit
    have later : (final (parser .tolerant before)).Extends
        (final ((parser .tolerant >>= next .tolerant) before)) := by
      cases run : parser .tolerant before with
      | ok value between =>
          rw [bind_of_ok run]
          exact (second value).records between
      | error fault after =>
          rw [bind_of_error run]
          exact .refl _
    generalize strictRun : parser .strict before = strict at opening
    generalize tolerantRun : parser .tolerant before = tolerant at opening later
    cases opening with
    | @ok value between findings errors =>
        rw [bind_of_ok strictRun, bind_of_ok tolerantRun]
        refine ((second value).follows between ?_).of_eq findings errors
        rwa [errors]
    | fault findings =>
        rw [bind_of_error strictRun, bind_of_error tolerantRun]
        exact .fault findings
    | marked marked =>
        rw [bind_of_error strictRun]
        exact .marked (marked.trans later)

/-- Below the error limit a parser that asks for it goes on. -/
theorem exhausted {next : Mode → Bool → Parser α}
    (going : Agrees fun mode => next mode false) (stopped : Records (next .tolerant true)) :
    Agrees fun mode => exhausted >>= next mode where
  records before := by
    rw [exhausted_bind]
    cases decide (errorLimit ≤ before.errors) with
    | false => exact going.records before
    | true => exact stopped before
  follows before limit := by
    have below : decide (errorLimit ≤ before.errors) = false :=
      decide_eq_false (Nat.not_le.2 limit)
    rw [exhausted_bind, exhausted_bind, below]
    exact going.follows before limit

/-- A fault that is answered by recording it marks the place where the strict run ends. -/
theorem attempt {parser : Mode → Parser α} (parse : Agrees parser) (give : α → β)
    {answer : Except Fault α → Parser β}
    (given : ∀ value, answer (.ok value) = Pure.pure (give value))
    (records : ∀ fault, Records (answer (.error fault)))
    (marks : ∀ fault before, Marked fault before (final (answer (.error fault) before)))
    (before : State) (limit : before.errors < errorLimit) :
    Follows before ((parser .strict >>= fun value => Pure.pure (give value)) before)
      ((Parser.attempt (parser .tolerant) >>= answer) before) := by
  have opening := parse.follows before limit
  have later : (final (parser .tolerant before)).Extends
      (final ((Parser.attempt (parser .tolerant) >>= answer) before)) := by
    cases run : parser .tolerant before with
    | ok value after =>
        rw [bind_of_ok (attempt_of_ok run), given]
        exact .refl _
    | error fault after =>
        by_cases noRoom : fault.problem = .tooDeep
        · rw [bind_of_error (attempt_of_tooDeep run noRoom)]
          exact .refl _
        · rw [bind_of_ok (attempt_of_error run noRoom)]
          exact records fault after
  generalize strictRun : parser .strict before = strict at opening
  generalize tolerantRun : parser .tolerant before = tolerant at opening later
  cases opening with
  | @ok value after findings errors =>
      rw [bind_of_ok strictRun, bind_of_ok (attempt_of_ok tolerantRun), given]
      exact .ok findings errors
  | @fault fault after findings =>
      rw [bind_of_error strictRun]
      by_cases noRoom : fault.problem = .tooDeep
      · rw [bind_of_error (attempt_of_tooDeep tolerantRun noRoom)]
        exact .fault findings
      · rw [bind_of_ok (attempt_of_error tolerantRun noRoom)]
        obtain ⟨first, more, split, place⟩ := marks fault after
        exact .marked ⟨first, more, by rw [split, findings], place⟩
  | marked marked =>
      rw [bind_of_error strictRun]
      exact .marked (marked.trans later)

theorem loop {step : Mode → β → Parser (ForInStep β)}
    (steps : ∀ value, Agrees fun mode => step mode value) (value : β) :
    Agrees fun mode => loop value (step mode) where
  records := .loop (fun value => (steps value).records) value
  follows before limit := by
    induction size : before.rest.length using Nat.strongRecOn generalizing before value with
    | ind size ih =>
    have opening := (steps value).follows before limit
    have later : (final (step .tolerant value before)).Extends
        (final (repeatSteps (fun state : State => state.rest.length) (step .tolerant)
          value before)) := by
      rw [repeatSteps]
      split
      next run => rw [run]; exact .refl _
      next run => rw [run]; exact .refl _
      next found left run =>
        rw [run]
        split
        · exact Records.loop (fun value => (steps value).records) found left
        · exact .refl _
    change Follows before
      (repeatSteps (fun state : State => state.rest.length) (step .strict) value before)
      (repeatSteps (fun state : State => state.rest.length) (step .tolerant) value before)
    generalize strictRun : step .strict value before = strict at opening
    generalize tolerantRun : step .tolerant value before = tolerant at opening later
    cases opening with
    | @ok answer between findings errors =>
        cases answer with
        | done result =>
            rw [repeatSteps_of_done strictRun, repeatSteps_of_done tolerantRun]
            exact .ok findings errors
        | yield found =>
            by_cases shorter : between.rest.length < before.rest.length
            · rw [repeatSteps_of_yield strictRun shorter,
                repeatSteps_of_yield tolerantRun shorter]
              refine (ih _ (size ▸ shorter) found between ?_ rfl).of_eq findings errors
              rwa [errors]
            · rw [repeatSteps, strictRun, repeatSteps, tolerantRun]
              simp only [shorter, if_false]
              exact .ok findings errors
    | fault findings =>
        rw [repeatSteps, strictRun, repeatSteps, tolerantRun]
        exact .fault findings
    | marked marked =>
        rw [repeatSteps, strictRun]
        exact .marked (marked.trans later)

end Agrees

/-! ## The parsers -/

theorem agrees_headerItem (header : Header) (token : Token) :
    Agrees fun mode => headerItem mode header token := by
  simp only [headerItem]
  refine .bind (.ofReader _) fun _ => ?_
  split
  · split
    · exact .bind (.remark _) fun _ => .pure _
    · exact .pure _
  · split
    · exact .bind (.remark _) fun _ => .pure _
    · exact .pure _
  · split
    · exact .pure _
    · split
      · exact .bind (.ofReader _) fun _ => .pure _
      · split
        · exact .bind (.ofReader _) fun _ => .pure _
        · exact .bind (.ofReader _) fun _ => .pure _

theorem agrees_headerStep (limit : Nat) (label : String) (header : Header) :
    Agrees fun mode => headerStep limit mode label header := by
  simp only [headerStep]
  refine .bind (.ofReader _) fun found => ?_
  cases found with
  | none => exact .ofReader _
  | some token =>
      simp only
      split
      · exact .ofReader _
      · exact .bind (.ofReader _) fun _ => .pure _
      · exact .bind (.ofReader _) fun _ => .pure _
      · exact .bind (agrees_headerItem header token) fun _ => .pure _
      · exact .ofReader _

theorem agrees_function (limit : Nat) (kind : Tree.FunctionKind) (start : Token) :
    Agrees fun mode => function limit mode kind start := by
  simp only [function]
  refine .bind (.ofReader _) fun name => ?_
  refine .bind (.ofReader _) fun parameters => ?_
  refine .bind (.loop (agrees_headerStep limit _) _) fun header => ?_
  exact .pure _

theorem agrees_stateVariable (start : Token) (tokens : List Token) :
    Agrees fun _ => stateVariable start tokens := by
  rw [stateVariable]
  split
  · exact .pure _
  · exact .throw _

variable [StackRoom]

theorem agrees_keywordMember? (token : Token) :
    Agrees fun mode => keywordMember? mode token := by
  unfold keywordMember?
  refine .bind (.ofReader _) fun next => ?_
  dsimp only
  split
  · split
    · refine .bind (.ofReader _) fun _ => ?_
      exact .bind (agrees_function _ _ token) fun _ => .pure _
    · exact .pure _
  · split
    · refine .bind (.ofReader _) fun _ => ?_
      exact .bind (agrees_function _ _ token) fun _ => .pure _
    iterate 5
      refine .bind (.ofReader _) fun _ => ?_
      exact .bind (.ofReader _) fun _ => .pure _
    iterate 2
      split
      · refine .bind (.ofReader _) fun _ => ?_
        exact .bind (.ofReader _) fun _ => .pure _
      · exact .pure _
    · exact .pure _

theorem agrees_contractPart : Agrees contractPart := by
  unfold contractPart
  refine .bind (.ofReader _) fun token => ?_
  split
  · refine .bind (.ofReader _) fun _ => ?_
    exact .bind (.remark _) fun _ => .pure _
  · refine .bind (agrees_keywordMember? token) fun member => ?_
    split
    · exact .pure _
    · refine .bind (.ofReader _) fun tokens => ?_
      exact .bind (agrees_stateVariable token tokens) fun _ => .pure _
  · exact .ofReader _

theorem agrees_memberInto (members : Array Tree.Member) :
    Agrees fun mode => memberInto mode members where
  records := by
    refine (agrees_contractPart.records.attempt).bind fun result => ?_
    cases result with
    | ok member => exact .pure _
    | error fault => exact (Records.record _).bind fun _ => .bind .resume fun _ => .pure _
  follows before limit := by
    refine agrees_contractPart.attempt (fun member => member.elim members members.push)
      (fun member => rfl) (fun fault => ?_) (fun fault before => ?_) before limit
    · exact (Records.record _).bind fun _ => .bind .resume fun _ => .pure _
    · exact .record (.fault fault) rfl (first_fault fault)

omit [StackRoom] in
theorem agrees_unclosed (kind : Tree.ContractKind) (name : String) (token : Option Token) :
    Agrees fun mode => unclosed mode kind name token where
  records := .record _
  follows _ _ := .marked (.record _ rfl (first_unclosedContract _))

theorem agrees_bodyStep (kind : Tree.ContractKind) (name : String)
    (members : Array Tree.Member) : Agrees fun mode => bodyStep mode kind name members := by
  simp only [bodyStep]
  refine .exhausted ?_ (.pure _)
  simp only [Bool.and_false, Bool.false_eq_true, if_false]
  refine .bind (.ofReader _) fun token => ?_
  split
  · exact .bind (agrees_unclosed kind name token) fun _ => .pure _
  · exact .bind (agrees_unclosed kind name token) fun _ => .pure _
  · exact .bind (.ofReader _) fun _ => .pure _
  · exact .bind (agrees_memberInto members) fun _ => .pure _

theorem agrees_contract (kind : Tree.ContractKind) (isAbstract : Bool) (start : Token) :
    Agrees fun mode => contract mode kind isAbstract start := by
  simp only [contract]
  refine .bind (.ofReader _) fun name => ?_
  refine .bind (.ofReader _) fun hasBases => ?_
  have body (bases : List String) : Agrees fun mode => do
      let _ ← (liftM (Reader.expectElse (.opening .brace)
        (.expectedContractBody kind name.text)) : Parser Token)
      let members ← Parser.loop #[] (bodyStep mode kind name.text)
      return Tree.Contract.mk name.text kind isAbstract bases members.toList start.position := by
    refine .bind (.ofReader _) fun _ => ?_
    exact .bind (.loop (agrees_bodyStep kind name.text) #[]) fun _ => .pure _
  split
  · refine .bind (.ofReader _) fun _ => ?_
    exact .bind (.ofReader _) body
  · exact body []

theorem agrees_keywordElement? (token : Token) :
    Agrees fun mode => keywordElement? mode token := by
  simp only [keywordElement?]
  split
  · refine .bind (.ofReader _) fun _ => ?_
    exact .bind (agrees_contract _ _ token) fun _ => .pure _
  · split
    iterate 2
      refine .bind (.ofReader _) fun _ => ?_
      exact .bind (.ofReader _) fun _ => .pure _
    · refine .bind (.ofReader _) fun next => ?_
      split
      · refine .bind (.ofReader _) fun _ => .bind (.ofReader _) fun _ => ?_
        exact .bind (agrees_contract _ _ token) fun _ => .pure _
      · exact .pure _
    · refine .bind (.ofReader _) fun _ => ?_
      exact .bind (agrees_function _ _ token) fun _ => .pure _
    iterate 6
      refine .bind (.ofReader _) fun _ => ?_
      exact .bind (.ofReader _) fun _ => .pure _
    · exact .pure _

theorem agrees_sourceElement : Agrees sourceElement := by
  unfold sourceElement
  refine .bind (.ofReader _) fun token => ?_
  split
  · refine .bind (.ofReader _) fun _ => ?_
    exact .bind (.remark _) fun _ => .pure _
  · refine .bind (agrees_keywordElement? token) fun element => ?_
    split
    · exact .pure _
    · refine .bind (.ofReader _) fun tokens => ?_
      split
      · exact .bind (agrees_stateVariable token tokens) fun _ => .pure _
      · exact .bind (.remark _) fun _ => .pure _
  · exact .ofReader _

/-- What tolerant reading does at a fault between elements, where `size` tokens were left
in front of the element. -/
def passElement (size : Nat) (elements : Array Tree.Element) (fault : Fault) :
    Parser (Array Tree.Element) := do
  record (.fault fault)
  resume
  if (← get).rest.length = size then
    let _ ← Reader.advance
  return elements

theorem elementInto_tolerant (elements : Array Tree.Element) (before : State) :
    elementInto .tolerant elements before =
      (attempt (sourceElement .tolerant) >>= fun result =>
        match result with
        | .ok element => pure (element.elim elements elements.push)
        | .error fault => passElement before.rest.length elements fault) before := rfl

omit [StackRoom] in
/-- Passing over a fault only moves on behind the record of it. -/
theorem passElement_extends (size : Nat) (elements : Array Tree.Element) (fault : Fault)
    (before : State) :
    (final (record (.fault fault) before)).Extends
      (final (passElement size elements fault before)) := by
  rw [passElement]
  have recorded : ∃ after, record (.fault fault) before = .ok () after := ⟨_, rfl⟩
  obtain ⟨after, recorded⟩ := recorded
  rw [recorded, bind_of_ok recorded]
  refine (Records.bind .resume fun _ => ?_) after
  refine Records.bind (fun before => State.Extends.refl before) fun state => ?_
  split
  · exact (Records.ofReader _).bind fun _ => .pure _
  · exact .pure _

theorem agrees_elementInto (elements : Array Tree.Element) :
    Agrees fun mode => elementInto mode elements := by
  have passes (size : Nat) (fault : Fault) : Records (passElement size elements fault) :=
    fun before => (Records.record _ before).trans (passElement_extends size elements fault before)
  constructor
  · intro before
    rw [elementInto_tolerant]
    refine (agrees_sourceElement.records.attempt.bind fun result => ?_) before
    cases result with
    | ok element => exact .pure _
    | error fault => exact passes _ fault
  · intro before limit
    rw [elementInto_tolerant]
    refine agrees_sourceElement.attempt (fun element => element.elim elements elements.push)
      (fun element => rfl) (passes _) (fun fault other => ?_) before limit
    have marked : Marked fault other (final (record (.fault fault) other)) :=
      .record (.fault fault) rfl (first_fault fault)
    exact marked.trans (passElement_extends _ elements fault other)

theorem agrees_unitStep (elements : Array Tree.Element) :
    Agrees fun mode => unitStep mode elements := by
  simp only [unitStep]
  refine .exhausted ?_ (.pure _)
  simp only [Bool.and_false, Bool.false_eq_true, if_false]
  refine .bind (.ofReader _) fun atEnd => ?_
  split
  · exact .pure _
  · exact .bind (agrees_elementInto elements) fun _ => .pure _

theorem agrees_sourceUnit (filename : String) :
    Agrees fun mode => sourceUnit mode filename := by
  simp only [sourceUnit]
  refine .bind (.loop agrees_unitStep _) fun elements => ?_
  refine .exhausted ?_ ?_
  · simp only [Bool.and_false, Bool.false_eq_true, if_false]
    exact .pure _
  · exact (Records.record _).bind fun _ => .pure _

end Interlock.Parser

namespace Interlock

open Interlock.Parser

/-- Reading strictly succeeds exactly when reading tolerantly has nothing to report, and then
both answer the same tree.  The fault that ends a strict reading is where the first
diagnostic of the tolerant one is. -/
theorem strict_succeeds_iff_nothing_reported [StackRoom] (filename : String) (tokens : List Token) :
    ((∃ unit, Tree.SourceUnit.ofTokens filename tokens = .ok unit) ↔
      (Reading.ofTokens filename tokens).1.diagnostics = []) ∧
    (∀ unit, Tree.SourceUnit.ofTokens filename tokens = .ok unit →
      (Reading.ofTokens filename tokens).1.unit = some unit) ∧
    (∀ fault, Tree.SourceUnit.ofTokens filename tokens = .error fault →
      ∃ first more, (Reading.ofTokens filename tokens).1.diagnostics = first :: more ∧
        first.first = fault.position) := by
  have runs := (agrees_sourceUnit filename).follows (.ofTokens tokens)
    (by simp [State.ofTokens, errorLimit])
  have nothing : (State.ofTokens tokens).findings = #[] := rfl
  rw [Tree.SourceUnit.ofTokens, Reading.ofTokens, Reading.diagnostics]
  generalize sourceUnit .strict filename (.ofTokens tokens) = strict at runs
  generalize sourceUnit .tolerant filename (.ofTokens tokens) = tolerant at runs
  cases runs with
  | ok findings _ => simp [findings, nothing]
  | fault findings => simp [findings, nothing, first_fault]
  | marked marked =>
      obtain ⟨first, more, split, place⟩ := marked
      simp only [nothing, List.nil_append] at split
      cases tolerant with
      | ok unit after => simp_all [final]
      | error fault after => simp_all [final]

end Interlock
