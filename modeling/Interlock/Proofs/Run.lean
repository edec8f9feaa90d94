import Interlock.Parser.SourceUnit

/-!
# Runs of readers and parsers

Readers and parsers are functions on states.  This module says how a sequence of
two of them runs, what the readers that only look at the front answer, and what
the runs of a repetition are.  Later modules reason with these equations and do
not open the monad again.
-/

namespace Interlock

section Sequence

variable {ε σ α β : Type} {first : EStateM ε σ α} {next : α → EStateM ε σ β}
variable {before between after : σ}

/-- A sequence behind a first part that answers is its second part. -/
theorem bind_of_ok {found : α} (run : first before = .ok found between) :
    (first >>= next) before = next found between := by
  change (match first before with
    | .ok found between => next found between
    | .error fault after => .error fault after) = _
  rw [run]

/-- A sequence behind a first part that fails is that failure. -/
theorem bind_of_error {fault : ε} (run : first before = .error fault after) :
    (first >>= next) before = .error fault after := by
  change (match first before with
    | .ok found between => next found between
    | .error fault after => .error fault after) = _
  rw [run]

/-- A sequence only sees how its first part ends. -/
theorem bind_of_eq {other : EStateM ε σ α} (same : first before = other between) :
    (first >>= next) before = (other >>= next) between := by
  cases run : other between with
  | ok found after => rw [bind_of_ok run, bind_of_ok (same.trans run)]
  | error fault after => rw [bind_of_error run, bind_of_error (same.trans run)]

/-- A sequence answers when both parts answer, one behind the other. -/
theorem bind_eq_ok_iff {value : β} :
    (first >>= next) before = .ok value after ↔
      ∃ found between, first before = .ok found between ∧
        next found between = .ok value after := by
  constructor
  · intro run
    cases opening : first before with
    | ok found between =>
        rw [bind_of_ok opening] at run
        exact ⟨found, between, rfl, run⟩
    | error fault after =>
        rw [bind_of_error opening] at run
        simp at run
  · rintro ⟨found, between, opening, rest⟩
    rw [bind_of_ok opening, rest]

/-- A sequence fails in its first part or behind it. -/
theorem bind_eq_error_iff {fault : ε} :
    (first >>= next) before = .error fault after ↔
      first before = .error fault after ∨
        ∃ found between, first before = .ok found between ∧
          next found between = .error fault after := by
  cases run : first before with
  | ok found between =>
      rw [bind_of_ok run, or_iff_right nofun]
      constructor
      · exact fun failed => ⟨found, between, rfl, failed⟩
      · rintro ⟨_, _, ⟨⟩, failed⟩
        exact failed
  | error cause left =>
      rw [bind_of_error run]
      constructor
      · rintro ⟨⟩
        exact .inl rfl
      · rintro (⟨⟨⟩⟩ | ⟨_, _, ⟨⟩, _⟩)
        rfl

theorem pure_eq_ok_iff {value found : α} :
    (pure found : EStateM ε σ α) before = .ok value after ↔
      found = value ∧ before = after := by
  change EStateM.Result.ok found before = .ok value after ↔ _
  simp

theorem map_eq_ok_iff {give : α → β} {value : β} :
    (first >>= fun found => pure (give found)) before = .ok value after ↔
      ∃ found, first before = .ok found after ∧ give found = value := by
  rw [bind_eq_ok_iff]
  constructor
  · rintro ⟨found, between, run, answered⟩
    obtain ⟨same, rfl⟩ := pure_eq_ok_iff.1 answered
    exact ⟨found, run, same⟩
  · rintro ⟨found, run, same⟩
    exact ⟨found, after, run, pure_eq_ok_iff.2 ⟨same, rfl⟩⟩

end Sequence

/-! ## Repetition -/

section Repetition

variable {ε σ β : Type} {size : σ → Nat} {step : β → EStateM ε σ (ForInStep β)}

/-- The successful runs of a repetition, step by step. -/
inductive Steps (size : σ → Nat) (step : β → EStateM ε σ (ForInStep β)) :
    β → σ → β → σ → Prop where
  | done {value result : β} {before after : σ} :
      step value before = .ok (.done result) after →
      Steps size step value before result after
  | next {value found result : β} {before between after : σ} :
      step value before = .ok (.yield found) between → size between < size before →
      Steps size step found between result after →
      Steps size step value before result after
  | stall {value result : β} {before after : σ} :
      step value before = .ok (.yield result) after → ¬ size after < size before →
      Steps size step value before result after

theorem repeatSteps_of_done {value result : β} {before after : σ}
    (run : step value before = .ok (.done result) after) :
    repeatSteps size step value before = .ok result after := by
  rw [repeatSteps, run]

theorem repeatSteps_of_yield {value found : β} {before between : σ}
    (run : step value before = .ok (.yield found) between)
    (smaller : size between < size before) :
    repeatSteps size step value before = repeatSteps size step found between := by
  rw [repeatSteps, run]
  simp [smaller]

theorem steps_of_repeatSteps {value result : β} {before after : σ}
    (run : repeatSteps size step value before = .ok result after) :
    Steps size step value before result after := by
  fun_induction repeatSteps size step value before with
  | case1 => simp at run
  | case2 value before final left taken =>
      cases run
      exact .done taken
  | case3 value before found left taken smaller ih => exact .next taken smaller (ih run)
  | case4 value before found left taken stuck =>
      cases run
      exact .stall taken stuck

/-- What every step preserves holds in the end. -/
theorem Steps.preserves (holds : β → σ → Prop)
    (each : ∀ ⦃value before answer after⦄, holds value before →
      step value before = .ok answer after → holds answer.value after)
    {value result : β} {before after : σ} (steps : Steps size step value before result after)
    (first : holds value before) : holds result after := by
  induction steps with
  | done run => exact each first run
  | next run _ _ ih => exact ih (each first run)
  | stall run _ => exact each first run

end Repetition

/-! ## What every answer has in common -/

section Answers

variable {ε σ α β : Type} {holds : β → Prop}

/-- Whatever a computation answers has a property. -/
structure Always (holds : β → Prop) (run : EStateM ε σ β) : Prop where
  answer : ∀ ⦃before value after⦄, run before = .ok value after → holds value

namespace Always

theorem any (run : EStateM ε σ β) : Always (fun _ => True) run := ⟨fun _ _ _ _ => trivial⟩

theorem pure {value : β} (it : holds value) : Always holds (pure value : EStateM ε σ β) := by
  constructor
  intro before answer after run
  obtain ⟨rfl, -⟩ := pure_eq_ok_iff.1 run
  exact it

theorem throw (fault : ε) : Always holds (throw fault : EStateM ε σ β) := ⟨nofun⟩

theorem bind {among : α → Prop} {first : EStateM ε σ α} {next : α → EStateM ε σ β}
    (earlier : Always among first) (later : ∀ value, among value → Always holds (next value)) :
    Always holds (first >>= next) := by
  constructor
  intro before answer after run
  obtain ⟨value, between, firstRun, nextRun⟩ := bind_eq_ok_iff.1 run
  exact (later value (earlier.answer firstRun)).answer nextRun

/-- Often what comes last decides alone. -/
theorem behind {first : EStateM ε σ α} {next : α → EStateM ε σ β}
    (later : ∀ value, Always holds (next value)) : Always holds (first >>= next) :=
  (any first).bind fun value _ => later value

theorem repeatSteps {size : σ → Nat} {step : β → EStateM ε σ (ForInStep β)}
    (each : ∀ value, holds value → Always (fun answer => holds answer.value) (step value))
    {value : β} (first : holds value) : Always holds (repeatSteps size step value) := by
  constructor
  intro before result after run
  apply (steps_of_repeatSteps run).preserves fun value _ => holds value
  · intro value before answer after it step
    exact (each value it).answer step
  · exact first

end Always

end Answers

/-! ## Readers that look at the front -/

namespace Reader

variable {β : Type}

theorem current_bind (next : Option Token → Reader β) (tokens : List Token) :
    (current >>= next) tokens = next tokens.head? tokens := rfl

theorem at?_bind (kind : Token.Kind) (next : Bool → Reader β) (tokens : List Token) :
    (at? kind >>= next) tokens = next (tokens.head?.any (·.kind = kind)) tokens := rfl

theorem advance_bind (next : Option Token → Reader β) (token : Token) (rest : List Token) :
    (advance >>= next) (token :: rest) = next (some token) rest := rfl

/-- A run that looks at the front is the run of the branch that it takes. -/
theorem branch_of_current_bind {next : Option Token → Reader β} {tokens left : List Token}
    {value : β} (run : (current >>= next) tokens = .ok value left) :
    ∃ branch, next tokens.head? = branch ∧ branch tokens = .ok value left :=
  ⟨_, rfl, run⟩

theorem loop_of_done {step : β → Reader (ForInStep β)} {value result : β}
    {tokens left : List Token} (run : step value tokens = .ok (.done result) left) :
    loop value step tokens = .ok result left :=
  repeatSteps_of_done run

theorem loop_of_yield {step : β → Reader (ForInStep β)} {value found : β}
    {tokens left : List Token} (run : step value tokens = .ok (.yield found) left)
    (shorter : left.length < tokens.length) :
    loop value step tokens = loop found step left :=
  repeatSteps_of_yield run shorter

/-- A step that takes nothing ends the repetition. -/
theorem loop_of_stall {step : β → Reader (ForInStep β)} {value found : β}
    {tokens : List Token} (run : step value tokens = .ok (.yield found) tokens) :
    loop value step tokens = .ok found tokens := by
  change repeatSteps List.length step value tokens = _
  rw [repeatSteps, run]
  simp

theorem steps_of_loop {step : β → Reader (ForInStep β)} {value result : β}
    {tokens left : List Token} (run : loop value step tokens = .ok result left) :
    Steps List.length step value tokens result left :=
  steps_of_repeatSteps run

end Reader

namespace Parser

variable {α β : Type}

theorem liftM_eq_ofReader (reader : Reader α) :
    (liftM reader : Parser α) = ofReader reader := rfl

theorem current_bind (next : Option Token → Parser β) (state : State) :
    ((liftM Reader.current : Parser _) >>= next) state = next state.rest.head? state := rfl

theorem peek_bind (offset : Nat) (next : Option Token → Parser β) (state : State) :
    ((liftM (Reader.peek offset) : Parser _) >>= next) state =
      next state.rest[offset]? state := rfl

theorem advance_bind (next : Option Token → Parser β) (token : Token)
    (rest : List Token) (findings : Array Finding) (errors : Nat) :
    ((liftM Reader.advance : Parser _) >>= next) ⟨token :: rest, findings, errors⟩ =
      next (some token) ⟨rest, findings, errors⟩ := rfl

theorem front_bind (next : Token → Parser β) (token : Token)
    (rest : List Token) (findings : Array Finding) (errors : Nat) :
    ((liftM Reader.front : Parser _) >>= next) ⟨token :: rest, findings, errors⟩ =
      next token ⟨token :: rest, findings, errors⟩ := rfl

/-- A run that looks at the front is the run of the branch that it takes. -/
theorem branch_of_current_bind {next : Option Token → Parser β} {before after : State}
    {value : β}
    (run : ((liftM Reader.current : Parser _) >>= next) before = .ok value after) :
    ∃ branch, next before.rest.head? = branch ∧ branch before = .ok value after :=
  ⟨_, rfl, run⟩

theorem exhausted_bind (next : Bool → Parser β) (state : State) :
    (exhausted >>= next) state = next (decide (errorLimit ≤ state.errors)) state := rfl

theorem ofReader_eq_ok_iff {reader : Reader α} {before after : State} {value : α} :
    ofReader reader before = .ok value after ↔
      reader before.rest = .ok value after.rest ∧
        after.findings = before.findings ∧ after.errors = before.errors := by
  rw [ofReader]
  cases run : reader before.rest with
  | ok found left =>
      cases after
      simp only [EStateM.Result.ok.injEq, State.mk.injEq]
      constructor
      · rintro ⟨rfl, rfl, rfl, rfl⟩
        exact ⟨⟨rfl, rfl⟩, rfl, rfl⟩
      · rintro ⟨⟨rfl, rfl⟩, rfl, rfl⟩
        exact ⟨rfl, rfl, rfl, rfl⟩
  | error fault left => simp

theorem ofReader_of_ok {reader : Reader α} {tokens left : List Token} {value : α}
    (run : reader tokens = .ok value left) (findings : Array Finding) (errors : Nat) :
    ofReader reader ⟨tokens, findings, errors⟩ = .ok value ⟨left, findings, errors⟩ := by
  rw [ofReader]
  simp only [run]

theorem ofReader_bind (reader : Reader α) (next : α → Reader β) :
    ofReader (reader >>= next) = ofReader reader >>= fun found => ofReader (next found) := by
  funext state
  cases run : reader state.rest with
  | ok found left =>
      rw [bind_of_ok (ofReader_of_ok run state.findings state.errors)]
      simp only [ofReader]
      rw [bind_of_ok run]
  | error fault left =>
      have failed : ofReader reader state = .error fault { state with rest := left } := by
        rw [ofReader, run]
      rw [bind_of_error failed]
      rw [ofReader, bind_of_error run]

theorem attempt_of_ok {parser : Parser α} {before after : State} {value : α}
    (run : parser before = .ok value after) :
    attempt parser before = .ok (.ok value) after := by
  rw [attempt, run]

theorem attempt_of_error {parser : Parser α} {before after : State} {fault : Fault}
    (run : parser before = .error fault after) (room : fault.problem ≠ .tooDeep) :
    attempt parser before = .ok (.error fault) after := by
  rw [attempt, run]
  exact if_neg room

/-- A stack without room ends an attempt too. -/
theorem attempt_of_tooDeep {parser : Parser α} {before after : State} {fault : Fault}
    (run : parser before = .error fault after) (noRoom : fault.problem = .tooDeep) :
    attempt parser before = .error fault after := by
  rw [attempt, run]
  exact if_pos noRoom

theorem loop_of_done {step : β → Parser (ForInStep β)} {value result : β}
    {before after : State} (run : step value before = .ok (.done result) after) :
    loop value step before = .ok result after :=
  repeatSteps_of_done run

theorem loop_of_yield {step : β → Parser (ForInStep β)} {value found : β}
    {before between : State} (run : step value before = .ok (.yield found) between)
    (shorter : between.rest.length < before.rest.length) :
    loop value step before = loop found step between :=
  repeatSteps_of_yield run shorter

theorem loop_of_error {step : β → Parser (ForInStep β)} {value : β} {fault : Fault}
    {before after : State} (run : step value before = .error fault after) :
    loop value step before = .error fault after := by
  rw [loop, repeatSteps, run]

theorem steps_of_loop {step : β → Parser (ForInStep β)} {value result : β}
    {before after : State} (run : loop value step before = .ok result after) :
    Steps (fun state : State => state.rest.length) step value before result after :=
  steps_of_repeatSteps run

/-- A state with further remarks on record. -/
def State.note (state : State) (remarks : List Remark) : State :=
  { state with findings := state.findings ++ (remarks.map Finding.remark).toArray }

@[simp] theorem State.note_rest (state : State) (remarks : List Remark) :
    (state.note remarks).rest = state.rest := rfl

@[simp] theorem State.note_errors (state : State) (remarks : List Remark) :
    (state.note remarks).errors = state.errors := rfl

@[simp] theorem State.note_nil (state : State) : state.note [] = state := by
  simp [State.note]

theorem State.note_note (state : State) (first second : List Remark) :
    (state.note first).note second = state.note (first ++ second) := by
  simp [State.note]

theorem remark_tolerant (oddity : Remark) (state : State) :
    remark .tolerant oddity state = .ok () (state.note [oddity]) := by
  change EStateM.Result.ok () _ = _
  simp [State.note, Finding.isError, Finding.severity]

end Parser

end Interlock
