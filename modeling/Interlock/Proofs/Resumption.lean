import Interlock.Proofs.Nesting
import Interlock.Proofs.Recovery
import Mathlib.Data.List.Induction

/-!
# The next statement

Behind a fault a tolerant reading goes on at the next statement.  It looks for it token
by token and keeps count of the open braces.  Here the places where it may stop are
described by the tokens taken so far, without that count, and the search is shown to
stop at the first of them.

All else follows from this.  A brace that closes none of the braces taken is such a
place, so the search never leaves the scope it begins in.  It takes nothing only where
that brace or the end is in front, and so never needs a step of its own to get on.
-/

namespace Interlock.Parser

/-! ## Places to stop -/

/-- A statement ends with the last of some tokens: with a semicolon outside of braces, or with
the brace behind which none is open. -/
inductive StatementEnds : List Token → Prop where
  | semicolon {front : List Token} {token : Token} :
      token.kind = .semicolon → surplus .brace front = 0 → StatementEnds (front ++ [token])
  | block {front : List Token} {closer : Token} :
      closer.kind = .closing .brace → surplus .brace (front ++ [closer]) = 0 →
      StatementEnds (front ++ [closer])

/-- The search for the next statement may stop behind `taken`, in front of `left`. -/
inductive StopsAt : (taken left : List Token) → Prop where
  | atEnd {taken left : List Token} : AtEnd left → StopsAt taken left
  | behind {taken left : List Token} : StatementEnds taken → StopsAt taken left
  | scope {taken outside : List Token} {closer : Token} :
      closer.kind = .closing .brace → surplus .brace taken = 0 →
      StopsAt taken (closer :: outside)

section Places

variable {token : Token} {front taken rest : List Token}

theorem not_statementEnds_nil : ¬ StatementEnds [] := by
  intro ends
  generalize same : ([] : List Token) = tokens at ends
  cases ends with
  | semicolon => simp at same
  | block => simp at same

theorem statementEnds_snoc_iff :
    StatementEnds (front ++ [token]) ↔
      token.kind = .semicolon ∧ surplus .brace front = 0 ∨
        token.kind = .closing .brace ∧ surplus .brace (front ++ [token]) = 0 := by
  constructor
  · intro ends
    generalize same : front ++ [token] = tokens at ends
    cases ends with
    | semicolon isSemicolon outside =>
        obtain ⟨rfl, last⟩ := List.append_inj' same rfl
        cases last
        exact .inl ⟨isSemicolon, outside⟩
    | block closes outside =>
        obtain ⟨rfl, last⟩ := List.append_inj' same rfl
        cases last
        exact .inr ⟨closes, outside⟩
  · rintro (⟨isSemicolon, outside⟩ | ⟨closes, outside⟩)
    · exact .semicolon isSemicolon outside
    · exact .block closes outside

theorem stopsAt_cons_iff :
    StopsAt taken (token :: rest) ↔
      token.kind = .endOfFile ∨ StatementEnds taken ∨
        token.kind = .closing .brace ∧ surplus .brace taken = 0 := by
  constructor
  · intro stops
    cases stops with
    | atEnd ended => exact .inl (of_decide_eq_true ended)
    | behind ends => exact .inr (.inl ends)
    | scope closes outside => exact .inr (.inr ⟨closes, outside⟩)
  · rintro (isEnd | ends | ⟨closes, outside⟩)
    · exact .atEnd (decide_eq_true isEnd)
    · exact .behind ends
    · exact .scope closes outside

/-- Where nothing has been taken, only the end and a closing brace stop the search. -/
theorem stopsAt_start_iff {tokens : List Token} :
    StopsAt [] tokens ↔
      AtEnd tokens ∨
        ∃ closer outside, tokens = closer :: outside ∧ closer.kind = .closing .brace := by
  constructor
  · intro stops
    cases stops with
    | atEnd ended => exact .inl ended
    | behind ends => exact absurd ends not_statementEnds_nil
    | scope closes _ => exact .inr ⟨_, _, rfl, closes⟩
  · rintro (ended | ⟨closer, outside, rfl, closes⟩)
    · exact .atEnd ended
    · exact .scope closes surplus_nil

end Places

/-! ## The first place to stop -/

/-- Behind `seen` the search takes `taken`, and in front of `left` it may stop for the first
time. -/
structure FirstStop (seen taken left : List Token) : Prop where
  stops : StopsAt (seen ++ taken) left
  earlier : ∀ front token back, taken = front ++ token :: back →
    ¬ StopsAt (seen ++ front) (token :: (back ++ left))

namespace FirstStop

variable {token : Token} {seen taken left : List Token}

theorem here (stops : StopsAt seen left) : FirstStop seen [] left where
  stops := by rwa [List.append_nil]
  earlier front token back same := by simp at same

theorem take (goesOn : ¬ StopsAt seen (token :: (taken ++ left)))
    (first : FirstStop (seen ++ [token]) taken left) :
    FirstStop seen (token :: taken) left where
  stops := by
    have stops := first.stops
    rwa [List.append_assoc] at stops
  earlier front next back same := by
    cases front with
    | nil =>
        cases same
        rwa [List.append_nil]
    | cons other front =>
        obtain ⟨rfl, inner⟩ := List.cons.inj same
        have earlier := first.earlier front next back inner
        rwa [List.append_assoc] at earlier

/-- Nothing is taken exactly where the search may stop at once. -/
theorem eq_nil_iff (first : FirstStop seen taken left) :
    taken = [] ↔ StopsAt seen (taken ++ left) := by
  constructor
  · rintro rfl
    have stops := first.stops
    rwa [List.append_nil] at stops
  · intro stops
    cases taken with
    | nil => rfl
    | cons token back =>
        have goesOn := first.earlier [] token back rfl
        rw [List.append_nil] at goesOn
        exact absurd stops goesOn

/-- No more braces are closed than opened: the first one too many would stop the search. -/
theorem surplus_le (first : FirstStop [] taken left) {front : List Token}
    (begins : front <+: taken) : surplus .brace front ≤ 0 := by
  induction front using List.reverseRecOn with
  | nil => exact Int.le_refl 0
  | append_singleton front token ih =>
      obtain ⟨back, rfl⟩ := begins
      have before : surplus .brace front ≤ 0 := ih ⟨token :: back, by simp⟩
      rw [surplus_append, surplus_cons, surplus_nil]
      by_cases closes : token.kind = .closing .brace
      · have goesOn : ¬ StopsAt front (token :: (back ++ left)) :=
          first.earlier front token back (by simp)
        have inside : surplus .brace front ≠ 0 := fun outside => goesOn (.scope closes outside)
        rw [closes, Token.Kind.weight_closing]
        omega
      · have opensOrNot : token.kind.weight .brace ≤ 0 := by
          by_cases opens : token.kind = .opening .brace
          · simp [opens]
          · exact Int.le_of_eq (Token.Kind.weight_of_ne opens closes)
        omega

/-- A brace that closes none of those in front of it is left, with all behind it. -/
theorem leaves_scope (first : FirstStop [] taken left) {inside outside : List Token}
    {closer : Token} (split : taken ++ left = inside ++ closer :: outside)
    (closes : closer.kind = .closing .brace) (level : surplus .brace inside = 0) :
    closer :: outside <:+ left := by
  rcases List.append_eq_append_iff.1 split with ⟨more, -, same⟩ | ⟨more, same, behind⟩
  · exact ⟨more, same.symm⟩
  · cases more with
    | nil =>
        rw [List.nil_append] at behind
        exact ⟨[], behind⟩
    | cons next back =>
        obtain ⟨rfl, -⟩ := List.cons.inj behind
        exact absurd (.scope closes level) (first.earlier inside closer back same)

end FirstStop

/-! ## The search -/

/-- The search has taken `seen`, in which `depth` braces are open, and no statement has ended. -/
structure Searching (depth : Nat) (seen : List Token) : Prop where
  opened : surplus .brace seen = -depth
  goesOn : ¬ StatementEnds seen

namespace Searching

variable {depth : Nat} {token : Token} {seen rest : List Token}

theorem start : Searching 0 [] := ⟨rfl, not_statementEnds_nil⟩

theorem not_stopsAt (searching : Searching depth seen) (notEnd : token.kind ≠ .endOfFile)
    (inside : token.kind = .closing .brace → depth ≠ 0) : ¬ StopsAt seen (token :: rest) := by
  have opened := searching.opened
  rw [stopsAt_cons_iff]
  rintro (isEnd | ends | ⟨closes, outside⟩)
  · exact notEnd isEnd
  · exact searching.goesOn ends
  · exact inside closes (by omega)

theorem behind_opener (searching : Searching depth seen) (opens : token.kind = .opening .brace) :
    Searching (depth + 1) (seen ++ [token]) where
  opened := by
    rw [surplus_snoc, searching.opened, opens, Token.Kind.weight_opening]
    omega
  goesOn := by simp [statementEnds_snoc_iff, opens]

/-- A closing brace closes one of the braces that are open. -/
theorem surplus_closer (searching : Searching (depth + 1) seen)
    (closes : token.kind = .closing .brace) : surplus .brace (seen ++ [token]) = -depth := by
  rw [surplus_snoc, searching.opened, closes, Token.Kind.weight_closing]
  omega

theorem behind_closer (searching : Searching (depth + 2) seen)
    (closes : token.kind = .closing .brace) : Searching (depth + 1) (seen ++ [token]) := by
  have opened := searching.surplus_closer closes
  refine ⟨opened, ?_⟩
  rw [statementEnds_snoc_iff, opened]
  rintro (⟨isSemicolon, -⟩ | ⟨-, outside⟩)
  · simp [closes] at isSemicolon
  · omega

theorem behind_other (searching : Searching depth seen)
    (notOpener : token.kind ≠ .opening .brace) (notCloser : token.kind ≠ .closing .brace)
    (inside : token.kind = .semicolon → depth ≠ 0) : Searching depth (seen ++ [token]) where
  opened := by
    rw [surplus_snoc, searching.opened, Token.Kind.weight_of_ne notOpener notCloser, Int.add_zero]
  goesOn := by
    have opened := searching.opened
    rw [statementEnds_snoc_iff]
    rintro (⟨isSemicolon, outside⟩ | ⟨closes, -⟩)
    · exact inside isSemicolon (by omega)
    · exact notCloser closes

/-- Where the search may not stop, a token is taken and the search goes on behind it. -/
theorem exists_take {left : List Token} (goesOn : ¬ StopsAt seen (token :: rest))
    (found : ∃ taken, rest = taken ++ left ∧ FirstStop (seen ++ [token]) taken left) :
    ∃ taken, token :: rest = taken ++ left ∧ FirstStop seen taken left := by
  obtain ⟨taken, rfl, first⟩ := found
  exact ⟨token :: taken, rfl, .take goesOn first⟩

/-- The search stops at the first place where it may. -/
theorem firstStop (searching : Searching depth seen) (tokens : List Token) :
    ∃ taken, tokens = taken ++ nextStatementFrom depth tokens ∧
      FirstStop seen taken (nextStatementFrom depth tokens) := by
  -- What the search has taken grows as it goes on, so it is left open in the induction.
  fun_induction nextStatementFrom depth tokens generalizing seen with
  | case1 depth => exact ⟨[], rfl, .here (.atEnd rfl)⟩
  | case2 depth token rest isEnd => exact ⟨[], rfl, .here (.atEnd (decide_eq_true isEnd))⟩
  | case3 token rest isSemicolon =>
      have ends : StatementEnds (seen ++ [token]) := .semicolon isSemicolon searching.opened
      apply exists_take (searching.not_stopsAt (by simp [isSemicolon]) (by simp [isSemicolon]))
      exact ⟨[], rfl, .here (.behind ends)⟩
  | case4 token rest depth opens ih =>
      apply exists_take (searching.not_stopsAt (by simp [opens]) (by simp [opens]))
      exact ih (searching.behind_opener opens)
  | case5 token rest closes => exact ⟨[], rfl, .here (.scope closes searching.opened)⟩
  | case6 token rest closes =>
      have outside : surplus .brace (seen ++ [token]) = 0 := searching.surplus_closer closes
      apply exists_take (searching.not_stopsAt (by simp [closes]) (by simp))
      exact ⟨[], rfl, .here (.behind (.block closes outside))⟩
  | case7 token rest depth closes ih =>
      apply exists_take (searching.not_stopsAt (by simp [closes]) (by simp))
      exact ih (searching.behind_closer closes)
  | case8 token rest depth notEnd notSemicolon notOpener notFirst notLast notInner ih =>
      have notCloser : token.kind ≠ .closing .brace := by
        intro closes
        match depth with
        | 0 => exact notFirst closes rfl
        | 1 => exact notLast closes rfl
        | depth + 2 => exact notInner depth closes rfl
      apply exists_take (searching.not_stopsAt notEnd fun closes => absurd closes notCloser)
      exact ih (searching.behind_other notOpener notCloser notSemicolon)

end Searching

/-! ## Going on -/

/-- Steps over the token in front, unless it is a closing brace. -/
def stepUnlessCloser : Parser Unit := do
  if (← Reader.current).any (·.kind ≠ .closing .brace) then
    let _ ← Reader.advance

/-- Goes on at the next statement, and steps over a token where that takes nothing and neither the
end nor a closing brace is in front. -/
def resumeOrStep : Parser Unit := do
  let before := (← get).rest.length
  resume
  if (← get).rest.length = before && !(← Reader.atEnd) then stepUnlessCloser

theorem stepUnlessCloser_closer {state : State} {closer : Token} {outside : List Token}
    (front : state.rest = closer :: outside) (closes : closer.kind = .closing .brace) :
    stepUnlessCloser state = .ok () state := by
  have idle : state.rest.head?.any (·.kind ≠ .closing .brace) = false := by
    simp [front, closes]
  rw [stepUnlessCloser, current_bind, idle]
  rfl

/-- Where the search takes nothing, the end or a closing brace is in front. -/
theorem stopsAt_of_stuck {tokens : List Token}
    (stuck : (nextStatementFrom 0 tokens).length = tokens.length) :
    StopsAt [] (nextStatementFrom 0 tokens) := by
  obtain ⟨taken, split, first⟩ := Searching.start.firstStop tokens
  have total : tokens.length = taken.length + (nextStatementFrom 0 tokens).length := by
    rw [← List.length_append, ← split]
  have nothing : taken = [] := List.eq_nil_of_length_eq_zero (by omega)
  have stops := first.eq_nil_iff.1 nothing
  rwa [nothing] at stops

/-- The step is never needed. -/
theorem resumeOrStep_eq : resumeOrStep = resume := by
  funext before
  let after : State := { before with rest := nextStatementFrom 0 before.rest }
  have run : resumeOrStep before =
      (if after.rest.length = before.rest.length && !after.rest.head?.all (·.kind = .endOfFile)
        then stepUnlessCloser else pure ()) after := by
    change ((liftM Reader.atEnd : Parser Bool) >>= fun ended =>
      if after.rest.length = before.rest.length && !ended
        then stepUnlessCloser else pure ()) after = _
    rw [liftM_eq_ofReader, bind_of_ok (ofReader_of_ok (atEnd_eq _) _ _)]
  rw [run]
  split
  next isStuck =>
    rw [Bool.and_eq_true, decide_eq_true_eq, Bool.not_eq_true'] at isStuck
    obtain ⟨stuck, notEnd⟩ := isStuck
    rcases stopsAt_start_iff.1 (stopsAt_of_stuck stuck) with
      ended | ⟨closer, outside, front, closes⟩
    · exact absurd (notEnd.symm.trans ended) (by simp)
    · exact stepUnlessCloser_closer front closes
  next => rfl

/-- Going on at the next statement always ends, at the first place where it may stop, and never
needs to step over a token on top of that.  No more braces are closed than opened on the way, so
the brace that closes the scope is left.  Nothing is taken exactly at the end and in front of a
closing brace. -/
theorem resume_stops_at_next_statement (before : State) :
    ∃ taken left, before.rest = taken ++ left ∧
      resume before = .ok () { before with rest := left } ∧ resumeOrStep before = resume before ∧
      (∀ front, front <+: taken → surplus .brace front ≤ 0) ∧
      (∀ inside closer outside, before.rest = inside ++ closer :: outside →
        closer.kind = .closing .brace → surplus .brace inside = 0 → closer :: outside <:+ left) ∧
      StopsAt taken left ∧
      (∀ front token back, taken = front ++ token :: back →
        ¬ StopsAt front (token :: (back ++ left))) ∧
      (taken = [] ↔ AtEnd before.rest ∨
        ∃ closer outside, before.rest = closer :: outside ∧ closer.kind = .closing .brace) := by
  obtain ⟨taken, split, first⟩ := Searching.start.firstStop before.rest
  refine ⟨taken, _, split, rfl, congrFun resumeOrStep_eq before,
    fun front begins => first.surplus_le begins, ?_, first.stops, first.earlier, ?_⟩
  · intro inside closer outside same closes level
    exact first.leaves_scope (split.symm.trans same) closes level
  · rw [first.eq_nil_iff, ← split]
    exact stopsAt_start_iff

end Interlock.Parser
