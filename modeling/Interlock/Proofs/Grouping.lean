import Interlock.Proofs.Balance

/-!
# Where a group ends and where it fails

A list that begins with an opening bracket begins with a group, or it breaks: at a
closing bracket of another shape than the innermost open one, or at the end with a
bracket still open.  The reader of groups answers the group in the first case and
names the break in the others, so that what it does is settled by the brackets alone.
-/

namespace Interlock

namespace Group

/-- Token lists that leave brackets open, the innermost first.  Behind each open bracket
stands a balanced list. -/
inductive Open : List Frame → List Token → Prop where
  | outermost {shape : Bracket} {opener : Token} {inner : List Token} :
      opener.kind = .opening shape → Balanced inner → Open [⟨shape, opener⟩] (opener :: inner)
  | within {frames : List Frame} {shape : Bracket} {opener : Token}
      {front inner : List Token} :
      Open frames front → opener.kind = .opening shape → Balanced inner →
      Open (⟨shape, opener⟩ :: frames) (front ++ opener :: inner)

/-- Balanced tokens leave the same brackets open. -/
theorem Open.append {frames : List Frame} {front more : List Token} (opened : Open frames front)
    (balanced : Balanced more) : Open frames (front ++ more) := by
  cases opened with
  | outermost opens inner => exact .outermost opens (inner.append balanced)
  | within outer opens inner =>
      rw [List.append_assoc, List.cons_append]
      exact .within outer opens (inner.append balanced)

/-- The bracket that answers the innermost one leaves those around it open. -/
theorem Open.close {frame next : Frame} {outer : List Frame} {front : List Token}
    {closer : Token} (opened : Open (frame :: next :: outer) front)
    (closes : closer.kind = .closing frame.shape) :
    Open (next :: outer) (front ++ [closer]) := by
  cases opened with
  | within outer opens inner =>
      rw [List.append_assoc]
      exact outer.append (.group opens inner closes .nil)

/-- How a list that begins with an opening bracket begins with no group, the fault that shows
there and the tokens that are left: a closing bracket that answers another shape is taken, the
end is not. -/
inductive Breaks : List Token → Fault → List Token → Prop where
  | mismatched {frame : Frame} {outer : List Frame} {shape : Bracket} {closer : Token}
      {front : List Token} (rest : List Token) :
      Open (frame :: outer) front → closer.kind = .closing shape → shape ≠ frame.shape →
      Breaks (front ++ closer :: rest) ⟨.mismatchedCloser closer frame.shape, some closer⟩ rest
  | unclosed {frame : Frame} {outer : List Frame} {front rest : List Token} :
      Open (frame :: outer) front → (∀ mark ∈ rest.head?, mark.kind = .endOfFile) →
      Breaks (front ++ rest) ⟨.unclosedGroup frame.shape frame.opener, rest.head?⟩ rest

end Group

namespace Reader

/-- Behind tokens that leave brackets open, the reader of groups reads on inside these. -/
theorem exists_groupFrom_of_open {frames : List Group.Frame} {front : List Token}
    (opened : Group.Open frames front) :
    ∃ first frame outer seen, frames = frame :: outer ∧
      ∀ rest, group (front ++ rest) = groupFrom first frame outer seen rest := by
  induction opened with
  | @outermost shape opener inner opens balanced =>
      refine ⟨opener, _, _, inner.reverse ++ [], rfl, fun rest => ?_⟩
      rw [List.cons_append, group]
      simp only [opens]
      exact groupFrom_append balanced ..
  | @within frames shape opener front inner _ opens balanced ih =>
      obtain ⟨first, frame, outer, seen, rfl, same⟩ := ih
      refine ⟨first, _, _, inner.reverse ++ opener :: seen, rfl, fun rest => ?_⟩
      rw [List.append_assoc, List.cons_append, same, groupFrom_opening opens]
      exact groupFrom_append balanced ..

/-- A list that breaks is refused where it breaks. -/
theorem group_of_breaks {tokens left : List Token} {fault : Fault}
    (breaks : Group.Breaks tokens fault left) : group tokens = .error fault left := by
  cases breaks with
  | mismatched _ opened closes differs =>
      obtain ⟨first, frame, outer, seen, same, read⟩ := exists_groupFrom_of_open opened
      cases same
      rw [read, groupFrom.eq_def]
      simp only [closes, if_neg differs]
  | unclosed opened ended =>
      obtain ⟨first, frame, outer, seen, same, read⟩ := exists_groupFrom_of_open opened
      cases same
      rw [read]
      cases left with
      | nil => rfl
      | cons mark left =>
          rw [groupFrom.eq_def]
          simp only [ended mark rfl]
          rfl

/-- A run that fails inside open brackets fails at a break. -/
theorem breaks_of_groupFrom {opener : Token} {frame : Group.Frame} {outer : List Group.Frame}
    {seen front tokens left : List Token} {fault : Fault}
    (opened : Group.Open (frame :: outer) front)
    (run : groupFrom opener frame outer seen tokens = .error fault left) :
    Group.Breaks (front ++ tokens) fault left := by
  induction tokens generalizing frame outer seen front with
  | nil =>
      cases run
      exact .unclosed opened nofun
  | cons token tokens ih =>
      have assoc : front ++ token :: tokens = front ++ [token] ++ tokens := by simp
      cases kind : token.kind with
      | endOfFile =>
          simp only [groupFrom, kind] at run
          cases run
          exact .unclosed opened (by simpa using kind)
      | opening shape =>
          rw [groupFrom_opening kind] at run
          rw [assoc]
          exact ih (.within opened kind .nil) run
      | closing shape =>
          by_cases same : shape = frame.shape
          · rw [groupFrom_closing (same ▸ kind)] at run
            cases outer with
            | nil => cases run
            | cons next below =>
                rw [assoc]
                exact ih (opened.close (same ▸ kind)) run
          · simp only [groupFrom, kind, if_neg same] at run
            cases run
            exact .mismatched _ opened kind same
      | _ =>
          have plain : token.kind.isPlain := by rw [kind]; rfl
          rw [groupFrom_plain plain] at run
          rw [assoc]
          exact ih (opened.append (.plain plain .nil)) run

/-- The reader of groups answers a group exactly where one stands at the front. -/
theorem group_eq_ok_iff {tokens left : List Token} {result : Group} :
    group tokens = .ok result left ↔
      (∃ shape, result.Encloses shape) ∧ tokens = result.tokens ++ left := by
  constructor
  · intro read
    obtain ⟨shape, encloses, split⟩ := group_encloses read
    exact ⟨⟨shape, encloses⟩, split⟩
  · rintro ⟨⟨shape, encloses⟩, rfl⟩
    exact group_of_encloses encloses left

/-- The reader of groups fails exactly where no bracket is opened, or where the list breaks. -/
theorem group_eq_error_iff {tokens left : List Token} {fault : Fault} :
    group tokens = .error fault left ↔
      Group.Breaks tokens fault left ∨
        (∀ token ∈ tokens.head?, ∀ shape, token.kind ≠ .opening shape) ∧
          fault = ⟨.expectedOpener, tokens.head?⟩ ∧ left = tokens := by
  constructor
  · intro run
    cases tokens with
    | nil =>
        cases run
        exact .inr ⟨nofun, rfl, rfl⟩
    | cons token tokens =>
        rw [group] at run
        split at run
        next shape opens => exact .inl (breaks_of_groupFrom (.outermost opens .nil) run)
        next notOpening =>
          cases run
          refine .inr ⟨?_, rfl, rfl⟩
          intro first same shape opens
          cases same
          exact notOpening shape opens
  · rintro (breaks | ⟨closed, rfl, rfl⟩)
    · exact group_of_breaks breaks
    · cases left with
      | nil => rfl
      | cons token rest =>
          rw [group]
          split
          next shape opens => exact absurd opens (closed token rfl shape)
          next => rfl

/-- The text of a group is read exactly where a balanced group stands at the front; it is the
texts between the outer brackets, and no other group stands there.  Else the reader fails: where
no bracket is opened at the front, or where the list breaks. -/
theorem group_read_iff_balanced (tokens : List Token) :
    (∀ text left, (group >>= fun found => pure found.text) tokens = .ok text left ↔
      ∃ shape opener inner closer, opener.kind = .opening shape ∧ Balanced inner ∧
        closer.kind = .closing shape ∧ tokens = opener :: (inner ++ closer :: left) ∧
        text = " ".intercalate (inner.map (·.text))) ∧
    (∀ first second : Group, (∃ shape, first.Encloses shape) → (∃ shape, second.Encloses shape) →
      first.tokens <+: tokens → second.tokens <+: tokens → first = second) ∧
    (∀ fault left, (group >>= fun found => pure found.text) tokens = .error fault left ↔
      Group.Breaks tokens fault left ∨
        (∀ token ∈ tokens.head?, ∀ shape, token.kind ≠ .opening shape) ∧
          fault = ⟨.expectedOpener, tokens.head?⟩ ∧ left = tokens) := by
  refine ⟨fun text left => ?_, ?_, fun fault left => ?_⟩
  · rw [map_eq_ok_iff]
    constructor
    · rintro ⟨⟨opener, inner, closer⟩, read, rfl⟩
      obtain ⟨⟨shape, opens, balanced, closes⟩, rfl⟩ := group_eq_ok_iff.1 read
      exact ⟨shape, opener, inner, closer, opens, balanced, closes, Group.tokens_append _, rfl⟩
    · rintro ⟨shape, opener, inner, closer, opens, balanced, closes, rfl, rfl⟩
      have encloses : Group.Encloses shape ⟨opener, inner, closer⟩ := ⟨opens, balanced, closes⟩
      have split := @Group.tokens_append left ⟨opener, inner, closer⟩
      exact ⟨_, group_eq_ok_iff.2 ⟨⟨shape, encloses⟩, split.symm⟩, rfl⟩
  · rintro first second firstEncloses secondEncloses ⟨left, split⟩ ⟨rest, again⟩
    have read := group_eq_ok_iff.2 ⟨firstEncloses, split.symm⟩
    rw [group_eq_ok_iff.2 ⟨secondEncloses, again.symm⟩] at read
    cases read
    rfl
  · rw [← group_eq_error_iff]
    cases run : group tokens with
    | ok found between =>
        rw [bind_of_ok run]
        constructor <;> (intro failed; cases failed)
    | error cause between =>
        rw [bind_of_error run]
        simp only [EStateM.Result.error.injEq]

end Reader

end Interlock
