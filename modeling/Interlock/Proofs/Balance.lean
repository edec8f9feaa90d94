import Interlock.Proofs.Run

/-!
# Balanced token lists

A token list is balanced when every bracket in it is closed by its own shape and
the brackets are nested.  The reader of groups keeps a stack of open brackets;
here it is shown to accept exactly an opening bracket, a balanced list and the
closing bracket of the same shape, whatever stands behind them.
-/

namespace Interlock

/-- Whether tokens of a kind are neither brackets nor end marks. -/
def Token.Kind.isPlain : Token.Kind → Bool
  | opening _ | closing _ | endOfFile => false
  | _ => true

theorem Token.Kind.isPlain_of_ne {kind : Token.Kind} (notEnd : kind ≠ .endOfFile)
    (notOpening : ∀ shape, kind ≠ .opening shape) (notClosing : ∀ shape, kind ≠ .closing shape) :
    kind.isPlain := by
  cases kind with
  | endOfFile => exact absurd rfl notEnd
  | opening shape => exact absurd rfl (notOpening shape)
  | closing shape => exact absurd rfl (notClosing shape)
  | _ => rfl

/-- Token lists without end marks in which every bracket is answered. -/
inductive Balanced : List Token → Prop where
  | nil : Balanced []
  | plain {token : Token} {rest : List Token} :
      token.kind.isPlain → Balanced rest → Balanced (token :: rest)
  | group {shape : Bracket} {opener closer : Token} {inner rest : List Token} :
      opener.kind = .opening shape → Balanced inner → closer.kind = .closing shape →
      Balanced rest → Balanced (opener :: (inner ++ closer :: rest))

theorem Balanced.append {first second : List Token} (left : Balanced first)
    (right : Balanced second) : Balanced (first ++ second) := by
  induction left with
  | nil => exact right
  | plain plain _ ih => exact .plain plain ih
  | group opens inner closes _ _ ih =>
      simpa using Balanced.group opens inner closes ih

/-- A group whose brackets have a given shape and enclose a balanced list. -/
structure Group.Encloses (shape : Bracket) (group : Group) : Prop where
  opens : group.opener.kind = .opening shape
  balanced : Balanced group.inner
  closes : group.closer.kind = .closing shape

theorem Group.tokens_append {rest : List Token} (group : Group) :
    group.tokens ++ rest = group.opener :: (group.inner ++ group.closer :: rest) := by
  simp [Group.tokens]

theorem Group.Encloses.balanced_tokens {shape : Bracket} {group : Group}
    (encloses : group.Encloses shape) : Balanced group.tokens :=
  .group encloses.opens encloses.balanced encloses.closes .nil

namespace Reader

/-! ## Reading a balanced list -/

section GroupFrom

variable {opener token : Token} {frame : Group.Frame} {outer : List Group.Frame}
variable {seen rest : List Token}

theorem groupFrom_plain (plain : token.kind.isPlain) :
    groupFrom opener frame outer seen (token :: rest) =
      groupFrom opener frame outer (token :: seen) rest := by
  cases kind : token.kind <;> simp_all [groupFrom, Token.Kind.isPlain]

theorem groupFrom_opening {shape : Bracket} (opens : token.kind = .opening shape) :
    groupFrom opener frame outer seen (token :: rest) =
      groupFrom opener ⟨shape, token⟩ (frame :: outer) (token :: seen) rest := by
  simp only [groupFrom, opens]

theorem groupFrom_closing (closes : token.kind = .closing frame.shape) :
    groupFrom opener frame outer seen (token :: rest) =
      match outer with
      | [] => .ok ⟨opener, seen.reverse, token⟩ rest
      | next :: below => groupFrom opener next below (token :: seen) rest := by
  cases outer <;> simp only [groupFrom, closes, if_true]

end GroupFrom

/-- A balanced list leaves the stack of open brackets as it was. -/
theorem groupFrom_append {inner : List Token} (balanced : Balanced inner)
    (opener : Token) (frame : Group.Frame) (outer : List Group.Frame)
    (seen rest : List Token) :
    groupFrom opener frame outer seen (inner ++ rest) =
      groupFrom opener frame outer (inner.reverse ++ seen) rest := by
  induction balanced generalizing frame outer seen rest with
  | nil => rfl
  | @plain token inner plain _ ih =>
      rw [List.cons_append, groupFrom_plain plain, ih]
      simp
  | @group shape first last inner more opens _ closes _ innerIH moreIH =>
      have assoc : first :: (inner ++ last :: more) ++ rest =
          first :: (inner ++ last :: (more ++ rest)) := by simp
      rw [assoc, groupFrom_opening opens, innerIH, groupFrom_closing closes]
      simp only
      rw [moreIH]
      simp

/-- The reader of groups takes a group and nothing behind it. -/
theorem group_of_encloses {shape : Bracket} {result : Group}
    (encloses : result.Encloses shape) (rest : List Token) :
    group (result.tokens ++ rest) = .ok result rest := by
  obtain ⟨opener, inner, closer⟩ := result
  have opens : opener.kind = .opening shape := encloses.opens
  have closes : closer.kind = .closing shape := encloses.closes
  have assoc : (Group.mk opener inner closer).tokens ++ rest =
      opener :: (inner ++ closer :: rest) := Group.tokens_append _
  rw [assoc, group]
  simp only [opens]
  rw [groupFrom_append encloses.balanced, groupFrom_closing closes]
  simp

/-! ## What a group that was read looks like -/

/-- A run inside open brackets reads a balanced list and the closing bracket of the
innermost one; behind that it goes on inside the next bracket, or ends. -/
theorem groupFrom_split {opener : Token} {frame : Group.Frame}
    {outer : List Group.Frame} {seen tokens left : List Token} {result : Group}
    (read : groupFrom opener frame outer seen tokens = .ok result left) :
    ∃ inner closer more, Balanced inner ∧ closer.kind = .closing frame.shape ∧
      tokens = inner ++ closer :: more ∧
      match outer with
      | [] => result = ⟨opener, seen.reverse ++ inner, closer⟩ ∧ left = more
      | next :: below =>
          groupFrom opener next below (closer :: (inner.reverse ++ seen)) more =
            .ok result left := by
  -- The run behind an inner group is on a shorter list, not on the tail.
  induction length : tokens.length using Nat.strongRecOn
    generalizing frame outer seen tokens with
  | ind size ih =>
  cases tokens with
  | nil => simp [groupFrom] at read
  | cons token rest =>
      subst length
      simp only [groupFrom] at read
      split at read
      next => simp at read
      next shape opens =>
        obtain ⟨inner, closer, more, balanced, closes, split, after⟩ :=
          ih rest.length (by simp) read rfl
        simp only at after
        have shorter : more.length < (token :: rest).length := by
          simp [split]
          omega
        obtain ⟨next, last, final, nextBalanced, lastCloses, nextSplit, ending⟩ :=
          ih more.length shorter after rfl
        refine ⟨token :: (inner ++ closer :: next), last, final,
          .group opens balanced closes nextBalanced, lastCloses, ?_, ?_⟩
        · simp [split, nextSplit]
        · cases outer <;> simpa using ending
      next shape closes =>
        split at read
        next same =>
          refine ⟨[], token, rest, .nil, same ▸ closes, rfl, ?_⟩
          cases outer with
          | nil => simpa [eq_comm] using read
          | cons next below => simpa using read
        next => simp at read
      next notEnd notOpening notClosing =>
        have plain : token.kind.isPlain := Token.Kind.isPlain_of_ne notEnd notOpening notClosing
        obtain ⟨inner, closer, more, balanced, closes, split, after⟩ :=
          ih rest.length (by simp) read rfl
        refine ⟨token :: inner, closer, more, .plain plain balanced, closes, ?_, ?_⟩
        · simp [split]
        · cases outer <;> simpa using after

/-- What the reader of groups takes is a balanced group at the front. -/
theorem group_encloses {tokens left : List Token} {result : Group}
    (read : group tokens = .ok result left) :
    ∃ shape, result.Encloses shape ∧ tokens = result.tokens ++ left := by
  cases tokens with
  | nil => simp [group] at read
  | cons token rest =>
      rw [group] at read
      split at read
      next shape opens =>
        obtain ⟨inner, closer, more, balanced, closes, split, same, tail⟩ :=
          groupFrom_split read
        subst same tail
        refine ⟨shape, ⟨opens, by simpa using balanced, closes⟩, ?_⟩
        simp [Group.tokens, split]
      next => simp at read

/-- The shape of a group that was read is that of its first token. -/
theorem group_encloses_of_opening {shape : Bracket} {token : Token}
    {rest left : List Token} {result : Group} (opens : token.kind = .opening shape)
    (read : group (token :: rest) = .ok result left) :
    result.Encloses shape ∧ token :: rest = result.tokens ++ left := by
  obtain ⟨other, encloses, split⟩ := group_encloses read
  have first : token = result.opener := by
    simp only [Group.tokens, List.cons_append, List.cons.injEq] at split
    exact split.1
  have same : shape = other := by
    have kinds := encloses.opens
    rw [← first, opens] at kinds
    injection kinds
  exact ⟨same ▸ encloses, split⟩

end Reader

end Interlock
