import Interlock.Proofs.Variable

/-!
# Statements as slices

A statement holds the tokens in front of the first semicolon that stands outside of all
groups.  Two readers find the end of a group in it: the reader of groups keeps the open
brackets with their shapes, the reader of state variables only counts brackets.  They
agree at every opening bracket, also where closing brackets are left over between groups.
-/

namespace Interlock

namespace Reader.Phrase

/-- A token that opens no group ends no statement either, and a phrase stands behind it. -/
theorem behind_token {token : Token} {rest : List Token} (reads : Phrase (token :: rest))
    (notOpening : ∀ shape, token.kind ≠ .opening shape) :
    (token.kind ≠ .semicolon ∧ token.kind ≠ .closing .brace ∧ token.kind ≠ .endOfFile) ∧
      Phrase rest := by
  generalize whole : token :: rest = tokens at reads
  cases reads with
  | nil => cases whole
  | token _ notClosing notSemicolon notEnd reads =>
      cases whole
      exact ⟨⟨notSemicolon, notClosing, notEnd⟩, reads⟩
  | @group shape result left encloses =>
      obtain ⟨rfl, -⟩ := List.cons.inj (whole.trans result.tokens_append)
      exact absurd encloses.opens (notOpening shape)

/-- Behind a group at the front of a phrase stands a phrase. -/
theorem behind_group {shape : Bracket} {found : Group} {rest : List Token}
    (encloses : found.Encloses shape) (reads : Phrase (found.tokens ++ rest)) : Phrase rest := by
  have taken : Reader.group (found.tokens ++ rest) = .ok found rest :=
    group_of_encloses encloses rest
  generalize found.tokens ++ rest = tokens at reads taken
  cases reads with
  | nil => cases taken
  | @token token _ notOpening =>
      obtain ⟨other, opens, split⟩ := group_encloses taken
      obtain ⟨rfl, -⟩ := List.cons.inj (split.trans found.tokens_append)
      exact absurd opens.opens (notOpening other)
  | @group other result left opens reads =>
      rw [group_of_encloses opens] at taken
      cases taken
      exact reads

/-- No token that ends a statement stands outside of the groups of a phrase. -/
theorem not_ends {front rest : List Token} {token : Token} (answered : Answered front)
    (reads : Phrase (front ++ token :: rest)) :
    token.kind ≠ .semicolon ∧ token.kind ≠ .closing .brace ∧ token.kind ≠ .endOfFile := by
  induction answered with
  | nil =>
      by_cases opens : ∃ shape, token.kind = .opening shape
      · obtain ⟨shape, opens⟩ := opens
        simp [opens]
      · exact (reads.behind_token fun shape same => opens ⟨shape, same⟩).1
  | token notOpening _ ih => exact ih (reads.behind_token notOpening).2
  | group encloses _ ih =>
      rw [List.append_assoc] at reads
      exact ih (reads.behind_group encloses)

/-- Tokens in which every group is answered are a phrase when none that ends a statement stands
outside of the groups. -/
theorem of_answered {phrase : List Token} (answered : Answered phrase)
    (within : ∀ front token rest, phrase = front ++ token :: rest → Answered front →
      token.kind ≠ .semicolon ∧ token.kind ≠ .closing .brace ∧ token.kind ≠ .endOfFile) :
    Phrase phrase := by
  induction answered with
  | nil => exact .nil
  | @token first rest notOpening _ ih =>
      obtain ⟨notSemicolon, notClosing, notEnd⟩ := within [] first rest rfl .nil
      refine .token notOpening notClosing notSemicolon notEnd (ih ?_)
      intro front token behind split outside
      exact within (first :: front) token behind (congrArg _ split) (.token notOpening outside)
  | @group shape found rest encloses _ ih =>
      refine .group encloses (ih ?_)
      intro front token behind split outside
      refine within (found.tokens ++ front) token behind ?_ (.group encloses outside)
      rw [split, List.append_assoc]

end Reader.Phrase

namespace Tree.Variable

/-- The place behind the group that is opened at a place, found by counting brackets. -/
def placePast (tokens : List Token) (place : Nat) : Nat :=
  tokens.length - (pastGroup 0 (tokens.drop (place + 1))).length

end Tree.Variable

namespace Reader

open Tree.Variable

/-- At an opening bracket of a phrase stands a group, which the reader of groups takes whatever
follows the phrase, and behind which counting ends. -/
theorem Phrase.group_at {phrase : List Token} (reads : Phrase phrase) {place : Nat}
    {opener : Token} {shape : Bracket} (stands : phrase[place]? = some opener)
    (opens : opener.kind = .opening shape) (rest : List Token) :
    ∃ found after, Reader.group ((phrase ++ rest).drop place) = .ok found (after ++ rest) ∧
      phrase = phrase.take place ++ (found.tokens ++ after) ∧
      pastGroup 0 (phrase.drop (place + 1)) = after := by
  obtain ⟨bound, rfl⟩ := List.getElem?_eq_some_iff.1 stands
  have behind : phrase.drop place = phrase[place] :: phrase.drop (place + 1) :=
    List.drop_eq_getElem_cons bound
  have whole : Answered (phrase.take place ++ phrase.drop place) := by
    rw [List.take_append_drop]
    exact reads.answered
  have answered : Answered (phrase[place] :: phrase.drop (place + 1)) := behind ▸ whole.of_append
  obtain ⟨found, after, encloses, isOpener, inner, -⟩ := answered.exists_group opens
  have split : phrase.drop place = found.tokens ++ after := by
    rw [behind, isOpener, inner, Group.tokens_append]
  refine ⟨found, after, ?_, ?_, ?_⟩
  · rw [List.drop_append_of_le_length (Nat.le_of_lt bound), split, List.append_assoc]
    exact group_of_encloses encloses _
  · rw [← split, List.take_append_drop]
  · rw [inner, pastGroup_of_encloses encloses]

/-- A statement is read exactly where a semicolon stands outside of all groups, in front of which
no other one, no closing brace and no end mark stand outside of the groups, and it is the slice up
to that semicolon.  In the slice counting brackets leads to the same place as reading the group, at
every opening bracket. -/
theorem statement_is_slice (tokens : List Token) :
    (∀ phrase left, statement tokens = .ok phrase left ↔
      ∃ semicolon, semicolon.kind = .semicolon ∧ tokens = phrase ++ semicolon :: left ∧
        Answered phrase ∧
        ∀ front token rest, phrase = front ++ token :: rest → Answered front →
          token.kind ≠ .semicolon ∧ token.kind ≠ .closing .brace ∧ token.kind ≠ .endOfFile) ∧
    ∀ phrase left, statement tokens = .ok phrase left →
      ∀ place opener shape, phrase[place]? = some opener → opener.kind = .opening shape →
        ∃ found : Group,
          group (tokens.drop place) = .ok found (tokens.drop (place + found.tokens.length)) ∧
          place + found.tokens.length ≤ phrase.length ∧
          placePast phrase place = place + found.tokens.length := by
  constructor
  · intro phrase left
    rw [statement_eq_ok_iff]
    constructor
    · rintro ⟨reads, semicolon, ends, split⟩
      refine ⟨semicolon, ends, split, reads.answered, ?_⟩
      intro front token rest same outside
      exact (same ▸ reads).not_ends outside
    · rintro ⟨semicolon, ends, split, answered, within⟩
      exact ⟨.of_answered answered within, semicolon, ends, split⟩
  · intro phrase left run place opener shape stands opens
    obtain ⟨reads, semicolon, -, rfl⟩ := statement_eq_ok_iff.1 run
    obtain ⟨found, after, taken, split, counted⟩ :=
      reads.group_at stands opens (semicolon :: left)
    obtain ⟨bound, -⟩ := List.getElem?_eq_some_iff.1 stands
    have front : (phrase.take place).length = place := List.length_take_of_le (Nat.le_of_lt bound)
    have length : phrase.length = place + found.tokens.length + after.length := by
      rw [split]
      simp only [List.length_append, front]
      omega
    have behind : phrase.drop (place + found.tokens.length) = after := by
      rw [split, ← List.append_assoc]
      exact List.drop_left' (by rw [List.length_append, front])
    refine ⟨found, ?_, by omega, ?_⟩
    · rw [taken, List.drop_append_of_le_length (by omega), behind]
    · rw [placePast, counted]
      omega

end Reader

end Interlock
