import Interlock.Diagnostic

/-!
# Leaving out what remarks are about

A remark is about a stray semicolon, a directive with its semicolon, or a keyword that
says something again.  A token list is pruned by leaving out, one after the other, the
tokens that its remarks are about.  Where no token occurs twice there is only one way
to do that.
-/

namespace Interlock

/-- The run of tokens that a remark is about, which begins at the token of the remark. -/
inductive Remark.Covers : Remark → List Token → Prop where
  | stray {token : Token} : Covers (.straySemicolon token) [token]
  | directive {start semicolon : Token} {more : List Token} :
      semicolon.kind = .semicolon →
      Covers (.unrecognizedDirective start (start :: more)) (start :: more ++ [semicolon])
  | duplicate {token : Token} {previous : String} :
      Covers (.duplicateSpecifier token previous) [token]

namespace Remark.Covers

variable {remark : Remark} {run other : List Token}

theorem begins (covers : remark.Covers run) : ∃ more, run = remark.token :: more := by
  cases covers <;> exact ⟨_, rfl⟩

/-- A remark is about one number of tokens. -/
theorem length_eq (covers : remark.Covers run) (again : remark.Covers other) :
    run.length = other.length := by
  cases covers <;> cases again <;> simp

end Remark.Covers

/-- A token list is another one without the tokens that some remarks are about. -/
inductive Pruned : List Remark → List Token → List Token → Prop where
  | nil : Pruned [] [] []
  | keep {remarks : List Remark} {full kept : List Token} (token : Token) :
      Pruned remarks full kept → Pruned remarks (token :: full) (token :: kept)
  | drop {remark : Remark} {remarks : List Remark} {run full kept : List Token} :
      remark.Covers run → Pruned remarks full kept →
      Pruned (remark :: remarks) (run ++ full) kept

namespace Pruned

variable {remarks more : List Remark} {full kept other : List Token}

/-- Without remarks nothing is left out. -/
theorem refl (tokens : List Token) : Pruned [] tokens tokens := by
  induction tokens with
  | nil => exact .nil
  | cons token tokens ih => exact .keep token ih

theorem single {remark : Remark} {run : List Token} (covers : remark.Covers run) :
    Pruned [remark] run [] := by
  simpa using Pruned.drop covers .nil

theorem append {rest keptRest : List Token} (first : Pruned remarks full kept)
    (second : Pruned more rest keptRest) :
    Pruned (remarks ++ more) (full ++ rest) (kept ++ keptRest) := by
  induction first with
  | nil => exact second
  | keep token _ ih => exact .keep token ih
  | drop covers _ ih =>
      rw [List.append_assoc]
      exact .drop covers ih

theorem sublist (pruned : Pruned remarks full kept) : kept.Sublist full := by
  induction pruned with
  | nil => exact .slnil
  | keep token _ ih => exact ih.cons_cons token
  | @drop _ _ run _ _ _ _ ih => exact ih.trans (List.sublist_append_right run _)

/-- What a remark is about is there. -/
theorem token_mem (pruned : Pruned remarks full kept) {remark : Remark}
    (member : remark ∈ remarks) : remark.token ∈ full := by
  induction pruned with
  | nil => cases member
  | keep token _ ih => exact List.mem_cons_of_mem token (ih member)
  | drop covers _ ih =>
      rcases List.mem_cons.1 member with rfl | member
      · obtain ⟨more, rfl⟩ := covers.begins
        exact List.mem_append_left _ (List.mem_cons_self ..)
      · exact List.mem_append_right _ (ih member)

/-- Of distinct tokens the one in front is left out or not as the remarks say. -/
theorem not_keep_and_drop {remark : Remark} {token : Token} {run rest : List Token}
    (distinct : (token :: full).Nodup) (kept : Pruned (remark :: remarks) full kept)
    (covers : remark.Covers run) (split : token :: full = run ++ rest) : False := by
  obtain ⟨more, rfl⟩ := covers.begins
  obtain ⟨rfl, -⟩ := List.cons.inj split
  exact (List.nodup_cons.1 distinct).1 (kept.token_mem (List.mem_cons_self ..))

/-- Distinct tokens are pruned in one way only. -/
theorem unique (distinct : full.Nodup) (first : Pruned remarks full kept)
    (second : Pruned remarks full other) : kept = other := by
  induction first generalizing other with
  | nil =>
      generalize empty : ([] : List Token) = full at second
      cases second with
      | nil => rfl
      | keep => cases empty
  | @keep remarks full kept token first ih =>
      generalize same : token :: full = tokens at second
      cases second with
      | nil => cases same
      | keep next second =>
          obtain ⟨rfl, rfl⟩ := List.cons.inj same
          rw [ih (List.nodup_cons.1 distinct).2 second]
      | drop covers second => exact (not_keep_and_drop distinct first covers same).elim
  | @drop remark remarks run full kept covers first ih =>
      generalize same : run ++ full = tokens at second
      cases second with
      | keep next second =>
          rw [same] at distinct
          exact (not_keep_and_drop distinct second covers same.symm).elim
      | drop again second =>
          obtain ⟨rfl, rfl⟩ := List.append_inj same (covers.length_eq again)
          exact ih (List.nodup_append.1 distinct).2.1 second

end Pruned

end Interlock
