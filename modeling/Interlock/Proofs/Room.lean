import Interlock.Proofs.Moving

/-!
# More room on the stack

A reading that is not given up does not depend on the room that the stack has: with more of it,
every part is read as before.  Only the reader of blocks looks at the room, and it does so where it
gives up otherwise.
-/

namespace Interlock

/-! ## Runs with more room -/

section Extending

variable {σ α β : Type}

/-- Whether `wider` does what `narrow` does wherever that has room. -/
def Extends (narrow wider : EStateM Fault σ α) : Prop :=
  ∀ before,
    (∃ fault after, narrow before = .error fault after ∧ fault.problem = .tooDeep) ∨
      wider before = narrow before

namespace Extends

theorem refl (run : EStateM Fault σ α) : Extends run run := fun _ => .inr rfl

/-- What is answered is answered with more room too. -/
theorem ok {narrow wider : EStateM Fault σ α} (extended : Extends narrow wider) {value : α}
    {before after : σ} (run : narrow before = .ok value after) :
    wider before = .ok value after := by
  rcases extended before with ⟨fault, last, failed, -⟩ | same
  · cases run.symm.trans failed
  · exact same.trans run

theorem bind {first other : EStateM Fault σ α} {next otherNext : α → EStateM Fault σ β}
    (earlier : Extends first other) (later : ∀ value, Extends (next value) (otherNext value)) :
    Extends (first >>= next) (other >>= otherNext) := by
  intro before
  cases run : first before with
  | error fault after =>
      rcases earlier before with ⟨_, _, failed, noRoom⟩ | same
      · exact .inl ⟨_, _, bind_of_error failed, noRoom⟩
      · rw [bind_of_error run, bind_of_error (same.trans run)]
        exact .inr rfl
  | ok value between =>
      rw [bind_of_ok run, bind_of_ok (earlier.ok run)]
      exact later value between

theorem repeatSteps {size : σ → Nat} {step other : β → EStateM Fault σ (ForInStep β)}
    (steps : ∀ value, Extends (step value) (other value)) (value : β) :
    Extends (repeatSteps size step value) (repeatSteps size other value) := by
  intro before
  fun_induction Interlock.repeatSteps size step value before with
  | case1 value before fault left run =>
      rcases steps value before with ⟨_, _, failed, noRoom⟩ | same
      · cases run.symm.trans failed
        exact .inl ⟨_, _, rfl, noRoom⟩
      · rw [Interlock.repeatSteps, same, run]
        exact .inr rfl
  | case2 value before result left run =>
      exact .inr (repeatSteps_of_done ((steps value).ok run))
  | case3 value before found left run shorter ih =>
      rw [repeatSteps_of_yield ((steps value).ok run) shorter]
      exact ih
  | case4 value before found left run stuck =>
      rw [Interlock.repeatSteps, (steps value).ok run]
      exact .inr (if_neg stuck)

end Extends

end Extending

/-! ## Readers -/

namespace Reader

variable {limit wider : Nat} (more : limit ≤ wider)
include more

end Reader

/-! ## Parsers -/

namespace Parser

variable {α : Type}

section Limit

variable {limit wider : Nat} (more : limit ≤ wider)
include more

end Limit

variable {narrow wider : StackRoom} (members : narrow.member ≤ wider.member)
include members

variable (functions : narrow.free ≤ wider.free)
include functions

end Parser

/-! ## Readings -/

namespace Reading

variable {narrow wider : StackRoom} {filename : String}
variable (members : narrow.member ≤ wider.member) (functions : narrow.free ≤ wider.free)
include members functions

end Reading

end Interlock
