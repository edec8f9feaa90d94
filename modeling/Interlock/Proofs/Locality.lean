import Interlock.Proofs.Balance

/-!
# Readers take a prefix

A reader that answers has taken some tokens off the front.  It is local when the
answer depends on those tokens alone, or on them and on the little it sees of what
it leaves: then the same tokens are read in the same way wherever they stand.

Locality is kept by sequences and by repetition, so each reader of declarations
inherits it from its parts.  A declaration that ends in a semicolon, a block or a
group sees nothing of what follows.
-/

namespace Interlock

/-- What a reader sees of the tokens that it leaves: `sees left rest` says that it
cannot tell `rest` from `left`.  Lists with one first token look the same. -/
structure Look where
  sees : List Token → List Token → Prop
  same : ∀ (token : Token) (left rest : List Token), sees (token :: left) (token :: rest)

namespace Look

/-- All lists look the same. -/
def nothing : Look where
  sees _ _ := True
  same _ _ _ := trivial

/-- Only the first token is seen. -/
def front : Look where
  sees left rest := left.head? = rest.head?
  same _ _ _ := rfl

theorem front_nil {rest : List Token} (sees : front.sees [] rest) : rest = [] := by
  cases rest with
  | nil => rfl
  | cons token rest => cases (show none = some token from sees)

/-- Common tokens in front of lists that look the same change nothing. -/
theorem sees_append (look : Look) {left rest : List Token} (sees : look.sees left rest)
    (taken : List Token) : look.sees (taken ++ left) (taken ++ rest) := by
  cases taken with
  | nil => exact sees
  | cons token taken => exact look.same token _ _

end Look

namespace Reader

variable {α β : Type}

/-- A reader whose answers depend on the tokens that it takes and on what it sees of
the rest. -/
def Local (look : Look) (reader : Reader α) : Prop :=
  ∀ ⦃tokens left : List Token⦄ ⦃value : α⦄, reader tokens = .ok value left →
    ∃ taken, tokens = taken ++ left ∧
      ∀ rest, look.sees left rest → reader (taken ++ rest) = .ok value rest

/-- A reader that takes at least one token when it answers. -/
def Takes (reader : Reader α) : Prop :=
  ∀ ⦃tokens left : List Token⦄ ⦃value : α⦄, reader tokens = .ok value left →
    left.length < tokens.length

namespace Local

variable {look : Look} {reader : Reader α} {next : α → Reader β}

/-- A reader that sees less may stand where more is seen. -/
theorem mono {less : Look} (read : Local less reader)
    (fewer : ∀ ⦃left rest⦄, look.sees left rest → less.sees left rest) :
    Local look reader := by
  intro tokens left value run
  obtain ⟨taken, split, again⟩ := read run
  exact ⟨taken, split, fun rest sees => again rest (fewer sees)⟩

theorem of_nothing (read : Local .nothing reader) : Local look reader :=
  read.mono fun _ _ _ => trivial

theorem length_le (read : Local look reader) {tokens left : List Token} {value : α}
    (run : reader tokens = .ok value left) : left.length ≤ tokens.length := by
  obtain ⟨taken, rfl, -⟩ := read run
  simp

theorem pure (value : α) : Local look (pure value) := by
  intro tokens left found run
  obtain ⟨rfl, rfl⟩ := pure_eq_ok_iff.1 run
  exact ⟨[], rfl, fun rest _ => rfl⟩

theorem failAt (problem : Problem) (token : Option Token) :
    Local look (failAt problem token : Reader α) := by
  intro tokens left found run
  cases run

theorem bind (first : Local look reader) (second : ∀ value, Local look (next value)) :
    Local look (reader >>= next) := by
  intro tokens left value run
  obtain ⟨found, between, firstRun, secondRun⟩ := bind_eq_ok_iff.1 run
  obtain ⟨taken, rfl, firstAgain⟩ := first firstRun
  obtain ⟨more, rfl, secondAgain⟩ := second found secondRun
  refine ⟨taken ++ more, by simp, fun rest sees => ?_⟩
  rw [List.append_assoc, bind_of_ok (firstAgain _ (look.sees_append sees more))]
  exact secondAgain rest sees

/-- What a first reader sees is taken by the second one. -/
theorem bind_takes (first : Local look reader)
    (second : ∀ value, Local .nothing (next value)) (takes : ∀ value, Takes (next value)) :
    Local .nothing (reader >>= next) := by
  intro tokens left value run
  obtain ⟨found, between, firstRun, secondRun⟩ := bind_eq_ok_iff.1 run
  obtain ⟨taken, rfl, firstAgain⟩ := first firstRun
  have shorter := takes found secondRun
  obtain ⟨more, rfl, secondAgain⟩ := second found secondRun
  cases more with
  | nil => simp at shorter
  | cons token more =>
      refine ⟨taken ++ token :: more, by simp, fun rest _ => ?_⟩
      have opening := firstAgain (token :: more ++ rest) (look.same token _ _)
      rw [List.append_assoc, bind_of_ok opening]
      exact secondAgain rest trivial

end Local

/-- A local reader that takes a token takes the first one. -/
theorem Local.taken_cons {look : Look} {reader : Reader α} (read : Local look reader)
    (takes : Takes reader) {token : Token} {more left : List Token} {value : α}
    (run : reader (token :: more) = .ok value left) :
    ∃ taken, more = taken ++ left ∧
      ∀ rest, look.sees left rest → reader (token :: (taken ++ rest)) = .ok value rest := by
  have shorter := takes run
  obtain ⟨taken, split, again⟩ := read run
  cases taken with
  | nil => simp [split] at shorter
  | cons first taken =>
      obtain ⟨rfl, same⟩ := List.cons.inj split
      exact ⟨taken, same, again⟩

/-- A reader that refuses the empty list and sees nothing of what follows takes a token. -/
theorem Local.takes {reader : Reader α} (read : Local .nothing reader)
    (refuses : ∀ value left, reader [] ≠ .ok value left) : Takes reader := by
  intro tokens left value run
  obtain ⟨taken, rfl, again⟩ := read run
  cases taken with
  | nil => exact absurd (again [] trivial) (refuses value [])
  | cons token taken =>
      simp only [List.length_cons, List.length_append]
      omega

namespace Takes

variable {reader : Reader α} {next : α → Reader β} {look : Look}

theorem bind_left (first : Takes reader) (second : ∀ value, Local look (next value)) :
    Takes (reader >>= next) := by
  intro tokens left value run
  obtain ⟨found, between, firstRun, secondRun⟩ := bind_eq_ok_iff.1 run
  exact Nat.lt_of_le_of_lt ((second found).length_le secondRun) (first firstRun)

theorem bind_right (first : Local look reader) (second : ∀ value, Takes (next value)) :
    Takes (reader >>= next) := by
  intro tokens left value run
  obtain ⟨found, between, firstRun, secondRun⟩ := bind_eq_ok_iff.1 run
  exact Nat.lt_of_lt_of_le (second found secondRun) (first.length_le firstRun)

end Takes

/-! ## Readers that look at the front -/

theorem local_current : Local .front current := by
  intro tokens left value run
  cases run
  refine ⟨[], rfl, fun rest sees => ?_⟩
  change EStateM.Result.ok rest.head? rest = _
  rw [← show tokens.head? = rest.head? from sees]

/-- Testing the front for a kind is local where that kind is seen. -/
theorem local_at?_of_seen {look : Look} {kind : Token.Kind}
    (seen : ∀ ⦃left rest⦄, look.sees left rest →
      left.head?.any (·.kind = kind) = rest.head?.any (·.kind = kind)) :
    Local look (at? kind) := by
  intro tokens left value run
  cases run
  refine ⟨[], rfl, fun rest sees => ?_⟩
  change EStateM.Result.ok (rest.head?.any (·.kind = kind)) rest = _
  rw [← seen sees]

theorem local_at? (kind : Token.Kind) : Local .front (at? kind) :=
  local_at?_of_seen fun left rest sees => by
    rw [show left.head? = rest.head? from sees]

theorem local_atWord? (word : String) : Local .front (atWord? word) := by
  rw [atWord?, atText?]
  exact local_current.bind fun _ => .pure _

theorem local_advance {look : Look} (ends : ∀ ⦃rest⦄, look.sees [] rest → rest = []) :
    Local look advance := by
  intro tokens left value run
  cases tokens with
  | nil =>
      cases run
      refine ⟨[], rfl, fun rest sees => ?_⟩
      rw [ends sees]
      rfl
  | cons token tokens =>
      cases run
      exact ⟨[token], rfl, fun rest _ => rfl⟩

theorem expectElse_eq_ok_iff {kind : Token.Kind} {problem : Problem}
    {tokens left : List Token} {token : Token} :
    expectElse kind problem tokens = .ok token left ↔
      tokens = token :: left ∧ token.kind ≠ .endOfFile ∧ token.kind = kind := by
  cases tokens with
  | nil => simp [expectElse]
  | cons first rest =>
      simp only [expectElse, Bool.or_eq_true, decide_eq_true_eq, List.cons.injEq]
      split
      next refused =>
        simp only [reduceCtorEq, false_iff]
        rintro ⟨⟨rfl, rfl⟩, notEnd, same⟩
        exact refused.elim notEnd fun differs => differs same
      next accepted =>
        simp only [EStateM.Result.ok.injEq]
        constructor
        · rintro ⟨rfl, rfl⟩
          exact ⟨⟨rfl, rfl⟩, fun ends => accepted (.inl ends),
            Classical.not_not.1 fun differs => accepted (.inr differs)⟩
        · rintro ⟨⟨rfl, rfl⟩, -⟩
          exact ⟨rfl, rfl⟩

theorem local_expectElse (kind : Token.Kind) (problem : Problem) :
    Local .nothing (expectElse kind problem) := by
  intro tokens left token run
  obtain ⟨rfl, notEnd, same⟩ := expectElse_eq_ok_iff.1 run
  exact ⟨[token], rfl, fun rest _ => expectElse_eq_ok_iff.2 ⟨rfl, notEnd, same⟩⟩

theorem takes_expectElse (kind : Token.Kind) (problem : Problem) :
    Takes (expectElse kind problem) := by
  intro tokens left token run
  obtain ⟨rfl, -⟩ := expectElse_eq_ok_iff.1 run
  simp

theorem local_expectName (what : String) : Local .nothing (expectName what) :=
  local_expectElse .identifier (.expectedName what)

/-! ## Repetition -/

section Loop

variable {look : Look} {step : β → Reader (ForInStep β)}

theorem local_loop (steps : ∀ value, Local look (step value)) (value : β) :
    Local look (loop value step) := by
  intro tokens left result run
  have chain := steps_of_loop run
  clear run
  induction chain with
  | done run =>
      obtain ⟨taken, rfl, again⟩ := steps _ run
      exact ⟨taken, rfl, fun rest sees => loop_of_done (again rest sees)⟩
  | @next value found result before between after run shorter _ ih =>
      obtain ⟨taken, rfl, again⟩ := steps _ run
      obtain ⟨more, rfl, moreAgain⟩ := ih
      refine ⟨taken ++ more, by simp, fun rest sees => ?_⟩
      have nonempty : 0 < taken.length := by simpa using shorter
      rw [List.append_assoc]
      refine (loop_of_yield (again _ (look.sees_append sees more)) ?_).trans
        (moreAgain rest sees)
      simpa using nonempty
  | stall run stuck =>
      obtain ⟨taken, rfl, again⟩ := steps _ run
      have empty : taken = [] := by simpa using stuck
      subst empty
      exact ⟨[], rfl, fun rest sees => loop_of_stall (again rest sees)⟩

/-- A repetition takes a token and sees nothing of what follows when each step goes on
behind tokens of its own and the last step takes a token and sees nothing. -/
theorem loop_split (steps : ∀ value, Local look (step value))
    (yields : ∀ ⦃value found tokens left⦄, step value tokens = .ok (.yield found) left →
      left.length < tokens.length)
    (dones : ∀ ⦃value result tokens left⦄, step value tokens = .ok (.done result) left →
      ∃ token taken, tokens = token :: (taken ++ left) ∧
        ∀ rest, step value (token :: (taken ++ rest)) = .ok (.done result) rest)
    {value result : β} {tokens left : List Token}
    (run : loop value step tokens = .ok result left) :
    ∃ token taken, tokens = token :: (taken ++ left) ∧
      ∀ rest, loop value step (token :: (taken ++ rest)) = .ok result rest := by
  have chain := steps_of_loop run
  clear run
  induction chain with
  | done run =>
      obtain ⟨token, taken, split, again⟩ := dones run
      exact ⟨token, taken, split, fun rest => loop_of_done (again rest)⟩
  | next run shorter _ ih =>
      obtain ⟨taken, rfl, again⟩ := steps _ run
      -- What the later steps take begins with a token, and this step sees only that one.
      obtain ⟨token, more, rfl, moreAgain⟩ := ih
      cases taken with
      | nil => simp at shorter
      | cons first taken =>
          refine ⟨first, taken ++ token :: more, by simp, fun rest => ?_⟩
          have head := again (token :: (more ++ rest)) (look.same _ _ _)
          have same : first :: (taken ++ token :: more ++ rest) =
              first :: taken ++ token :: (more ++ rest) := by simp
          rw [same]
          refine (loop_of_yield head ?_).trans (moreAgain rest)
          simp only [List.length_cons, List.length_append]
          omega
  | stall run stuck => exact absurd (yields run) stuck

end Loop

end Reader

end Interlock
