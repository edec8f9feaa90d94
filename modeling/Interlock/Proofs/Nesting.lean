import Interlock.Proofs.Balance
import Mathlib.Algebra.Ring.Int.Defs

/-!
# Nesting up to loose brackets

Whether brackets are balanced is decided on a stack of the open ones.  A source that
nests leaves a bracket loose where a reader steps over it: a closing bracket in a
statement among declarations, or any bracket that begins no group of its own in the
head of inline assembly.  Each scope between braces has its own loose brackets.

Here the loose brackets are shown to decide the balance of the whole: it is balanced
exactly when the loose brackets of every scope are balanced by themselves.
-/

namespace Interlock

/-! ## The stack of open brackets -/

/-- The open brackets behind a token of a kind, innermost first; `none` if it closes no bracket
or one of another shape. -/
def Token.Kind.onto (stack : List Bracket) : Token.Kind → Option (List Bracket)
  | opening shape => some (shape :: stack)
  | closing shape =>
      match stack with
      | [] => none
      | top :: below => if top = shape then some below else none
  | endOfFile => none
  | _ => some stack

/-- The open brackets behind a token list. -/
def stackBehind (stack : List Bracket) : List Token → Option (List Bracket)
  | [] => some stack
  | token :: rest => (token.kind.onto stack).bind (stackBehind · rest)

section Stack

variable {token : Token} {tokens rest : List Token} {stack : List Bracket}

theorem stackBehind_append (first second : List Token) (stack : List Bracket) :
    stackBehind stack (first ++ second) =
      (stackBehind stack first).bind (stackBehind · second) := by
  induction first generalizing stack with
  | nil => rfl
  | cons token first ih =>
      simp only [List.cons_append, stackBehind, Option.bind_assoc]
      congr
      funext above
      exact ih above

theorem stackBehind_plain (plain : token.kind.isPlain) :
    stackBehind stack (token :: rest) = stackBehind stack rest := by
  cases kind : token.kind <;> simp_all [stackBehind, Token.Kind.onto, Token.Kind.isPlain]

theorem stackBehind_opening {shape : Bracket} (opens : token.kind = .opening shape) :
    stackBehind stack (token :: rest) = stackBehind (shape :: stack) rest := by
  simp [stackBehind, Token.Kind.onto, opens]

theorem stackBehind_closing {shape : Bracket} (closes : token.kind = .closing shape) :
    stackBehind (shape :: stack) (token :: rest) = stackBehind stack rest := by
  simp [stackBehind, Token.Kind.onto, closes]

/-- Only a bracket of its own shape is closed. -/
theorem top_of_closing {shape : Bracket} {above : List Bracket}
    (closes : token.kind = .closing shape)
    (run : stackBehind stack (token :: rest) = some above) :
    ∃ below, stack = shape :: below ∧ stackBehind below rest = some above := by
  simp only [stackBehind, Token.Kind.onto, closes] at run
  cases stack with
  | nil => cases run
  | cons top below =>
      dsimp only at run
      split at run
      next same =>
        subst same
        exact ⟨below, rfl, run⟩
      next => cases run

/-- A balanced list leaves the stack as it was. -/
theorem Balanced.stackBehind_append (balanced : Balanced tokens) (stack : List Bracket)
    (rest : List Token) : stackBehind stack (tokens ++ rest) = stackBehind stack rest := by
  induction balanced generalizing stack rest with
  | nil => rfl
  | plain plain _ ih =>
      rw [List.cons_append, stackBehind_plain plain]
      exact ih stack rest
  | group opens _ closes _ innerIH restIH =>
      rw [List.cons_append, List.append_assoc, stackBehind_opening opens, innerIH,
        List.cons_append, stackBehind_closing closes]
      exact restIH stack rest

/-- A run that closes an open bracket passes over a balanced list first. -/
theorem split_of_stackBehind {shape : Bracket}
    (run : stackBehind (shape :: stack) tokens = some []) :
    ∃ inner closer rest, Balanced inner ∧ closer.kind = .closing shape ∧
      tokens = inner ++ closer :: rest ∧ stackBehind stack rest = some [] := by
  -- Behind an inner group the run goes on with a list that is shorter, but no tail.
  induction size : tokens.length using Nat.strongRecOn generalizing shape stack tokens with
  | ind size ih =>
  subst size
  cases tokens with
  | nil => cases run
  | cons token tokens =>
      cases kind : token.kind with
      | endOfFile => simp [stackBehind, Token.Kind.onto, kind] at run
      | closing other =>
          obtain ⟨below, same, run⟩ := top_of_closing kind run
          obtain ⟨rfl, rfl⟩ := List.cons.inj same
          exact ⟨[], token, tokens, .nil, kind, rfl, run⟩
      | opening other =>
          rw [stackBehind_opening kind] at run
          obtain ⟨inner, closer, rest, balanced, closes, rfl, behind⟩ :=
            ih tokens.length (by simp) run rfl
          have shorter : rest.length < (token :: (inner ++ closer :: rest)).length := by
            simp only [List.length_cons, List.length_append]
            omega
          obtain ⟨next, last, final, nextBalanced, lastCloses, rfl, ending⟩ :=
            ih rest.length shorter behind rfl
          refine ⟨token :: (inner ++ closer :: next), last, final,
            .group kind balanced closes nextBalanced, lastCloses, ?_, ending⟩
          simp
      | _ =>
          have plain : token.kind.isPlain := by rw [kind]; rfl
          rw [stackBehind_plain plain] at run
          obtain ⟨inner, closer, rest, balanced, closes, rfl, behind⟩ :=
            ih tokens.length (by simp) run rfl
          exact ⟨token :: inner, closer, rest, .plain plain balanced, closes, rfl, behind⟩

/-- A list is balanced exactly when nothing is open behind it. -/
theorem balanced_iff_stackBehind : Balanced tokens ↔ stackBehind [] tokens = some [] := by
  constructor
  · intro balanced
    have run := balanced.stackBehind_append [] []
    rwa [List.append_nil] at run
  · intro run
    induction size : tokens.length using Nat.strongRecOn generalizing tokens with
    | ind size ih =>
    subst size
    cases tokens with
    | nil => exact .nil
    | cons token tokens =>
        cases kind : token.kind with
        | endOfFile => simp [stackBehind, Token.Kind.onto, kind] at run
        | closing shape =>
            obtain ⟨below, same, -⟩ := top_of_closing kind run
            cases same
        | opening shape =>
            rw [stackBehind_opening kind] at run
            obtain ⟨inner, closer, rest, balanced, closes, rfl, behind⟩ :=
              split_of_stackBehind run
            have shorter : rest.length < (token :: (inner ++ closer :: rest)).length := by
              simp only [List.length_cons, List.length_append]
              omega
            exact .group kind balanced closes (ih rest.length shorter behind rfl)
        | _ =>
            have plain : token.kind.isPlain := by rw [kind]; rfl
            rw [stackBehind_plain plain] at run
            exact .plain plain (ih tokens.length (by simp) run rfl)

instance : DecidablePred Balanced := fun tokens =>
  decidable_of_iff (stackBehind [] tokens = some []) balanced_iff_stackBehind.symm

end Stack

/-! ## Loose brackets -/

/-- Brackets that a reader may step over.  An opening parenthesis or brace is none of them. -/
def Token.Loose (token : Token) : Prop :=
  token.kind = .opening .square ∨ ∃ shape, token.kind = .closing shape

/-- The head of inline assembly, with the brackets that are loose in it. -/
inductive AssemblyHead : (loose head : List Token) → Prop where
  | nil : AssemblyHead [] []
  | plain {token : Token} {loose head : List Token} :
      token.kind.isPlain → AssemblyHead loose head → AssemblyHead loose (token :: head)
  | group {group : Group} {loose head : List Token} :
      group.Encloses .paren → AssemblyHead loose head →
      AssemblyHead loose (group.tokens ++ head)
  | loose {token : Token} {loose head : List Token} :
      token.Loose → AssemblyHead loose head → AssemblyHead (token :: loose) (token :: head)

/-- What stands between two braces. -/
inductive Scope where
  | declarations
  | statements

/-- Token lists that nest up to loose brackets: those of the scope itself, and those of each
scope inside it. -/
inductive Nest : Scope → (loose : List Token) → (inner : List (List Token)) → List Token →
    Prop where
  | nil {scope : Scope} : Nest scope [] [] []
  | plain {scope : Scope} {token : Token} {loose rest : List Token} {inner : List (List Token)} :
      token.kind.isPlain → Nest scope loose inner rest → Nest scope loose inner (token :: rest)
  | group {scope : Scope} {shape : Bracket} {group : Group} {loose rest : List Token}
      {inner : List (List Token)} :
      group.Encloses shape → Nest scope loose inner rest →
      Nest scope loose inner (group.tokens ++ rest)
  | stray {shape : Bracket} {token : Token} {loose rest : List Token}
      {inner : List (List Token)} :
      token.kind = .closing shape → shape ≠ .brace → Nest .declarations loose inner rest →
      Nest .declarations (token :: loose) inner (token :: rest)
  | assembly {word : Token} {flags head loose rest : List Token} {body : Group}
      {inner : List (List Token)} :
      word.isWord "assembly" → AssemblyHead flags head → body.Encloses .brace →
      Nest .statements loose inner rest →
      Nest .statements (flags ++ loose) inner (word :: (head ++ (body.tokens ++ rest)))
  | scope {inside outside : Scope} {opener closer : Token} {own body loose rest : List Token}
      {nested inner : List (List Token)} :
      opener.kind = .opening .brace → Nest inside own nested body →
      closer.kind = .closing .brace → Nest outside loose inner rest →
      Nest outside loose (own :: (nested ++ inner)) (opener :: (body ++ closer :: rest))

theorem Nest.append {scope : Scope} {loose more tokens rest : List Token}
    {inner further : List (List Token)} (first : Nest scope loose inner tokens)
    (second : Nest scope more further rest) :
    Nest scope (loose ++ more) (inner ++ further) (tokens ++ rest) := by
  induction first with
  | nil => exact second
  | plain plain _ ih => exact .plain plain (ih second)
  | group encloses _ ih =>
      rw [List.append_assoc]
      exact .group encloses (ih second)
  | stray closes notBrace _ ih => exact .stray closes notBrace (ih second)
  | assembly isWord reads encloses _ ih =>
      simpa using Nest.assembly isWord reads encloses (ih second)
  | scope opens body closes _ _ ih =>
      simpa using Nest.scope opens body closes (ih second)

theorem Token.isPlain_of_isWord {token : Token} {word : String} (isWord : token.isWord word) :
    token.kind.isPlain := by
  simp only [Token.isWord, Bool.and_eq_true, decide_eq_true_eq] at isWord
  rw [isWord.1]
  rfl

theorem AssemblyHead.stackBehind_eq {flags head : List Token} (reads : AssemblyHead flags head)
    (stack : List Bracket) : stackBehind stack head = stackBehind stack flags := by
  induction reads generalizing stack with
  | nil => rfl
  | plain plain _ ih =>
      rw [stackBehind_plain plain]
      exact ih stack
  | group encloses _ ih =>
      rw [encloses.balanced_tokens.stackBehind_append]
      exact ih stack
  | loose _ _ ih =>
      simp only [stackBehind]
      congr
      funext above
      exact ih above

/-- Where the loose brackets of the inner scopes are balanced, those of the scope itself are all
that moves the stack. -/
theorem Nest.stackBehind_eq {scope : Scope} {loose tokens : List Token}
    {inner : List (List Token)} (nest : Nest scope loose inner tokens)
    (balanced : ∀ own ∈ inner, Balanced own) (stack : List Bracket) :
    stackBehind stack tokens = stackBehind stack loose := by
  induction nest generalizing stack with
  | nil => rfl
  | plain plain _ ih =>
      rw [stackBehind_plain plain]
      exact ih balanced stack
  | group encloses _ ih =>
      rw [encloses.balanced_tokens.stackBehind_append]
      exact ih balanced stack
  | stray _ _ _ ih =>
      simp only [stackBehind]
      congr
      funext above
      exact ih balanced above
  | assembly isWord reads encloses _ ih =>
      rw [stackBehind_plain (Token.isPlain_of_isWord isWord), stackBehind_append,
        reads.stackBehind_eq, stackBehind_append]
      congr
      funext above
      rw [encloses.balanced_tokens.stackBehind_append]
      exact ih balanced above
  | scope opens _ closes _ bodyIH restIH =>
      have own := balanced _ (List.mem_cons_self ..)
      have nested : ∀ other ∈ _, Balanced other := fun other member =>
        balanced other (List.mem_cons_of_mem _ (List.mem_append_left _ member))
      have behind : ∀ other ∈ _, Balanced other := fun other member =>
        balanced other (List.mem_cons_of_mem _ (List.mem_append_right _ member))
      have same := own.stackBehind_append (.brace :: stack) []
      rw [List.append_nil] at same
      rw [stackBehind_opening opens, stackBehind_append, bodyIH nested, same]
      change stackBehind (.brace :: stack) (_ :: _) = _
      rw [stackBehind_closing closes]
      exact restIH behind stack

/-! ## Surplus brackets -/

/-- What a token of a kind adds to the surplus of closing brackets of a shape. -/
def Token.Kind.weight (shape : Bracket) : Token.Kind → Int
  | opening other => if other = shape then -1 else 0
  | closing other => if other = shape then 1 else 0
  | _ => 0

/-- How many more brackets of a shape are closed than opened. -/
def surplus (shape : Bracket) (tokens : List Token) : Int :=
  (tokens.map fun token => token.kind.weight shape).sum

section Surplus

variable {shape : Bracket} {token : Token} {loose tokens rest : List Token}

@[simp] theorem surplus_nil : surplus shape [] = 0 := rfl

@[simp] theorem surplus_cons :
    surplus shape (token :: rest) = token.kind.weight shape + surplus shape rest :=
  List.sum_cons

@[simp] theorem surplus_append (first second : List Token) :
    surplus shape (first ++ second) = surplus shape first + surplus shape second := by
  simp [surplus]

theorem Token.Kind.weight_plain {kind : Token.Kind} (plain : kind.isPlain) :
    kind.weight shape = 0 := by
  cases kind <;> first | rfl | cases plain

theorem surplus_snoc :
    surplus shape (tokens ++ [token]) = surplus shape tokens + token.kind.weight shape := by
  simp

@[simp] theorem Token.Kind.weight_opening : (opening shape).weight shape = -1 := if_pos rfl

@[simp] theorem Token.Kind.weight_closing : (closing shape).weight shape = 1 := if_pos rfl

theorem Token.Kind.weight_of_ne {kind : Token.Kind} (notOpening : kind ≠ opening shape)
    (notClosing : kind ≠ closing shape) : kind.weight shape = 0 := by
  cases kind with
  | opening other => exact if_neg fun same => notOpening (congrArg _ same)
  | closing other => exact if_neg fun same => notClosing (congrArg _ same)
  | _ => rfl

theorem Balanced.surplus_eq (balanced : Balanced tokens) : surplus shape tokens = 0 := by
  induction balanced with
  | nil => rfl
  | plain plain _ ih => simp [Token.Kind.weight_plain plain, ih]
  | group opens _ closes _ innerIH restIH =>
      simp only [surplus_cons, surplus_append, opens, closes, innerIH, restIH, Token.Kind.weight]
      split <;> rfl

theorem AssemblyHead.surplus_eq {flags head : List Token} (reads : AssemblyHead flags head) :
    surplus shape head = surplus shape flags := by
  induction reads with
  | nil => rfl
  | plain plain _ ih => simp [Token.Kind.weight_plain plain, ih]
  | group encloses _ ih => simp [encloses.balanced_tokens.surplus_eq, ih]
  | loose _ _ ih => simp [ih]

/-- All surplus is in loose brackets. -/
theorem Nest.surplus_eq {scope : Scope} {inner : List (List Token)}
    (nest : Nest scope loose inner tokens) :
    surplus shape tokens = surplus shape (loose ++ inner.flatten) := by
  induction nest with
  | nil => rfl
  | plain plain _ ih =>
      rw [surplus_cons, Token.Kind.weight_plain plain, Int.zero_add, ih]
  | group encloses _ ih =>
      rw [surplus_append, encloses.balanced_tokens.surplus_eq, Int.zero_add, ih]
  | stray _ _ _ ih => rw [surplus_cons, ih, List.cons_append, surplus_cons]
  | @assembly word _ _ _ _ _ _ isWord reads encloses _ ih =>
      have plain : word.kind.weight shape = 0 :=
        Token.Kind.weight_plain (Token.isPlain_of_isWord isWord)
      simp only [surplus_cons, surplus_append, plain, reads.surplus_eq,
        encloses.balanced_tokens.surplus_eq] at ih ⊢
      omega
  | scope opens _ closes _ bodyIH restIH =>
      have pair : (Token.Kind.opening .brace).weight shape +
          (Token.Kind.closing .brace).weight shape = 0 := by
        simp only [Token.Kind.weight]
        split <;> rfl
      simp only [surplus_cons, surplus_append, opens, closes, List.flatten_cons,
        List.flatten_append] at bodyIH restIH ⊢
      omega

theorem AssemblyHead.isLoose {flags head : List Token} (reads : AssemblyHead flags head) :
    ∀ token ∈ flags, token.Loose := by
  induction reads with
  | nil => exact nofun
  | plain _ _ ih => exact ih
  | group _ _ ih => exact ih
  | loose isLoose _ ih =>
      intro token member
      rcases List.mem_cons.1 member with rfl | member
      · exact isLoose
      · exact ih token member

theorem Nest.isLoose {scope : Scope} {inner : List (List Token)}
    (nest : Nest scope loose inner tokens) :
    ∀ token ∈ loose ++ inner.flatten, token.Loose := by
  induction nest with
  | nil => exact nofun
  | plain _ _ ih => exact ih
  | group _ _ ih => exact ih
  | stray closes _ _ ih =>
      intro token member
      rcases List.mem_cons.1 member with rfl | member
      · exact .inr ⟨_, closes⟩
      · exact ih token member
  | assembly _ reads _ _ ih =>
      intro token member
      rw [List.append_assoc] at member
      rcases List.mem_append.1 member with member | member
      · exact reads.isLoose token member
      · exact ih token member
  | scope _ _ _ _ bodyIH restIH =>
      intro token member
      simp only [List.flatten_cons, List.flatten_append, List.mem_append] at bodyIH restIH member
      rcases member with outer | own | nested | inner
      · exact restIH token (.inl outer)
      · exact bodyIH token (.inl own)
      · exact bodyIH token (.inr nested)
      · exact restIH token (.inr inner)

theorem Token.Loose.weight_nonneg (isLoose : token.Loose) (round : shape ≠ .square) :
    0 ≤ token.kind.weight shape := by
  rcases isLoose with opens | ⟨other, closes⟩
  · simp [opens, Token.Kind.weight, round.symm]
  · rw [closes, Token.Kind.weight]
    split <;> decide

theorem surplus_nonneg (isLoose : ∀ token ∈ loose, token.Loose) (round : shape ≠ .square) :
    0 ≤ surplus shape loose := by
  induction loose with
  | nil => exact Int.le_refl _
  | cons token loose ih =>
      rw [surplus_cons]
      apply Int.add_nonneg
      · exact (isLoose token (List.mem_cons_self ..)).weight_nonneg round
      · exact ih fun other member => isLoose other (List.mem_cons_of_mem _ member)

/-- Only square brackets can be opened loosely, so the others must not be closed loosely where
there is no surplus. -/
theorem square_of_surplus_eq (isLoose : ∀ token ∈ loose, token.Loose)
    (even : ∀ shape, surplus shape loose = 0) :
    ∀ token ∈ loose, token.kind = .opening .square ∨ token.kind = .closing .square := by
  intro token member
  rcases isLoose token member with opens | ⟨shape, closes⟩
  · exact .inl opens
  · by_cases square : shape = .square
    · exact .inr (square ▸ closes)
    · obtain ⟨before, after, rfl⟩ := List.append_of_mem member
      have first : 0 ≤ surplus shape before :=
        surplus_nonneg (fun other inside => isLoose other (by simp [inside])) square
      have second : 0 ≤ surplus shape after :=
        surplus_nonneg (fun other inside => isLoose other (by simp [inside])) square
      have total := even shape
      simp only [surplus_append, surplus_cons, closes, Token.Kind.weight, if_true] at total
      omega

end Surplus

/-! ## Balance -/

/-- Whether all brackets of a list are square. -/
def AllSquare (tokens : List Token) : Prop :=
  ∀ token ∈ tokens, token.kind = .opening .square ∨ token.kind = .closing .square

theorem allSquare_append {first second : List Token} :
    AllSquare (first ++ second) ↔ AllSquare first ∧ AllSquare second :=
  List.forall_mem_append

theorem allSquare_cons {token : Token} {tokens : List Token} :
    AllSquare (token :: tokens) ↔
      (token.kind = .opening .square ∨ token.kind = .closing .square) ∧ AllSquare tokens :=
  List.forall_mem_cons

section Square

variable {own : List Token}

/-- Square brackets do not reach what is open around a brace. -/
theorem stackBehind_square (square : AllSquare own) (pushed stack : List Bracket) :
    stackBehind (pushed ++ .brace :: stack) own =
      (stackBehind pushed own).map (· ++ .brace :: stack) := by
  induction own generalizing pushed with
  | nil => rfl
  | cons token own ih =>
      obtain ⟨opens | closes, later⟩ := allSquare_cons.1 square
      · rw [stackBehind_opening opens, stackBehind_opening opens]
        exact ih later (.square :: pushed)
      · cases pushed with
        | nil => simp [stackBehind, Token.Kind.onto, closes]
        | cons top below =>
            by_cases same : top = .square
            · rw [same, List.cons_append, stackBehind_closing closes, stackBehind_closing closes]
              exact ih later below
            · simp [stackBehind, Token.Kind.onto, closes, same]

theorem square_of_stackBehind (square : AllSquare own) {pushed above : List Bracket}
    (inside : ∀ shape ∈ pushed, shape = .square) (run : stackBehind pushed own = some above) :
    ∀ shape ∈ above, shape = .square := by
  induction own generalizing pushed with
  | nil =>
      cases run
      exact inside
  | cons token own ih =>
      obtain ⟨opens | closes, later⟩ := allSquare_cons.1 square
      · rw [stackBehind_opening opens] at run
        refine ih later ?_ run
        intro shape member
        rcases List.mem_cons.1 member with rfl | member
        · rfl
        · exact inside shape member
      · obtain ⟨below, rfl, behind⟩ := top_of_closing closes run
        exact ih later (fun shape member => inside shape (List.mem_cons_of_mem _ member)) behind

/-- Square brackets that leave a brace on top of the stack are balanced. -/
theorem balanced_of_brace (square : AllSquare own) {stack below : List Bracket}
    (run : stackBehind (.brace :: stack) own = some (.brace :: below)) :
    Balanced own := by
  have apart := stackBehind_square square [] stack
  rw [List.nil_append, run] at apart
  obtain ⟨above, alone, same⟩ := Option.map_eq_some_iff.1 apart.symm
  cases above with
  | nil => exact balanced_iff_stackBehind.2 alone
  | cons top above =>
      obtain ⟨rfl, -⟩ := List.cons.inj same
      have impossible := square_of_stackBehind square (by simp) alone .brace (by simp)
      cases impossible

end Square

/-- A run that never closes the wrong bracket finds every inner scope balanced, if only square
brackets are loose. -/
theorem Nest.balanced_inner {scope : Scope} {loose tokens : List Token}
    {inner : List (List Token)} (nest : Nest scope loose inner tokens)
    (square : AllSquare (loose ++ inner.flatten)) {stack above : List Bracket}
    (run : stackBehind stack tokens = some above) : ∀ own ∈ inner, Balanced own := by
  induction nest generalizing stack above with
  | nil => exact nofun
  | plain plain _ ih =>
      rw [stackBehind_plain plain] at run
      exact ih square run
  | group encloses _ ih =>
      rw [encloses.balanced_tokens.stackBehind_append] at run
      exact ih square run
  | stray _ _ _ ih =>
      obtain ⟨between, -, run⟩ := Option.bind_eq_some_iff.1 run
      exact ih (allSquare_cons.1 square).2 run
  | assembly isWord _ encloses _ ih =>
      rw [stackBehind_plain (Token.isPlain_of_isWord isWord), stackBehind_append] at run
      obtain ⟨between, -, run⟩ := Option.bind_eq_some_iff.1 run
      rw [encloses.balanced_tokens.stackBehind_append] at run
      rw [List.append_assoc, allSquare_append] at square
      exact ih square.2 run
  | @scope _ _ _ _ own _ _ _ _ _ opens body closes _ bodyIH restIH =>
      simp only [List.flatten_cons, List.flatten_append, allSquare_append] at square
      obtain ⟨outer, ownSquare, nestedSquare, innerSquare⟩ := square
      rw [stackBehind_opening opens, stackBehind_append] at run
      obtain ⟨between, bodyRun, behind⟩ := Option.bind_eq_some_iff.1 run
      have nested := bodyIH (allSquare_append.2 ⟨ownSquare, nestedSquare⟩) bodyRun
      rw [body.stackBehind_eq nested] at bodyRun
      obtain ⟨below, rfl, further⟩ := top_of_closing closes behind
      intro other member
      rcases List.mem_cons.1 member with rfl | member
      · exact balanced_of_brace ownSquare bodyRun
      · rcases List.mem_append.1 member with member | member
        · exact nested other member
        · exact restIH (allSquare_append.2 ⟨outer, innerSquare⟩) further other member

/-- A list that nests up to loose brackets is balanced exactly when the loose brackets of every
scope are. -/
theorem Nest.balanced_iff {scope : Scope} {loose tokens : List Token}
    {inner : List (List Token)} (nest : Nest scope loose inner tokens) :
    Balanced tokens ↔ Balanced loose ∧ ∀ own ∈ inner, Balanced own := by
  constructor
  · intro balanced
    have square : AllSquare (loose ++ inner.flatten) :=
      square_of_surplus_eq nest.isLoose fun shape => by
        rw [← nest.surplus_eq, balanced.surplus_eq]
    have run := balanced_iff_stackBehind.1 balanced
    have within := nest.balanced_inner square run
    rw [nest.stackBehind_eq within] at run
    exact ⟨balanced_iff_stackBehind.2 run, within⟩
  · rintro ⟨outer, within⟩
    rw [balanced_iff_stackBehind, nest.stackBehind_eq within]
    exact balanced_iff_stackBehind.1 outer

end Interlock
