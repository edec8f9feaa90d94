import Interlock.Proofs.Lexing
import Mathlib.Data.List.TakeWhile

/-!
# Tokens spell out their text

A text that splits into tokens is white space and lexemes in turn.  Every token
is written by its own lexeme and stands at the position of its first character,
and nothing but white space is left between them.  Words and operators are as
long as they can be.  Passing over comments while scanning gives the same tokens
as leaving the comments out afterwards.
-/

namespace Interlock

/-! ## Positions from what stands in front -/

/-- The position behind the beginning of a text: a line for every line feed, and a
column for every character since the last one. -/
def Position.behind (before : List Char) : Position where
  line := 1 + before.count '\n'
  column := 1 + (before.reverse.takeWhile (· ≠ '\n')).length

namespace Position

theorem behind_nil : behind [] = start := rfl

theorem behind_after (before : List Char) (c : Char) :
    (behind before).after c = behind (before ++ [c]) := by
  rw [after]
  split
  next feed =>
    simp only [behind, feed, List.count_append, List.count_singleton_self, List.reverse_append,
      List.reverse_singleton, List.singleton_append, List.takeWhile_cons]
    simp
    omega
  next other =>
    simp only [behind, List.count_append, List.reverse_append, List.reverse_singleton,
      List.singleton_append, List.takeWhile_cons]
    simp [other]
    omega

theorem behind_past (before text : List Char) :
    (behind before).past text = behind (before ++ text) := by
  induction text generalizing before with
  | nil => simp [past_nil]
  | cons c text ih => rw [past_cons, behind_after, ih, List.append_assoc, List.singleton_append]

end Position

/-! ## Lexemes -/

/-- A lexeme of a class, where no longer one begins in front of `rest`. -/
def Longest (inClass : List Char → Prop) (lexeme rest : List Char) : Prop :=
  inClass lexeme ∧
    ∀ longer, longer <+: lexeme ++ rest → inClass longer → longer.length ≤ lexeme.length

namespace Lexeme

/-- A character that begins identifiers, and characters that go on with them. -/
def IsIdentifier : List Char → Prop
  | [] => False
  | c :: more => startsIdentifier c ∧ ∀ next ∈ more, continuesIdentifier next

/-- An entry of the table of operators. -/
def IsOperator (text : List Char) : Prop := text ∈ operators.map String.toList

/-- A digit, or a point in front of a digit. -/
def StartsNumber : List Char → Prop
  | [] => False
  | c :: more => Text.isDigit c ∨ c = '.' ∧ startsWithDigit more

/-- The ways to write a token of a kind and a text, in front of `rest`. -/
inductive Spelled : (kind : Token.Kind) → (value lexeme rest : List Char) → Prop where
  | lineComment {value rest : List Char} :
      '\n' ∉ value → (∀ c, rest.head? = some c → c = '\n') →
      Spelled .comment value ('/' :: '/' :: value) rest
  | blockComment {value rest : List Char} :
      ¬ ['*', '/'] <:+: value →
      Spelled .comment value ('/' :: '*' :: (value ++ ['*', '/'])) rest
  | string {mark value rest : List Char} {quote : Char} :
      mark = [] ∨ mark ∈ stringMarks → quote = '"' ∨ quote = '\'' →
      Spelled .string value (mark ++ quote :: (value ++ [quote])) rest
  | identifier {value rest : List Char} :
      Longest IsIdentifier value rest → Spelled .identifier value value rest
  | operator {value rest : List Char} :
      Longest IsOperator value rest → Spelled .operator value value rest
  | number {value rest : List Char} :
      StartsNumber value → Spelled .number value value rest
  | dot {rest : List Char} : Spelled .dot ['.'] ['.'] rest
  | punctuation {kind : Token.Kind} {c : Char} {rest : List Char} :
      punctuation? c = some kind → Spelled kind [c] [c] rest

/-- The characters that a lexeme takes off the front of a text spell it. -/
def Spells (text : List Char) (lexeme : Lexeme) : Prop :=
  ∃ own rest, text = own ++ rest ∧ own.length = lexeme.more + 1 ∧
    Spelled lexeme.kind lexeme.text own rest

variable {c quote : Char} {rest seen body text : List Char} {lexeme : Lexeme}

/-! ### Strings and comments -/

theorem quotedBody?_split (found : quotedBody? quote seen rest = some body) :
    ∃ value tail, body = seen.reverse ++ value ∧ rest = value ++ quote :: tail := by
  fun_induction quotedBody? quote seen rest with
  | case1 => cases found
  | case2 => cases found
  | case3 => cases found
  | case4 seen c rest ih =>
      obtain ⟨value, tail, rfl, rfl⟩ := ih found
      exact ⟨'\\' :: c :: value, tail, by simp, rfl⟩
  | case5 seen rest =>
      cases found
      exact ⟨[], rest, by simp, rfl⟩
  | case6 seen c rest _ _ _ _ ih =>
      obtain ⟨value, tail, rfl, rfl⟩ := ih found
      exact ⟨c :: value, tail, by simp, rfl⟩

theorem commentBody?_split (found : commentBody? seen rest = some body) :
    ∃ value tail, body = seen.reverse ++ value ∧ rest = value ++ '*' :: '/' :: tail ∧
      ¬ ['*', '/'] <:+: value := by
  fun_induction commentBody? seen rest with
  | case1 => cases found
  | case2 seen tail =>
      cases found
      exact ⟨[], tail, by simp, rfl, by simp⟩
  | case3 seen c rest notEnd ih =>
      obtain ⟨value, tail, rfl, rfl, inner⟩ := ih found
      refine ⟨c :: value, tail, by simp, rfl, ?_⟩
      rw [List.infix_cons_iff]
      rintro (⟨more, same⟩ | within)
      · -- An end mark in front would have ended the comment there.
        obtain ⟨rfl, split⟩ := List.cons.inj same
        refine notEnd (more ++ '*' :: '/' :: tail) rfl ?_
        rw [← split]
        rfl
      · exact inner within

theorem spells_string {mark text : List Char} (marked : mark = [] ∨ mark ∈ stringMarks)
    (quoted : quote = '"' ∨ quote = '\'')
    (read : string mark.length quote text = .ok lexeme) :
    Spells (mark ++ quote :: text) lexeme := by
  rw [string] at read
  split at read
  next body found =>
    cases read
    obtain ⟨value, tail, same, rfl⟩ := quotedBody?_split found
    obtain rfl : body = value := by simpa using same
    refine ⟨mark ++ quote :: (body ++ [quote]), tail, by simp, ?_, .string marked quoted⟩
    simp only [List.length_append, List.length_cons, List.length_nil]
    omega
  next => cases read

theorem spells_comment (read : comment? text = some (.ok lexeme)) : Spells text lexeme := by
  unfold comment? at read
  split at read
  next more =>
    cases read
    refine ⟨'/' :: '/' :: more.takeWhile (· ≠ '\n'), more.dropWhile (· ≠ '\n'), by simp, by simp,
      .lineComment ?_ ?_⟩
    · intro member
      simpa using List.mem_takeWhile_imp member
    · intro c front
      have ended := List.head?_dropWhile_not (· ≠ '\n') more
      rw [front] at ended
      simpa using ended
  next more =>
    split at read
    next body found =>
      cases read
      obtain ⟨value, tail, same, rfl, inner⟩ := commentBody?_split found
      obtain rfl : body = value := by simpa using same
      exact ⟨'/' :: '*' :: (body ++ ['*', '/']), tail, by simp, by simp, .blockComment inner⟩
    next => cases read
  next => cases read

/-! ### Words -/

theorem continues_of_starts (starts : startsIdentifier c) : continuesIdentifier c := by
  simp only [startsIdentifier, continuesIdentifier, Bool.or_eq_true] at starts ⊢
  exact .inl starts

/-- The longest run of characters of a sort is no longer where all of a longer text are of
that sort. -/
theorem length_le_takeWhile {sort : Char → Bool} {longer : List Char}
    (inFront : longer <+: text) (all : ∀ c ∈ longer, sort c) :
    longer.length ≤ (text.takeWhile sort).length := by
  obtain ⟨rest, rfl⟩ := inFront
  rw [List.takeWhile_append_of_pos all]
  simp

theorem longest_identifier (starts : startsIdentifier c) :
    Longest IsIdentifier ((c :: rest).takeWhile continuesIdentifier)
      ((c :: rest).dropWhile continuesIdentifier) := by
  constructor
  · rw [List.takeWhile_cons_of_pos (continues_of_starts starts)]
    exact ⟨starts, fun next member => List.mem_takeWhile_imp member⟩
  · intro longer inFront isIdentifier
    rw [List.takeWhile_append_dropWhile] at inFront
    apply length_le_takeWhile inFront
    cases longer with
    | nil => cases isIdentifier
    | cons first more =>
        intro next member
        rcases List.mem_cons.1 member with rfl | member
        · exact continues_of_starts isIdentifier.1
        · exact isIdentifier.2 next member

theorem spells_word (starts : startsIdentifier c) (read : word (c :: rest) = .ok lexeme) :
    Spells (c :: rest) lexeme := by
  have split : c :: rest = (c :: rest).takeWhile continuesIdentifier ++
      (c :: rest).dropWhile continuesIdentifier := List.takeWhile_append_dropWhile.symm
  have length : ((c :: rest).takeWhile continuesIdentifier).length =
      ((c :: rest).takeWhile continuesIdentifier).length - 1 + 1 := by
    rw [List.takeWhile_cons_of_pos (continues_of_starts starts)]
    simp
  have named : Spells (c :: rest)
      ⟨.identifier, (c :: rest).takeWhile continuesIdentifier,
        ((c :: rest).takeWhile continuesIdentifier).length - 1⟩ :=
    ⟨_, _, split, length, .identifier (longest_identifier starts)⟩
  unfold word at read
  dsimp only at read
  split at read
  next quote more behind =>
    split at read
    next marks =>
      simp only [Bool.and_eq_true, Bool.or_eq_true, decide_eq_true_eq,
        List.contains_iff_mem] at marks
      rw [split, behind]
      exact spells_string (.inr marks.1) marks.2 read
    next =>
      cases read
      exact named
  next =>
    cases read
    exact named

/-! ### Numbers and operators -/

theorem decimal_of_plain (plain : (Text.isDigit c || c = '_') = true) (rest : List Char) :
    decimal (c :: rest) = c :: decimal rest := by
  rw [decimal.eq_def]
  simp only [plain, if_true]

theorem decimal_of_digit (digit : Text.isDigit c) :
    decimal (c :: rest) = c :: decimal rest :=
  decimal_of_plain (by simp [digit]) rest

theorem decimal_of_point (digit : startsWithDigit rest) :
    decimal ('.' :: rest) = '.' :: decimal rest := by
  rw [decimal.eq_def]
  simp [digit]

section Exponent

variable (mark : (c = 'e' || c = 'E') = true)
include mark

/-- Behind an exponent mark stands its exponent, or the number ends in front of it. -/
theorem decimal_of_mark (rest : List Char) :
    decimal (c :: rest) =
      if startsWithExponent rest then
        match rest with
        | '-' :: digits => c :: '-' :: decimal digits
        | digits => c :: decimal digits
      else [] := by
  have either : c = 'e' ∨ c = 'E' := by simpa using mark
  rw [decimal.eq_def]
  rcases either with rfl | rfl <;> rfl

theorem decimal_of_signed (digit : startsWithDigit rest = true) :
    decimal (c :: '-' :: rest) = c :: '-' :: decimal rest := by
  rw [decimal_of_mark mark, if_pos (show startsWithExponent ('-' :: rest) = true from digit)]
  rfl

theorem decimal_of_unsigned (digit : startsWithDigit rest = true) :
    decimal (c :: rest) = c :: decimal rest := by
  cases rest with
  | nil => cases digit
  | cons next rest =>
      have notMinus : next ≠ '-' := by
        rintro rfl
        exact absurd (show Text.isDigit '-' = true from digit) (by decide)
      have exponent : startsWithExponent (next :: rest) = true := by
        rwa [startsWithExponent.eq_3 _ _ notMinus]
      rw [decimal_of_mark mark, if_pos exponent]
      split
      next same => exact absurd (List.cons.inj same).1 notMinus
      next => rfl

end Exponent

theorem decimal_of_other (other : ¬ (Text.isDigit c || c = '_') = true)
    (notPoint : ¬ (c = '.' && startsWithDigit rest) = true)
    (noExponent : ¬ ((c = 'e' || c = 'E') && startsWithExponent rest) = true) :
    decimal (c :: rest) = [] := by
  rw [decimal.eq_def]
  simp only [other, notPoint, noExponent]
  simp

/-- An induction along the characters of a decimal number. -/
theorem decimal_induction {holds : List Char → Prop} (empty : holds [])
    (plain : ∀ c rest, (Text.isDigit c || c = '_') = true → holds rest → holds (c :: rest))
    (point : ∀ rest, startsWithDigit rest = true → holds rest → holds ('.' :: rest))
    (signed : ∀ c rest, (c = 'e' || c = 'E') = true → startsWithDigit rest = true →
      holds rest → holds (c :: '-' :: rest))
    (unsigned : ∀ c rest, (c = 'e' || c = 'E') = true → startsWithDigit rest = true →
      holds rest → holds (c :: rest))
    (other : ∀ c rest, ¬ (Text.isDigit c || c = '_') = true →
      ¬ (c = '.' && startsWithDigit rest) = true →
      ¬ ((c = 'e' || c = 'E') && startsWithExponent rest) = true → holds (c :: rest))
    (text : List Char) : holds text := by
  -- A signed exponent is two characters further on.
  suffices both : holds text ∧ holds text.tail from both.1
  induction text with
  | nil => exact ⟨empty, empty⟩
  | cons c rest ih =>
      refine ⟨?_, ih.1⟩
      by_cases isPlain : (Text.isDigit c || c = '_') = true
      · exact plain c rest isPlain ih.1
      by_cases isPoint : (c = '.' && startsWithDigit rest) = true
      · obtain ⟨rfl, digit⟩ : c = '.' ∧ startsWithDigit rest = true := by simpa using isPoint
        exact point rest digit ih.1
      by_cases exponent : ((c = 'e' || c = 'E') && startsWithExponent rest) = true
      · obtain ⟨mark, exponent⟩ := Bool.and_eq_true_iff.1 exponent
        cases rest with
        | nil => cases exponent
        | cons next rest =>
            by_cases minus : next = '-'
            · subst minus
              exact signed c rest mark exponent ih.2
            · rw [startsWithExponent.eq_3 _ _ minus] at exponent
              exact unsigned c (next :: rest) mark exponent ih.1
      exact other c rest isPlain isPoint exponent

theorem decimal_prefix (text : List Char) : decimal text <+: text := by
  induction text using decimal_induction with
  | empty => exact List.prefix_rfl
  | plain c rest isPlain ih =>
      rw [decimal_of_plain isPlain]
      exact (List.prefix_cons_inj c).2 ih
  | point rest digit ih =>
      rw [decimal_of_point digit]
      exact (List.prefix_cons_inj '.').2 ih
  | signed c rest mark digit ih =>
      rw [decimal_of_signed mark digit]
      exact (List.prefix_cons_inj c).2 ((List.prefix_cons_inj '-').2 ih)
  | unsigned c rest mark digit ih =>
      rw [decimal_of_unsigned mark digit]
      exact (List.prefix_cons_inj c).2 ih
  | other c rest notPlain notPoint noExponent =>
      rw [decimal_of_other notPlain notPoint noExponent]
      exact List.nil_prefix

theorem number_prefix (text : List Char) : number text <+: text := by
  unfold number
  split
  next rest =>
    exact (List.prefix_cons_inj _).2 ((List.prefix_cons_inj _).2 (List.takeWhile_prefix _))
  next rest =>
    exact (List.prefix_cons_inj _).2 ((List.prefix_cons_inj _).2 (List.takeWhile_prefix _))
  next => exact decimal_prefix text

/-- A number begins as the text does that it is read from. -/
theorem startsNumber_number (starts : StartsNumber text) : StartsNumber (number text) := by
  have decimally : StartsNumber (decimal text) := by
    cases text with
    | nil => cases starts
    | cons c rest =>
        rcases starts with digit | ⟨rfl, digit⟩
        · rw [decimal_of_digit digit]
          exact .inl digit
        · rw [decimal_of_point digit]
          refine .inr ⟨rfl, ?_⟩
          cases rest with
          | nil => cases digit
          | cons next rest =>
              rw [decimal_of_digit (show Text.isDigit next from digit)]
              exact digit
  rw [number.eq_def]
  split
  · exact .inl (Text.isDigit_of_ascii (by decide))
  · exact .inl (Text.isDigit_of_ascii (by decide))
  · exact decimally

theorem spells_number (starts : StartsNumber text) :
    Spells text ⟨.number, number text, (number text).length - 1⟩ := by
  obtain ⟨rest, split⟩ := number_prefix text
  have begins := startsNumber_number starts
  refine ⟨number text, rest, split.symm, ?_, .number begins⟩
  cases found : number text with
  | nil =>
      rw [found] at begins
      cases begins
  | cons => simp

/-- In the table no operator stands in front of a longer one that begins with it. -/
theorem operators_ordered :
    (operators.map String.toList).Pairwise fun first second =>
      first <+: second → second.length ≤ first.length := by
  decide

theorem operators_ne_nil : ∀ operator ∈ operators.map String.toList, operator ≠ [] := by
  decide

theorem longest_operator {operator : List Char} (found : operator? text = some operator)
    (split : text = operator ++ rest) : Longest IsOperator operator rest := by
  obtain ⟨-, earlier, later, table, others⟩ := List.find?_eq_some_iff_append.1 found
  refine ⟨List.mem_of_find?_eq_some found, fun longer inFront isOperator => ?_⟩
  apply Nat.le_of_not_lt
  intro longerThan
  have begins : operator <+: longer :=
    List.prefix_of_prefix_length_le (List.prefix_append ..) inFront (Nat.le_of_lt longerThan)
  have ordered := operators_ordered
  rw [IsOperator, table] at isOperator
  rw [table] at ordered
  rcases List.mem_append.1 isOperator with isEarlier | isLater
  · -- An earlier entry would have been taken.
    have missed := others longer isEarlier
    rw [split, List.isPrefixOf_iff_prefix.2 inFront] at missed
    cases missed
  · rcases List.mem_cons.1 isLater with rfl | isLater
    · exact Nat.lt_irrefl _ longerThan
    · have shorter := (List.pairwise_cons.1 (List.pairwise_append.1 ordered).2.1).1
        longer isLater begins
      omega

theorem spells_operator {operator : List Char} (found : operator? text = some operator) :
    Spells text ⟨.operator, operator, operator.length - 1⟩ := by
  obtain ⟨rest, split⟩ : operator <+: text := by
    simpa using List.find?_some found
  refine ⟨operator, rest, split.symm, ?_, .operator (longest_operator found split.symm)⟩
  have nonempty := operators_ne_nil operator (List.mem_of_find?_eq_some found)
  exact (Nat.sub_add_cancel (List.length_pos_iff.2 nonempty)).symm

/-! ### All lexemes -/

theorem spells_read (found : read c rest = .ok lexeme) : Spells (c :: rest) lexeme := by
  rw [read] at found
  split at found
  next commented =>
    rw [found] at commented
    exact spells_comment commented
  next =>
  split at found
  next quoted =>
    simp only [Bool.or_eq_true, decide_eq_true_eq] at quoted
    exact spells_string (.inl rfl) quoted found
  next =>
  split at found
  next kind punctuation =>
    cases found
    exact ⟨[c], rest, rfl, rfl, .punctuation punctuation⟩
  next =>
  split at found
  next starts =>
    cases found
    simp only [Bool.or_eq_true, Bool.and_eq_true, decide_eq_true_eq] at starts
    exact spells_number starts
  next =>
  split at found
  next isDot =>
    cases found
    subst isDot
    exact ⟨['.'], rest, rfl, rfl, .dot⟩
  next =>
  split at found
  next starts => exact spells_word starts found
  next =>
  split at found
  next operator matched =>
    cases found
    exact spells_operator matched
  next => cases found

/-- What is read takes the characters that spell it. -/
theorem spelled_read (found : read c rest = .ok lexeme) :
    Spelled lexeme.kind lexeme.text (c :: rest.take lexeme.more) (rest.drop lexeme.more) := by
  obtain ⟨own, behind, split, length, spelled⟩ := spells_read found
  have taken : c :: rest.take lexeme.more = own := by
    rw [← List.take_succ_cons, split, ← length, List.take_left]
  have left : rest.drop lexeme.more = behind := by
    rw [← List.drop_succ_cons, split, ← length, List.drop_left]
  rwa [taken, left]

end Lexeme

/-! ## Scanning -/

namespace Token

/-- Tokens laid out over a text with `before` in front of it: gaps and lexemes in turn, every
token at the place where its lexeme begins, and the end mark behind the last gap. -/
inductive Laid : (before text : List Char) → List Token → Prop where
  | ending {before gap : List Char} :
      (∀ c ∈ gap, Lexeme.isGap c) →
      Laid before gap [⟨.endOfFile, "", .behind (before ++ gap)⟩]
  | token {before gap lexeme rest : List Char} {token : Token} {tokens : List Token} :
      (∀ c ∈ gap, Lexeme.isGap c) → token.position = .behind (before ++ gap) →
      Lexeme.Spelled token.kind token.text.toList lexeme rest →
      Laid (before ++ gap ++ lexeme) rest tokens →
      Laid before (gap ++ (lexeme ++ rest)) (token :: tokens)

theorem Laid.gap {before text : List Char} {c : Char} {tokens : List Token}
    (isGap : Lexeme.isGap c) (laid : Laid (before ++ [c]) text tokens) :
    Laid before (c :: text) tokens := by
  have longer {gap : List Char} (gaps : ∀ c ∈ gap, Lexeme.isGap c) :
      ∀ d ∈ c :: gap, Lexeme.isGap d := by
    intro d member
    rcases List.mem_cons.1 member with rfl | member
    · exact isGap
    · exact gaps d member
  cases laid with
  | ending gaps => simpa using Laid.ending (longer gaps)
  | token gaps place spelled laid =>
      refine Laid.token (longer gaps) ?_ spelled ?_
      · simpa using place
      · simpa using laid

/-- A scan that meets no error lays out its tokens over the text, behind those already
seen. -/
theorem laid_scanFrom {position : Position} {seen : List Token} {text before : List Char}
    (place : position = .behind before)
    (accepted : (scanFrom position seen text).error = none) :
    ∃ tokens, (scanFrom position seen text).tokens = seen.reverse ++ tokens ∧
      Laid before text tokens := by
  fun_induction scanFrom position seen text generalizing before with
  | case1 position seen =>
      subst place
      refine ⟨[_], List.reverse_cons, ?_⟩
      have laid : Laid before [] [⟨.endOfFile, "", .behind (before ++ [])⟩] := .ending (by simp)
      rwa [List.append_nil] at laid
  | case2 position seen c rest gap ih =>
      subst place
      obtain ⟨tokens, same, laid⟩ := ih (Position.behind_after before c) accepted
      exact ⟨tokens, same, laid.gap gap⟩
  | case3 => cases accepted
  | case4 position seen c rest gap lexeme read ih =>
      subst place
      obtain ⟨tokens, same, laid⟩ := ih (Position.behind_past before _) accepted
      refine ⟨_ :: tokens, by rw [same, List.reverse_cons, List.append_assoc]; rfl, ?_⟩
      have whole : c :: rest = [] ++ (c :: rest.take lexeme.more ++ rest.drop lexeme.more) := by
        simp
      rw [whole]
      refine Laid.token (by simp) ?_ ?_ ?_
      · rw [List.append_nil]
      · rw [String.toList_ofList]
        exact Lexeme.spelled_read read
      · rwa [List.append_nil]

/-! ## Comments -/

/-- Scans on from a position and passes over comments without a token. -/
def scanSilentlyFrom (position : Position) (seen : List Token) : List Char → Scan
  | [] => ⟨(⟨.endOfFile, "", position⟩ :: seen).reverse, none⟩
  | c :: rest =>
      if Lexeme.isGap c then scanSilentlyFrom (position.after c) seen rest
      else match Lexeme.read c rest with
      | .error (offset, problem) =>
          ⟨seen.reverse, some ⟨problem, position.past ((c :: rest).take offset)⟩⟩
      | .ok lexeme =>
          scanSilentlyFrom (position.past (c :: rest.take lexeme.more))
            (if lexeme.kind = .comment then seen
              else ⟨lexeme.kind, String.ofList lexeme.text, position⟩ :: seen)
            (rest.drop lexeme.more)
termination_by text => text.length
decreasing_by
  all_goals simp only [List.length_cons, List.length_drop]; omega

theorem withoutComments_reverse (tokens : List Token) :
    withoutComments tokens.reverse = (withoutComments tokens).reverse :=
  List.filter_reverse ..

/-- Passing over comments is the same as leaving them out of what was scanned. -/
theorem scanSilentlyFrom_eq (position : Position) (seen : List Token) (text : List Char) :
    scanSilentlyFrom position (withoutComments seen) text =
      ⟨withoutComments (scanFrom position seen text).tokens,
        (scanFrom position seen text).error⟩ := by
  fun_induction scanFrom position seen text with
  | case1 position seen =>
      rw [scanSilentlyFrom, withoutComments_reverse]
      rfl
  | case2 position seen c rest gap ih =>
      rw [scanSilentlyFrom, if_pos gap]
      exact ih
  | case3 position seen c rest gap offset problem read =>
      rw [scanSilentlyFrom, if_neg gap, read, withoutComments_reverse]
  | case4 position seen c rest gap lexeme read ih =>
      rw [scanSilentlyFrom, if_neg gap, read]
      simp only
      rw [← ih]
      congr 1
      split
      next comment => simp [withoutComments, comment]
      next other => simp [withoutComments, other]

/-- The tokens of a source text, found without making tokens of its comments. -/
def scanSilently (source : String) : Scan := scanSilentlyFrom .start [] source.toList

theorem scanSilently_eq (source : String) :
    scanSilently source = ⟨withoutComments (scan source).tokens, (scan source).error⟩ :=
  scanSilentlyFrom_eq .start [] source.toList

end Token

/-! ## The end mark -/

theorem Lexeme.Spelled.kind_ne {kind : Token.Kind} {value lexeme rest : List Char}
    (spelled : Lexeme.Spelled kind value lexeme rest) : kind ≠ .endOfFile := by
  cases spelled with
  | punctuation found =>
      rintro rfl
      rw [Lexeme.punctuation?] at found
      repeat' split at found
      all_goals cases found
  | _ => simp

namespace Token

variable {source : String} {tokens : List Token}

theorem Laid.endMark {before text : List Char} (laid : Laid before text tokens) :
    ∃ body mark, tokens = body ++ [mark] ∧ mark.kind = .endOfFile ∧ mark.text = "" ∧
      ∀ token ∈ body, token.kind ≠ .endOfFile := by
  induction laid with
  | ending => exact ⟨[], _, rfl, rfl, rfl, nofun⟩
  | @token _ _ _ _ token _ _ _ spelled _ ih =>
      obtain ⟨body, mark, rfl, isEnd, empty, inner⟩ := ih
      refine ⟨token :: body, mark, rfl, isEnd, empty, ?_⟩
      intro other member
      rcases List.mem_cons.1 member with rfl | member
      · exact spelled.kind_ne
      · exact inner other member

theorem Laid.position {before text : List Char} (laid : Laid before text tokens) :
    ∀ token ∈ tokens, ∃ earlier, token.position = .behind earlier := by
  induction laid with
  | ending =>
      intro token member
      rw [List.mem_singleton.1 member]
      exact ⟨_, rfl⟩
  | token _ place _ _ ih =>
      intro other member
      rcases List.mem_cons.1 member with rfl | member
      · exact ⟨_, place⟩
      · exact ih other member

theorem laid_of_tokenize (lexed : tokenize source = .ok tokens) :
    ∃ all, Laid [] source.toList all ∧ tokens = withoutComments all := by
  obtain ⟨accepted, kept⟩ := tokenize_eq_ok_iff.1 lexed
  obtain ⟨all, same, laid⟩ := laid_scanFrom Position.behind_nil.symm accepted
  refine ⟨all, laid, ?_⟩
  rw [← kept]
  exact congrArg withoutComments same

/-- The tokens of a text end in an end mark, and there is no other one. -/
theorem exists_endMark (lexed : tokenize source = .ok tokens) :
    ∃ body mark, tokens = body ++ [mark] ∧ mark.kind = .endOfFile ∧ mark.text = "" ∧
      ∀ token ∈ body, token.kind ≠ .endOfFile := by
  obtain ⟨all, laid, rfl⟩ := laid_of_tokenize lexed
  obtain ⟨body, mark, rfl, isEnd, empty, inner⟩ := laid.endMark
  refine ⟨withoutComments body, mark, ?_, isEnd, empty, ?_⟩
  · simp [withoutComments, isEnd]
  · intro token member
    exact inner token (List.mem_filter.1 member).1

/-- Lines and columns are counted from one. -/
theorem one_le_position (lexed : tokenize source = .ok tokens) :
    ∀ token ∈ tokens, 1 ≤ token.position.line ∧ 1 ≤ token.position.column := by
  intro token member
  obtain ⟨all, laid, rfl⟩ := laid_of_tokenize lexed
  obtain ⟨earlier, place⟩ := laid.position token (List.mem_filter.1 member).1
  rw [place]
  constructor
  · exact Int.le_add_of_nonneg_right (Int.natCast_nonneg _)
  · exact Int.le_add_of_nonneg_right (Int.natCast_nonneg _)

end Token

/-! ## Sources -/

open Token

/-- The tokens of a text that splits into them spell it out, each at its true position.
Without comments there are the same tokens and the same errors. -/
theorem tokens_spell_source (source : String) :
    ((scan source).error = none → Laid [] source.toList (scan source).tokens) ∧
    (scanSilently source).tokens = withoutComments (scan source).tokens ∧
    (scanSilently source).error = (scan source).error ∧
    (∀ tokens, tokenize source = .ok tokens ↔ scanSilently source = ⟨tokens, none⟩) ∧
    (∀ error, tokenize source = .error error ↔ (scan source).error = some error) := by
  refine ⟨fun accepted => ?_, by rw [scanSilently_eq], by rw [scanSilently_eq], ?_, ?_⟩
  · obtain ⟨tokens, same, laid⟩ := laid_scanFrom Position.behind_nil.symm accepted
    have all : (scan source).tokens = tokens := same
    rwa [all]
  · intro tokens
    rw [tokenize_eq_ok_iff, scanSilently_eq, Scan.mk.injEq]
    exact and_comm
  · intro error
    simp only [tokenize]
    cases (scan source).error <;> simp

end Interlock
