import Interlock.Proofs.Spelling
import Mathlib.Data.List.Find

/-!
# Where a lexeme ends

A lexeme is read from its own characters and from no others: it is the same with
nothing behind it, and it is the same with white space behind it.  Numbers look
ahead over a point or an exponent mark, words over a quote, operators and
comments over a second character; in each case what they look for is either part
of the lexeme or different from white space and punctuation.  What stands behind
a punctuation mark therefore has no part in what is read in front of it.
-/

namespace Interlock

namespace Lexeme

variable {c g quote : Char} {text rest more seen body : List Char} {lexeme : Lexeme}

/-- What can stand at the front of a text, by the way in which it is read. -/
inductive Front (c : Char) (rest : List Char) : Lexeme → Prop where
  | comment {lexeme : Lexeme} :
      comment? (c :: rest) = some (.ok lexeme) → Front c rest lexeme
  | string {lexeme : Lexeme} :
      comment? (c :: rest) = none → (c = '"' || c = '\'') = true →
      string 0 c rest = .ok lexeme → Front c rest lexeme
  | punctuation {kind : Token.Kind} :
      comment? (c :: rest) = none → (c = '"' || c = '\'') = false →
      punctuation? c = some kind → Front c rest ⟨kind, [c], 0⟩
  | number :
      comment? (c :: rest) = none → (c = '"' || c = '\'') = false → punctuation? c = none →
      (Text.isDigit c || (c = '.' && startsWithDigit rest)) = true →
      Front c rest ⟨.number, number (c :: rest), (number (c :: rest)).length - 1⟩
  | dot :
      comment? (c :: rest) = none → c = '.' → startsWithDigit rest = false →
      Front c rest ⟨.dot, [c], 0⟩
  | word {lexeme : Lexeme} :
      comment? (c :: rest) = none → (c = '"' || c = '\'') = false → punctuation? c = none →
      Text.isDigit c = false → c ≠ '.' → startsIdentifier c = true →
      word (c :: rest) = .ok lexeme → Front c rest lexeme
  | operator {operator : List Char} :
      comment? (c :: rest) = none → (c = '"' || c = '\'') = false → punctuation? c = none →
      Text.isDigit c = false → c ≠ '.' → startsIdentifier c = false →
      operator? (c :: rest) = some operator →
      Front c rest ⟨.operator, operator, operator.length - 1⟩

theorem read_eq_ok_iff : read c rest = .ok lexeme ↔ Front c rest lexeme := by
  constructor
  · intro found
    rw [read] at found
    split at found
    next commented =>
      rw [found] at commented
      exact .comment commented
    next plain =>
    split at found
    next quoted => exact .string plain quoted found
    next unquoted =>
    rw [Bool.not_eq_true] at unquoted
    split at found
    next punctuation =>
      cases found
      exact .punctuation plain unquoted punctuation
    next other =>
    split at found
    next starts =>
      cases found
      exact .number plain unquoted other starts
    next notNumber =>
    simp only [Bool.or_eq_true, not_or, Bool.and_eq_true, decide_eq_true_eq, not_and,
      Bool.not_eq_true] at notNumber
    split at found
    next isDot =>
      cases found
      exact .dot plain isDot (notNumber.2 isDot)
    next notDot =>
    split at found
    next starts => exact .word plain unquoted other notNumber.1 notDot starts found
    next notWord =>
    rw [Bool.not_eq_true] at notWord
    split at found
    next operator matched =>
      cases found
      exact .operator plain unquoted other notNumber.1 notDot notWord matched
    next => cases found
  · intro front
    rw [read]
    cases front with
    | comment commented => rw [commented]
    | string plain quoted found => simp only [plain, quoted, if_true, found]
    | punctuation plain unquoted found => simp [plain, unquoted, found]
    | number plain unquoted other starts =>
        simp only [plain, unquoted, other, starts, if_true, Bool.false_eq_true, if_false]
    | dot plain isDot noDigit =>
        subst isDot
        have other : punctuation? '.' = none := by decide
        have notDigit : Text.isDigit '.' = false := by decide
        simp [plain, noDigit, other, notDigit]
    | word plain unquoted other noDigit notDot starts found =>
        simp [plain, unquoted, other, noDigit, notDot, starts, found]
    | operator plain unquoted other noDigit notDot notWord found =>
        simp [plain, unquoted, other, noDigit, notDot, notWord, found]

/-! ## White space and punctuation end a lexeme -/

/-- What holds of each character between lexemes. -/
theorem of_isGap (holds : Char → Prop)
    (each : holds ' ' ∧ holds '\t' ∧ holds '\r' ∧ holds '\n' ∧ holds '\x0c' ∧ holds '\x0b')
    (gap : isGap c) : holds c := by
  obtain ⟨blank, tab, carriage, feed, form, vertical⟩ := each
  simp only [isGap, Bool.or_eq_true, decide_eq_true_eq] at gap
  rcases gap with ((((rfl | rfl) | rfl) | rfl) | rfl) | rfl <;> assumption

/-- Whether a lexeme can end in front of a text: nothing or white space stands there. -/
def Apart (rest : List Char) : Prop := ∀ c, rest.head? = some c → isGap c

theorem apart_cons (gap : isGap c) (rest : List Char) : Apart (c :: rest) := by
  intro d front
  rw [← Option.some.inj front]
  exact gap

/-- White space and punctuation: what belongs to no lexeme that begins in front of it, strings and
comments apart. -/
def dividers : List Char :=
  [' ', '\t', '\r', '\n', '\x0c', '\x0b', ';', ',', Bracket.paren.opener, Bracket.paren.closer,
   Bracket.square.opener, Bracket.square.closer, Bracket.brace.opener, Bracket.brace.closer]

/-- What holds of each divider. -/
theorem of_divider (holds : Char → Prop) [DecidablePred holds]
    (each : dividers.all (holds ·) = true) (divides : c ∈ dividers) : holds c :=
  of_decide_eq_true (List.all_eq_true.1 each c divides)

/-- Nothing or a divider stands at the front of a text. -/
def Divided (rest : List Char) : Prop := ∀ c, rest.head? = some c → c ∈ dividers

theorem Apart.divided (apart : Apart rest) : Divided rest :=
  fun c front => of_isGap (· ∈ dividers) (by decide) (apart c front)

theorem divided_cons (divides : c ∈ dividers) (rest : List Char) : Divided (c :: rest) := by
  intro d front
  rw [← Option.some.inj front]
  exact divides

/-- The longest run of characters of a sort ends where a character of another sort stands. -/
theorem takeWhile_append_of_head {sort : Char → Bool}
    (stops : ∀ g, rest.head? = some g → sort g = false) (text : List Char) :
    (text ++ rest).takeWhile sort = text.takeWhile sort := by
  induction text with
  | nil =>
      cases rest with
      | nil => rfl
      | cons g rest => simp [stops g rfl]
  | cons c text ih =>
      rw [List.cons_append, List.takeWhile_cons, List.takeWhile_cons, ih]

theorem dropWhile_append_of_head {sort : Char → Bool}
    (stops : ∀ g, rest.head? = some g → sort g = false) (text : List Char) :
    (text ++ rest).dropWhile sort = text.dropWhile sort ++ rest := by
  induction text with
  | nil =>
      cases rest with
      | nil => rfl
      | cons g rest => simp [stops g rfl]
  | cons c text ih =>
      rw [List.cons_append, List.dropWhile_cons, List.dropWhile_cons, ih]
      split <;> rfl

section Divided

variable (divided : Divided rest)
include divided

/-- A text without dividers begins another text up to its end or not at all. -/
theorem prefix_append_divided {mark : List Char} (solid : mark.all (· ∉ dividers) = true)
    (text : List Char) : mark <+: text ++ rest ↔ mark <+: text := by
  constructor
  · intro begins
    induction mark generalizing text with
    | nil => exact List.nil_prefix
    | cons c mark ih =>
        rw [List.all_cons, Bool.and_eq_true] at solid
        cases text with
        | nil =>
            -- The first character of what follows is a divider.
            obtain ⟨more, rfl⟩ := begins
            exact absurd (divided c rfl) (of_decide_eq_true solid.1)
        | cons d text =>
            rw [List.cons_append, List.cons_prefix_cons] at begins
            rw [List.cons_prefix_cons]
            exact ⟨begins.1, ih solid.2 text begins.2⟩
  · intro begins
    exact begins.trans (List.prefix_append text rest)

theorem startsWithDigit_append_divided (text : List Char) :
    startsWithDigit (text ++ rest) = startsWithDigit text := by
  cases text with
  | cons => rfl
  | nil =>
      cases rest with
      | nil => rfl
      | cons g rest => exact of_divider (Text.isDigit · = false) (by decide) (divided g rfl)

theorem startsWithExponent_append_divided (text : List Char) :
    startsWithExponent (text ++ rest) = startsWithExponent text := by
  fun_cases startsWithExponent text with
  | case1 =>
      cases rest with
      | nil => rfl
      | cons g rest =>
          have divides := divided g rfl
          have notMinus : g ≠ '-' := of_divider (· ≠ '-') (by decide) divides
          rw [List.nil_append, startsWithExponent.eq_3 _ _ notMinus]
          exact of_divider (Text.isDigit · = false) (by decide) divides
  | case2 digits => exact startsWithDigit_append_divided divided digits
  | case3 c text notMinus => rw [List.cons_append, startsWithExponent.eq_3 _ _ notMinus]

end Divided

/-! ## Numbers -/

theorem startsWithDigit_decimal (digit : startsWithDigit text = true) :
    startsWithDigit (decimal text) = true := by
  cases text with
  | nil => cases digit
  | cons c rest =>
      rw [decimal_of_digit (show Text.isDigit c from digit)]
      exact digit

/-- A decimal number is read again from its own characters. -/
theorem decimal_decimal (text : List Char) : decimal (decimal text) = decimal text := by
  induction text using decimal_induction with
  | empty => rfl
  | plain c rest isPlain ih => rw [decimal_of_plain isPlain, decimal_of_plain isPlain, ih]
  | point rest digit ih =>
      rw [decimal_of_point digit, decimal_of_point (startsWithDigit_decimal digit), ih]
  | signed c rest mark digit ih =>
      rw [decimal_of_signed mark digit, decimal_of_signed mark (startsWithDigit_decimal digit), ih]
  | unsigned c rest mark digit ih =>
      rw [decimal_of_unsigned mark digit,
        decimal_of_unsigned mark (startsWithDigit_decimal digit), ih]
  | other c rest notPlain notPoint noExponent =>
      rw [decimal_of_other notPlain notPoint noExponent]
      rfl

theorem decimal_append (divided : Divided rest) (text : List Char) :
    decimal (text ++ rest) = decimal text := by
  induction text using decimal_induction with
  | empty =>
      cases rest with
      | nil => rfl
      | cons g rest =>
          have divides := divided g rfl
          apply decimal_of_other
          · exact of_divider (fun c => ¬ (Text.isDigit c || c = '_') = true) (by decide) divides
          · rw [Bool.and_eq_true]
            exact fun point => of_divider (fun c => ¬ decide (c = '.') = true) (by decide) divides
              point.1
          · rw [Bool.and_eq_true]
            exact fun mark => of_divider (fun c => ¬ (c = 'e' || c = 'E') = true) (by decide)
              divides mark.1
  | plain c text isPlain ih =>
      rw [List.cons_append, decimal_of_plain isPlain, decimal_of_plain isPlain, ih]
  | point text digit ih =>
      rw [List.cons_append, decimal_of_point digit, decimal_of_point, ih]
      rwa [startsWithDigit_append_divided divided]
  | signed c text mark digit ih =>
      rw [List.cons_append, List.cons_append, decimal_of_signed mark digit,
        decimal_of_signed mark, ih]
      rwa [startsWithDigit_append_divided divided]
  | unsigned c text mark digit ih =>
      rw [List.cons_append, decimal_of_unsigned mark digit, decimal_of_unsigned mark, ih]
      rwa [startsWithDigit_append_divided divided]
  | other c text notPlain notPoint noExponent =>
      rw [List.cons_append, decimal_of_other notPlain notPoint noExponent]
      apply decimal_of_other notPlain
      · rwa [startsWithDigit_append_divided divided]
      · rwa [startsWithExponent_append_divided divided]

/-- A number is read again from its own characters. -/
theorem number_number (text : List Char) : number (number text) = number text := by
  have again (digits : List Char) :
      (digits.takeWhile isHexDigit).takeWhile isHexDigit = digits.takeWhile isHexDigit := by
    rw [List.takeWhile_eq_self_iff]
    exact fun c member => List.mem_takeWhile_imp member
  fun_cases number text with
  | case1 rest => rw [number, again]
  | case2 rest => rw [number, again]
  | case3 _ small large =>
      -- What is read decimally begins as the text does, so it is no hexadecimal number.
      obtain ⟨tail, split⟩ := decimal_prefix text
      rw [number.eq_3, decimal_decimal]
      · intro rest same
        rw [same] at split
        exact small _ split.symm
      · intro rest same
        rw [same] at split
        exact large _ split.symm

theorem number_append (divided : Divided rest) (text : List Char) :
    number (text ++ rest) = number text := by
  have hex (digits : List Char) :
      (digits ++ rest).takeWhile isHexDigit = digits.takeWhile isHexDigit :=
    takeWhile_append_of_head
      (fun g front => of_divider (isHexDigit · = false) (by decide) (divided g front)) digits
  have solid : ∀ mark ∈ [['0', 'x'], ['0', 'X']], mark.all (· ∉ dividers) = true := by decide
  fun_cases number text with
  | case1 digits => rw [List.cons_append, List.cons_append, number, hex]
  | case2 digits => rw [List.cons_append, List.cons_append, number, hex]
  | case3 _ small large =>
      rw [number.eq_3, decimal_append divided]
      · intro digits same
        obtain ⟨more, split⟩ := (prefix_append_divided divided (solid ['0', 'x'] (by simp)) text).1
          ⟨digits, same.symm⟩
        exact small more split.symm
      · intro digits same
        obtain ⟨more, split⟩ := (prefix_append_divided divided (solid ['0', 'X'] (by simp)) text).1
          ⟨digits, same.symm⟩
        exact large more split.symm

/-! ## Operators -/

theorem operator?_append (divided : Divided rest) (text : List Char) :
    operator? (text ++ rest) = operator? text := by
  have solid : ∀ operator ∈ operators.map String.toList,
      operator.all (· ∉ dividers) = true := by
    decide
  apply List.find?_congr
  intro operator member
  rw [Bool.eq_iff_iff, List.isPrefixOf_iff_prefix, List.isPrefixOf_iff_prefix]
  exact prefix_append_divided divided (solid operator member) text

/-- An operator is read again from its own characters. -/
theorem operator?_self : ∀ operator ∈ operators.map String.toList,
    operator? operator = some operator := by
  decide

/-! ## Comments -/

theorem comment?_eq_none_iff :
    comment? text = none ↔ ¬ ['/', '/'] <+: text ∧ ¬ ['/', '*'] <+: text := by
  fun_cases comment? text with
  | case1 rest => simp
  | case2 rest body found => simp
  | case3 rest missed => simp
  | case4 _ line block =>
      refine ⟨fun _ => ⟨?_, ?_⟩, fun _ => rfl⟩
      · rintro ⟨rest, split⟩
        exact line rest split.symm
      · rintro ⟨rest, split⟩
        exact block rest split.symm

theorem comment?_append (divided : Divided rest) (plain : comment? text = none) :
    comment? (text ++ rest) = none := by
  have solid : ∀ mark ∈ [['/', '/'], ['/', '*']], mark.all (· ∉ dividers) = true := by decide
  rw [comment?_eq_none_iff] at plain ⊢
  rw [prefix_append_divided divided (solid ['/', '/'] (by simp)),
    prefix_append_divided divided (solid ['/', '*'] (by simp))]
  exact plain

theorem comment?_of_prefix (begins : text <+: more) (plain : comment? more = none) :
    comment? text = none := by
  rw [comment?_eq_none_iff] at plain ⊢
  exact ⟨fun line => plain.1 (line.trans begins), fun block => plain.2 (block.trans begins)⟩

/-- A block comment ends at its first end mark. -/
theorem commentBody?_of_not_infix (seen : List Char) {value : List Char}
    (inner : ¬ ['*', '/'] <:+: value) (rest : List Char) :
    commentBody? seen (value ++ '*' :: '/' :: rest) = some (seen.reverse ++ value) := by
  induction value generalizing seen with
  | nil => simp [commentBody?]
  | cons c value ih =>
      rw [List.infix_cons_iff, not_or] at inner
      rw [List.cons_append, commentBody?, ih _ inner.2]
      · simp
      · intro tail isStar split
        apply inner.1
        rw [isStar]
        cases value with
        | nil => cases split
        | cons next value =>
            obtain ⟨rfl, -⟩ := List.cons.inj split
            exact ⟨value, rfl⟩

theorem comment?_ok_append (found : comment? text = some (.ok lexeme))
    (ends : ∀ g, rest.head? = some g → g = '\n') :
    comment? (text ++ rest) = some (.ok lexeme) := by
  revert found
  fun_cases comment? text with
  | case1 more body =>
      intro found
      have line : (more ++ rest).takeWhile (· ≠ '\n') = body :=
        takeWhile_append_of_head (fun g front => by simp [ends g front]) more
      rw [List.cons_append, List.cons_append, comment?, line, found]
  | case2 more value closed =>
      intro found
      obtain ⟨inside, tail, same, rfl, inner⟩ := commentBody?_split closed
      have again := commentBody?_of_not_infix [] inner (tail ++ rest)
      rw [← same] at again
      simp [comment?, again, ← found]
  | case3 more missed => simp
  | case4 => simp

theorem comment?_ok_take (found : comment? (c :: rest) = some (.ok lexeme)) :
    comment? (c :: rest.take lexeme.more) = some (.ok lexeme) := by
  revert found
  generalize whole : c :: rest = text
  fun_cases comment? text with
  | case1 more body =>
      intro found
      obtain ⟨rfl, rfl⟩ := List.cons.inj whole
      cases found
      have own : more.take body.length = body :=
        (List.prefix_iff_eq_take.1 (List.takeWhile_prefix _)).symm
      have line : body.takeWhile (· ≠ '\n') = body := by
        rw [List.takeWhile_eq_self_iff]
        intro c member
        exact List.mem_takeWhile_imp (p := (· ≠ '\n')) member
      rw [List.take_succ_cons, own, comment?, line]
  | case2 more value closed =>
      intro found
      obtain ⟨rfl, rfl⟩ := List.cons.inj whole
      cases found
      obtain ⟨inside, tail, same, rfl, inner⟩ := commentBody?_split closed
      obtain rfl : value = inside := by simpa using same
      have own : (value ++ '*' :: '/' :: tail).take (value.length + 2) = value ++ ['*', '/'] := by
        rw [List.take_append, List.take_of_length_le (by simp)]
        simp
      have again := commentBody?_of_not_infix [] inner []
      simp [comment?, own, again]
  | case3 more missed => simp
  | case4 => simp

/-! ## Strings -/

/-- Whether a character stands in a text where no backslash escapes it. -/
def hasBare (c : Char) : List Char → Bool
  | [] => false
  | '\\' :: _ :: rest => hasBare c rest
  | next :: rest => next = c || hasBare c rest

/-- What stands between quotes: no bare quote, no bare line feed and no backslash in front of
the closing quote. -/
theorem quotedBody?_bare (found : quotedBody? quote seen rest = some body) :
    ∃ value tail, body = seen.reverse ++ value ∧ rest = value ++ quote :: tail ∧
      ∀ c ∈ [quote, '\n', '\\'], hasBare c value = false := by
  fun_induction quotedBody? quote seen rest with
  | case1 => cases found
  | case2 => cases found
  | case3 => cases found
  | case4 seen c rest ih =>
      obtain ⟨value, tail, rfl, rfl, bare⟩ := ih found
      exact ⟨'\\' :: c :: value, tail, by simp, rfl, bare⟩
  | case5 seen rest =>
      cases found
      exact ⟨[], rest, by simp, rfl, fun _ _ => rfl⟩
  | case6 seen c rest notFeed lone escaped notQuote ih =>
      obtain ⟨value, tail, rfl, rfl, bare⟩ := ih found
      have notEscape : c ≠ '\\' := by
        intro same
        cases value with
        | nil => exact escaped quote tail same rfl
        | cons next value => exact escaped next (value ++ quote :: tail) same rfl
      refine ⟨c :: value, tail, by simp, rfl, ?_⟩
      intro d member
      rw [hasBare.eq_3 _ _ _ (fun _ _ same _ => notEscape same), bare d member, Bool.or_false,
        decide_eq_false_iff_not]
      rintro rfl
      simp only [List.mem_cons, List.not_mem_nil, or_false] at member
      rcases member with same | same | same
      · exact notQuote same
      · exact notFeed same
      · exact notEscape same

/-- Such a text can be read again between quotes of any kind that is not bare in it. -/
theorem quotedBody?_of_bare (seen : List Char) (isQuote : quote = '"' ∨ quote = '\'')
    {value : List Char} (bare : ∀ c ∈ [quote, '\n', '\\'], hasBare c value = false)
    (rest : List Char) :
    quotedBody? quote seen (value ++ quote :: rest) = some (seen.reverse ++ value) := by
  fun_induction hasBare quote value generalizing seen with
  | case1 =>
      rw [List.nil_append, List.append_nil]
      rcases isQuote with rfl | rfl <;> simp [quotedBody?]
  | case2 c value ih =>
      rw [List.cons_append, List.cons_append, quotedBody?, ih _ bare]
      simp
  | case3 c value escaped ih =>
      have front : ∀ d ∈ [quote, '\n', '\\'], c ≠ d ∧ hasBare d value = false := by
        intro d member
        have plain := bare d member
        rw [hasBare.eq_3 _ _ _ escaped] at plain
        simpa using plain
      have notQuote := (front quote (by simp)).1
      have notFeed := (front '\n' (by simp)).1
      have notEscape := (front '\\' (by simp)).1
      rw [List.cons_append, quotedBody?.eq_5 _ _ _ _ notFeed
        (fun same _ => notEscape same) (fun _ _ same _ => notEscape same), if_neg notQuote,
        ih _ fun d member => (front d member).2]
      simp

theorem string_eq_ok_iff {offset : Nat} (isQuote : quote = '"' ∨ quote = '\'') :
    string offset quote text = .ok lexeme ↔
      ∃ value rest, text = value ++ quote :: rest ∧
        (∀ c ∈ [quote, '\n', '\\'], hasBare c value = false) ∧
        lexeme = ⟨.string, value, offset + value.length + 1⟩ := by
  rw [string]
  constructor
  · intro found
    split at found
    next body closed =>
      cases found
      obtain ⟨value, rest, same, rfl, bare⟩ := quotedBody?_bare closed
      obtain rfl : body = value := by simpa using same
      exact ⟨body, rest, rfl, bare, rfl⟩
    next => cases found
  · rintro ⟨value, rest, rfl, bare, rfl⟩
    rw [quotedBody?_of_bare [] isQuote bare rest]
    rfl

theorem string_append {offset : Nat} (isQuote : quote = '"' ∨ quote = '\'')
    (found : string offset quote text = .ok lexeme) (rest : List Char) :
    string offset quote (text ++ rest) = .ok lexeme := by
  rw [string_eq_ok_iff isQuote] at found ⊢
  obtain ⟨value, tail, rfl, bare, same⟩ := found
  exact ⟨value, tail ++ rest, by simp, bare, same⟩

theorem string_take {offset : Nat} (isQuote : quote = '"' ∨ quote = '\'')
    (found : string offset quote text = .ok lexeme) :
    string offset quote (text.take (lexeme.more - offset)) = .ok lexeme := by
  rw [string_eq_ok_iff isQuote] at found ⊢
  obtain ⟨value, tail, rfl, bare, rfl⟩ := found
  refine ⟨value, [], ?_, bare, rfl⟩
  have length : offset + value.length + 1 - offset = value.length + 1 := by omega
  rw [length, List.take_append, List.take_of_length_le (by simp)]
  simp

/-! ## Words -/

/-- A word of its own is an identifier. -/
theorem word_of_continues (isName : ∀ c ∈ text, continuesIdentifier c) :
    word text = .ok ⟨.identifier, text, text.length - 1⟩ := by
  rw [word, List.takeWhile_eq_self_iff.2 isName, List.dropWhile_eq_nil_iff.2 isName]

theorem word_of_mark {mark : List Char} (marks : mark ∈ stringMarks)
    (isQuote : quote = '"' ∨ quote = '\'') (rest : List Char) :
    word (mark ++ quote :: rest) = string mark.length quote rest := by
  have allName : ∀ mark ∈ stringMarks, mark.all continuesIdentifier = true := by decide
  have isName := List.all_eq_true.1 (allName mark marks)
  have ends : ∀ g, (quote :: rest).head? = some g → continuesIdentifier g = false := by
    intro g front
    rw [← Option.some.inj front]
    rcases isQuote with rfl | rfl <;> decide
  have quoted : (stringMarks.contains mark && (quote = '"' || quote = '\'')) = true := by
    simpa using ⟨marks, isQuote⟩
  rw [word, takeWhile_append_of_head ends, dropWhile_append_of_head ends,
    List.takeWhile_eq_self_iff.2 isName, List.dropWhile_eq_nil_iff.2 isName, List.nil_append]
  exact if_pos quoted

/-- A word ends in front of a divider. -/
theorem Divided.not_continues (divided : Divided rest) :
    ∀ g, rest.head? = some g → continuesIdentifier g = false :=
  fun g front => of_divider (continuesIdentifier · = false) (by decide) (divided g front)

/-- A divider is no quote. -/
theorem unquoted_of_divider (divides : c ∈ dividers) : (c = '"' || c = '\'') = false :=
  of_divider (fun c => (c = '"' || c = '\'') = false) (by decide) divides

theorem word_append (divided : Divided rest) (found : word text = .ok lexeme) :
    word (text ++ rest) = .ok lexeme := by
  unfold word at found ⊢
  rw [takeWhile_append_of_head divided.not_continues,
    dropWhile_append_of_head divided.not_continues]
  dsimp only at found ⊢
  split at found
  next quote more behind =>
    rw [behind]
    dsimp only [List.cons_append]
    split at found
    next marks =>
      have isQuote : quote = '"' ∨ quote = '\'' := by
        simpa using (Bool.and_eq_true_iff.1 marks).2
      rw [if_pos marks]
      exact string_append isQuote found rest
    next plain =>
      rw [if_neg plain]
      exact found
  next behind =>
    rw [behind]
    cases rest with
    | nil => exact found
    | cons g rest =>
        have unquoted := unquoted_of_divider (divided g rfl)
        simp only [List.nil_append, unquoted, Bool.and_false, Bool.false_eq_true, if_false]
        exact found

/-- What is read from a word: itself, or the string that it marks. -/
theorem word_cases (found : word text = .ok lexeme) :
    lexeme = ⟨.identifier, text.takeWhile continuesIdentifier,
      (text.takeWhile continuesIdentifier).length - 1⟩ ∨
    ∃ mark ∈ stringMarks, ∃ quote rest, text = mark ++ quote :: rest ∧
      (quote = '"' ∨ quote = '\'') ∧ string mark.length quote rest = .ok lexeme := by
  have split : text.takeWhile continuesIdentifier ++ text.dropWhile continuesIdentifier = text :=
    List.takeWhile_append_dropWhile
  unfold word at found
  dsimp only at found
  split at found
  next quote rest behind =>
    split at found
    next marks =>
      obtain ⟨marked, quoted⟩ := Bool.and_eq_true_iff.1 marks
      rw [behind] at split
      exact .inr ⟨_, List.contains_iff_mem.1 marked, quote, rest, split.symm, by simpa using quoted,
        found⟩
    next =>
      cases found
      exact .inl rfl
  next =>
    cases found
    exact .inl rfl

theorem word_take (starts : startsIdentifier c) (found : word (c :: rest) = .ok lexeme) :
    word (c :: rest.take lexeme.more) = .ok lexeme := by
  rw [← List.take_succ_cons]
  rcases word_cases found with rfl | ⟨mark, marks, quote, more, split, isQuote, found⟩
  · have nonempty : 0 < ((c :: rest).takeWhile continuesIdentifier).length := by
      rw [List.takeWhile_cons_of_pos (continues_of_starts starts)]
      exact Nat.succ_pos _
    rw [Nat.sub_add_cancel nonempty, ← List.prefix_iff_eq_take.1 (List.takeWhile_prefix _)]
    exact word_of_continues fun d member => List.mem_takeWhile_imp member
  · have longer : mark.length ≤ lexeme.more := by
      obtain ⟨value, tail, -, -, rfl⟩ := (string_eq_ok_iff isQuote).1 found
      dsimp only
      omega
    rw [split, List.take_append, List.take_of_length_le (Nat.le_succ_of_le longer),
      Nat.sub_add_comm longer, List.take_succ_cons, word_of_mark marks isQuote]
    exact string_take isQuote found

/-! ## All lexemes -/

theorem take_of_prefix {own : List Char} (begins : own <+: c :: rest) (nonempty : own ≠ []) :
    c :: rest.take (own.length - 1) = own := by
  rw [← List.take_succ_cons, Nat.sub_add_cancel (List.length_pos_iff.2 nonempty)]
  exact (List.prefix_iff_eq_take.1 begins).symm

theorem take_number (starts : StartsNumber (c :: rest)) :
    c :: rest.take ((number (c :: rest)).length - 1) = number (c :: rest) := by
  have begins := startsNumber_number starts
  apply take_of_prefix
  · exact number_prefix (c :: rest)
  · intro empty
    rw [empty] at begins
    exact begins

theorem take_operator {operator : List Char} (found : operator? (c :: rest) = some operator) :
    c :: rest.take (operator.length - 1) = operator := by
  apply take_of_prefix
  · simpa using List.find?_some found
  · exact operators_ne_nil operator (List.mem_of_find?_eq_some found)

/-- What is read depends on no characters but its own. -/
theorem read_take (found : read c rest = .ok lexeme) :
    read c (rest.take lexeme.more) = .ok lexeme := by
  have plainly (plain : comment? (c :: rest) = none) :
      comment? (c :: rest.take lexeme.more) = none :=
    comment?_of_prefix ((List.prefix_cons_inj c).2 (List.take_prefix _ _)) plain
  rw [read_eq_ok_iff] at found ⊢
  cases found with
  | comment found => exact .comment (comment?_ok_take found)
  | string plain quoted found =>
      exact .string (plainly plain) quoted (string_take (by simpa using quoted) found)
  | punctuation plain unquoted found => exact .punctuation (plainly plain) unquoted found
  | number plain unquoted other starts =>
      have begins : StartsNumber (c :: rest) := by simpa [StartsNumber] using starts
      have own := take_number begins
      have again := startsNumber_number begins
      rw [← own] at again
      have front :=
        Front.number (plainly plain) unquoted other (by simpa [StartsNumber] using again)
      rwa [own, number_number] at front
  | dot plain isDot noDigit => exact .dot (plainly plain) isDot rfl
  | word plain unquoted other noDigit notDot starts found =>
      exact .word (plainly plain) unquoted other noDigit notDot starts (word_take starts found)
  | operator plain unquoted other noDigit notDot notWord found =>
      apply Front.operator (plainly plain) unquoted other noDigit notDot notWord
      rw [take_operator found]
      exact operator?_self _ (List.mem_of_find?_eq_some found)

/-- What is read in front of the end of a text is read in front of white space.  A line comment
needs a line feed there. -/
theorem read_append (found : read c text = .ok lexeme) (apart : Apart rest)
    (ends : lexeme.kind = .comment → ∀ g, rest.head? = some g → g = '\n') :
    read c (text ++ rest) = .ok lexeme := by
  have plainly (plain : comment? (c :: text) = none) : comment? (c :: (text ++ rest)) = none :=
    comment?_append apart.divided plain
  rw [read_eq_ok_iff] at found ⊢
  cases found with
  | comment found => exact .comment (comment?_ok_append found (ends (comment?_kind found)))
  | string plain quoted found =>
      exact .string (plainly plain) quoted (string_append (by simpa using quoted) found rest)
  | punctuation plain unquoted found => exact .punctuation (plainly plain) unquoted found
  | number plain unquoted other starts =>
      rw [← number_append apart.divided]
      apply Front.number (plainly plain) unquoted other
      rwa [startsWithDigit_append_divided apart.divided]
  | dot plain isDot noDigit =>
      apply Front.dot (plainly plain) isDot
      rwa [startsWithDigit_append_divided apart.divided]
  | word plain unquoted other noDigit notDot starts found =>
      exact .word (plainly plain) unquoted other noDigit notDot starts
        (word_append apart.divided found)
  | operator plain unquoted other noDigit notDot notWord found =>
      apply Front.operator (plainly plain) unquoted other noDigit notDot notWord
      rwa [← List.cons_append, operator?_append apart.divided]

/-- White space begins no lexeme. -/
theorem not_isGap_of_read (found : read c rest = .ok lexeme) : ¬ isGap c := by
  intro gap
  have failed : read c rest = .error (0, .unexpected c) := by
    apply of_isGap (fun c => read c rest = .error (0, .unexpected c)) ?_ gap
    exact ⟨rfl, rfl, rfl, rfl, rfl, rfl⟩
  rw [failed] at found
  cases found

/-- What is read takes characters that are there. -/
theorem length_take_of_read (found : read c rest = .ok lexeme) :
    (rest.take lexeme.more).length = lexeme.more := by
  obtain ⟨own, behind, split, length, -⟩ := spells_read found
  have total := congrArg List.length split
  rw [List.length_cons, List.length_append, length] at total
  rw [List.length_take]
  omega

/-! ## What stands behind a divider -/

section Behind

variable {divider : Char}

/-- A run of characters that ends within a text is not touched by what stands further behind. -/
theorem takeWhile_of_within {sort : Char → Bool}
    (within : ((text ++ divider :: rest).takeWhile sort).length ≤ text.length)
    (other : List Char) :
    (text ++ divider :: other).takeWhile sort = (text ++ divider :: rest).takeWhile sort := by
  induction text with
  | nil =>
      cases goesOn : sort divider with
      | false => simp [goesOn]
      | true => simp [goesOn] at within
  | cons c text ih =>
      rw [List.cons_append, List.takeWhile_cons] at within
      rw [List.cons_append, List.cons_append, List.takeWhile_cons, List.takeWhile_cons]
      split
      next goesOn =>
        rw [if_pos goesOn, List.length_cons, List.length_cons] at within
        rw [ih (Nat.le_of_succ_le_succ within)]
      next => rfl

theorem comment?_of_within (found : comment? (c :: (text ++ divider :: rest)) = some (.ok lexeme))
    (within : lexeme.more ≤ text.length) (other : List Char) :
    comment? (c :: (text ++ divider :: other)) = some (.ok lexeme) := by
  revert found
  generalize whole : c :: (text ++ divider :: rest) = full
  fun_cases comment? full with
  | case1 more body =>
      intro found
      cases found
      cases text with
      | nil => cases within
      | cons second text =>
          obtain ⟨rfl, rfl, rfl⟩ : c = '/' ∧ second = '/' ∧ text ++ divider :: rest = more := by
            simpa using whole
          have line : (text ++ divider :: other).takeWhile (· ≠ '\n') = body :=
            takeWhile_of_within (Nat.le_of_succ_le_succ within) other
          rw [List.cons_append, comment?, line]
  | case2 more value closed =>
      intro found
      cases found
      cases text with
      | nil => cases within
      | cons second text =>
          obtain ⟨rfl, rfl, rfl⟩ : c = '/' ∧ second = '*' ∧ text ++ divider :: rest = more := by
            simpa using whole
          obtain ⟨inside, tail, same, split, inner⟩ := commentBody?_split closed
          obtain rfl : value = inside := by simpa using same
          have marked : value ++ ['*', '/'] <+: text ++ divider :: rest := ⟨tail, by simp [split]⟩
          have shorter : (value ++ ['*', '/']).length ≤ text.length := by
            simpa using within
          -- The end mark stands within the text.
          obtain ⟨left, rfl⟩ :=
            List.prefix_of_prefix_length_le marked (List.prefix_append ..) shorter
          have again := commentBody?_of_not_infix [] inner (left ++ divider :: other)
          simp [comment?, again]
  | case3 more missed => simp
  | case4 => simp

theorem string_of_within {offset : Nat} (isQuote : quote = '"' ∨ quote = '\'')
    (found : string offset quote (text ++ rest) = .ok lexeme)
    (within : lexeme.more - offset ≤ text.length) (other : List Char) :
    string offset quote (text ++ other) = .ok lexeme := by
  have own := string_take isQuote found
  rw [List.take_append_of_le_length within] at own
  have again := string_append isQuote own (text.drop (lexeme.more - offset) ++ other)
  rwa [← List.append_assoc, List.take_append_drop] at again

variable (divides : divider ∈ dividers)
include divides

theorem word_of_within (found : word (text ++ divider :: rest) = .ok lexeme)
    (within : lexeme.more < text.length) (other : List Char) :
    word (text ++ divider :: other) = .ok lexeme := by
  have stops (rest : List Char) := (divided_cons divides rest).not_continues
  have total : (text.takeWhile continuesIdentifier).length +
      (text.dropWhile continuesIdentifier).length = text.length := by
    rw [← List.length_append, List.takeWhile_append_dropWhile]
  unfold word at found ⊢
  rw [takeWhile_append_of_head (stops _), dropWhile_append_of_head (stops _)] at found ⊢
  cases behind : text.dropWhile continuesIdentifier with
  | nil =>
      rw [behind] at found
      simpa [unquoted_of_divider divides] using found
  | cons quote more =>
      rw [behind] at found total
      dsimp only [List.cons_append] at found ⊢
      split at found
      next marks =>
        have isQuote : quote = '"' ∨ quote = '\'' := by
          simpa using (Bool.and_eq_true_iff.1 marks).2
        rw [if_pos marks]
        rw [List.length_cons] at total
        exact string_of_within isQuote found (by omega) _
      next plain =>
        rw [if_neg plain]
        exact found

/-- What is read in front of a divider does not depend on what stands behind the divider. -/
theorem read_of_within (found : read c (text ++ divider :: rest) = .ok lexeme)
    (within : lexeme.more ≤ text.length) (other : List Char) :
    read c (text ++ divider :: other) = .ok lexeme := by
  have divided (rest : List Char) : Divided (divider :: rest) := divided_cons divides rest
  have plainly (plain : comment? (c :: (text ++ divider :: rest)) = none) :
      comment? (c :: (text ++ divider :: other)) = none := by
    have own := comment?_of_prefix (List.prefix_append (c :: text) (divider :: rest)) plain
    exact comment?_append (divided other) own
  have digits (rest : List Char) :
      startsWithDigit (text ++ divider :: rest) = startsWithDigit text :=
    startsWithDigit_append_divided (divided rest) text
  rw [read_eq_ok_iff] at found ⊢
  cases found with
  | comment found => exact .comment (comment?_of_within found within other)
  | string plain quoted found =>
      exact .string (plainly plain) quoted
        (string_of_within (by simpa using quoted) found within _)
  | punctuation plain unquoted found => exact .punctuation (plainly plain) unquoted found
  | number plain unquoted notMark starts =>
      have same (rest : List Char) : number (c :: (text ++ divider :: rest)) = number (c :: text) :=
        number_append (divided rest) (c :: text)
      rw [same, ← same other]
      apply Front.number (plainly plain) unquoted notMark
      rwa [digits] at starts ⊢
  | dot plain isDot noDigit =>
      apply Front.dot (plainly plain) isDot
      rwa [digits] at noDigit ⊢
  | word plain unquoted notMark noDigit notDot starts found =>
      apply Front.word (plainly plain) unquoted notMark noDigit notDot starts
      rw [← List.cons_append] at found ⊢
      exact word_of_within divides found (Nat.lt_succ_of_le within) other
  | operator plain unquoted notMark noDigit notDot notWord found =>
      apply Front.operator (plainly plain) unquoted notMark noDigit notDot notWord
      rw [← List.cons_append, operator?_append (divided _)] at found ⊢
      exact found

end Behind

end Lexeme

end Interlock
