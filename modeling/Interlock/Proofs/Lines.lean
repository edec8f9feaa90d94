import Interlock.Json.Read
import Interlock.Proofs.Boundary
import Interlock.Text.Fields
import Interlock.Violation
import Mathlib.Data.List.Basic

/-!
# Reading a report back

A report has one line for each violation.  Every value that is written on one line is read back
from it, whatever characters its strings hold, and no line break is among the characters that are
written.  So the lines of a report give the violations back in order, and reports of different
violations differ.
-/

namespace Interlock

namespace Json

/-! ## Strings -/

section Strings

theorem unitEscape_of_control : ∀ unit < 0x20, (unitEscape unit).toList =
    ['\\', 'u', '0', '0', Nat.digitChar (unit / 16), Nat.digitChar (unit % 16)] := by
  decide +kernel

theorem unit?_of_control : ∀ unit < 0x20,
    unit? '0' '0' (Nat.digitChar (unit / 16)) (Nat.digitChar (unit % 16)) = some unit := by
  decide +kernel

/-- A character that needs no escape stands for itself. -/
theorem readChars_plain {c : Char} (notQuote : c ≠ '"') (notSlash : c ≠ '\\')
    (notControl : ¬ c.toNat < 0x20) (rest : List Char) :
    readChars none (c :: rest) = (readChars none rest).map (prepend c) := by
  rw [readChars.eq_def]
  split
  case h_1 same => cases same
  case h_2 same => exact absurd (List.cons.inj same).1 notQuote
  case h_3 same => exact absurd (List.cons.inj same).1 notSlash
  case h_4 same => exact absurd (List.cons.inj same).1 notSlash
  case h_5 same =>
    obtain ⟨rfl, rfl⟩ := List.cons.inj same
    simp [notSlash, notControl]

/-- An escaped code unit that belongs to no pair stands for its character. -/
theorem readChars_unit {first second third fourth : Char} {unit : Nat}
    (spelled : unit? first second third fourth = some unit) (notHigh : isHigh unit = false)
    (notLow : isLow unit = false) (rest : List Char) :
    readChars none ('\\' :: 'u' :: first :: second :: third :: fourth :: rest) =
      (readChars none rest).map (prepend (Char.ofNat unit)) := by
  rw [readChars.eq_def]
  simp only [spelled, notHigh, notLow, Bool.false_eq_true, if_false]

theorem readChars_control {c : Char} (control : c.toNat < 0x20) (rest : List Char) :
    readChars none ((unitEscape c.toNat).toList ++ rest) =
      (readChars none rest).map (prepend c) := by
  have notHigh : isHigh c.toNat = false := by
    rw [isHigh, Bool.and_eq_false_iff]
    exact .inl (decide_eq_false (by omega))
  have notLow : isLow c.toNat = false := by
    rw [isLow, Bool.and_eq_false_iff]
    exact .inl (decide_eq_false (by omega))
  rw [unitEscape_of_control _ control]
  simp only [List.cons_append, List.nil_append]
  rw [readChars_unit (unit?_of_control _ control) notHigh notLow, Char.ofNat_toNat]

/-- A written character is read back. -/
theorem readChars_stringChar (c : Char) (rest : List Char) :
    readChars none ((stringChar c).toList ++ rest) = (readChars none rest).map (prepend c) := by
  fun_cases stringChar c with
  | case1 same => exact same ▸ rfl
  | case2 _ same => exact same ▸ rfl
  | case3 _ _ same => exact same ▸ rfl
  | case4 _ _ _ same => exact same ▸ rfl
  | case5 _ _ _ _ same => exact same ▸ rfl
  | case6 _ _ _ _ _ same => exact same ▸ rfl
  | case7 _ _ _ _ _ _ same => exact same ▸ rfl
  | case8 _ _ _ _ _ _ _ control => exact readChars_control control rest
  | case9 notQuote notSlash _ _ _ _ _ notControl =>
      have own : c.toString.toList = [c] := String.toList_singleton c
      rw [own]
      exact readChars_plain notQuote notSlash notControl rest

theorem toList_quote (text : String) :
    (quote stringChar text).toList =
      '"' :: (text.toList.flatMap (fun c => (stringChar c).toList) ++ ['"']) := by
  simp [quote, String.toList_join, List.flatMap_map]

theorem readChars_written (chars rest : List Char) :
    readChars none (chars.flatMap (fun c => (stringChar c).toList) ++ '"' :: rest) =
      some (chars, rest) := by
  induction chars with
  | nil => rfl
  | cons c chars ih =>
      rw [List.flatMap_cons, List.append_assoc, readChars_stringChar, ih]
      rfl

end Strings

/-! ## Numbers -/

section Numbers

theorem head?_toDigits {n : Nat} (pos : 0 < n) : (Nat.toDigits 10 n).head? ≠ some '0' := by
  induction n using Nat.strongRecOn with
  | ind n ih =>
      by_cases small : n < 10
      · have digits : ∀ n < 10, 0 < n → some (Nat.digitChar n) ≠ some '0' := by decide
        rw [Nat.toDigits_of_lt_base small]
        exact digits n small pos
      · have front := ih (n / 10) (by omega) (by omega)
        rw [Nat.toDigits_of_base_le (by decide) (by omega), List.head?_append]
        cases digits : Nat.toDigits 10 (n / 10) with
        | nil => exact absurd digits Nat.toDigits_ne_nil
        | cons c more => simpa [digits] using front

/-- A written number is read back where no digit stands behind it. -/
theorem readNatural_toDigits (n : Nat) {rest : List Char}
    (stops : ∀ c, rest.head? = some c → c.isDigit = false) :
    readNatural (Nat.toDigits 10 n ++ rest) = some (n, rest) := by
  have digits : ∀ c ∈ Nat.toDigits 10 n, c.isDigit = true :=
    fun c member => Nat.isDigit_of_mem_toDigits (by decide) (by decide) member
  have taken : (Nat.toDigits 10 n ++ rest).takeWhile Char.isDigit = Nat.toDigits 10 n := by
    rw [Lexeme.takeWhile_append_of_head stops, List.takeWhile_eq_self_iff.2 digits]
  have left : (Nat.toDigits 10 n ++ rest).dropWhile Char.isDigit = rest := by
    rw [Lexeme.dropWhile_append_of_head stops, List.dropWhile_eq_nil_iff.2 digits,
      List.nil_append]
  rw [readNatural, taken, left]
  split
  next none => exact absurd none Nat.toDigits_ne_nil
  next c more zeros =>
    by_cases zero : n = 0
    · subst zero
      cases zeros
    · have front := head?_toDigits (Nat.pos_of_ne_zero zero)
      rw [zeros] at front
      exact absurd rfl front
  next => rw [Nat.ofDigitChars_toDigits (by decide) (by decide)]

end Numbers

/-! ## Values -/

section Values

variable {c : Char} {fuel : Nat} {text rest : List Char}

theorem pastSpace_cons (notSpace : isSpace c = false) : pastSpace (c :: rest) = c :: rest :=
  List.dropWhile_cons_of_neg (by simp [notSpace])

theorem readValue_space : readValue fuel (' ' :: text) = readValue fuel text := by
  cases fuel with
  | zero => rfl
  | succ fuel => rfl

theorem readValue_array (notSpace : isSpace c = false) (notEnd : c ≠ ']') :
    readValue (fuel + 1) ('[' :: c :: text) =
      (readItems fuel (c :: text)).map fun found => (array found.1, found.2) := by
  have front : pastSpace ('[' :: c :: text) = '[' :: c :: text := rfl
  rw [readValue]
  simp only [front, pastSpace_cons notSpace]
  split
  next same => exact absurd (List.cons.inj same).1 notEnd
  next => rfl

theorem readValue_object :
    readValue (fuel + 1) ('\x7b' :: '"' :: text) =
      (readFields fuel ('"' :: text)).map fun found => (object found.1, found.2) := rfl

theorem isSpace_of_digit (digit : c.isDigit = true) : isSpace c = false := by
  simp only [isSpace, Bool.or_eq_false_iff, decide_eq_false_iff_not]
  refine ⟨⟨⟨?_, ?_⟩, ?_⟩, ?_⟩ <;>
    · intro same
      exact absurd digit (same ▸ by decide)

theorem readValue_digits (digit : c.isDigit = true) :
    readValue (fuel + 1) (c :: text) =
      (readNatural (c :: text)).map fun found => (int found.1, found.2) := by
  have other {d : Char} {more : List Char} (notDigit : d.isDigit = false) :
      c :: text ≠ d :: more := by
    intro same
    obtain ⟨rfl, -⟩ := List.cons.inj same
    exact Bool.false_ne_true (notDigit.symm.trans digit)
  rw [readValue.eq_def]
  simp only [pastSpace_cons (isSpace_of_digit digit)]
  split
  next same => exact absurd same (other rfl)
  next same => exact absurd same (other rfl)
  next same => exact absurd same (other rfl)
  next same => exact absurd same (other rfl)
  next same => exact absurd same (other rfl)
  next same => exact absurd same (other rfl)
  next same => exact absurd same (other rfl)
  next => rfl

theorem toList_line_ofNat (n : Nat) : (line (int (.ofNat n))).toList = Nat.toDigits 10 n :=
  Nat.toList_repr

theorem toList_line_negSucc (n : Nat) :
    (line (int (.negSucc n))).toList = '-' :: Nat.toDigits 10 (n + 1) := by
  have text : line (int (.negSucc n)) = "-" ++ (n + 1).repr := rfl
  rw [text, String.toList_append, Nat.toList_repr]
  rfl

theorem exists_digits (n : Nat) : ∃ c more, Nat.toDigits 10 n = c :: more ∧ c.isDigit = true := by
  cases digits : Nat.toDigits 10 n with
  | nil => exact absurd digits Nat.toDigits_ne_nil
  | cons c more =>
      refine ⟨c, more, rfl, Nat.isDigit_of_mem_toDigits (b := 10) (n := n) ?_ ?_ ?_⟩
      · decide
      · decide
      · exact digits ▸ List.mem_cons_self

/-- A written integer is read back where no digit stands behind it. -/
theorem readValue_int (value : Int) (stops : ∀ c, rest.head? = some c → c.isDigit = false) :
    readValue (fuel + 1) ((line (int value)).toList ++ rest) = some (int value, rest) := by
  cases value with
  | ofNat n =>
      have read := readNatural_toDigits n stops
      obtain ⟨c, more, digits, digit⟩ := exists_digits n
      rw [toList_line_ofNat, digits, List.cons_append, readValue_digits digit, ← List.cons_append,
        ← digits, read]
      rfl
  | negSucc n =>
      have step : readValue (fuel + 1) ('-' :: (Nat.toDigits 10 (n + 1) ++ rest)) =
          (readNatural (Nat.toDigits 10 (n + 1) ++ rest)).map
            fun found => (int (-found.1), found.2) := rfl
      rw [toList_line_negSucc, List.cons_append, step, readNatural_toDigits _ stops]
      rfl

/-! ### Lists and objects -/

theorem toList_line_array (items : List Json) :
    (line (array items)).toList = '[' :: ((lineItems items).toList ++ [']']) := by
  simp [line]

theorem toList_line_object (fields : List (String × Json)) :
    (line (object fields)).toList = '\x7b' :: ((lineFields fields).toList ++ ['\x7d']) := by
  simp [line]

theorem toList_lineItems (item next : Json) (items : List Json) :
    (lineItems (item :: next :: items)).toList =
      (line item).toList ++ ',' :: ' ' :: (lineItems (next :: items)).toList := by
  simp [lineItems]

theorem toList_lineFields (name : String) (value : Json) (next : String × Json)
    (fields : List (String × Json)) :
    (lineFields ((name, value) :: next :: fields)).toList =
      (quote stringChar name).toList ++ ':' :: ' ' ::
        ((line value).toList ++ ',' :: ' ' :: (lineFields (next :: fields)).toList) := by
  simp [lineFields]

theorem toList_lineField (name : String) (value : Json) :
    (lineFields [(name, value)]).toList =
      (quote stringChar name).toList ++ ':' :: ' ' :: (line value).toList := by
  simp [lineFields]

/-- No value begins as white space or as the end of a list does. -/
theorem exists_front (value : Json) :
    ∃ c more, (line value).toList = c :: more ∧ isSpace c = false ∧ c ≠ ']' := by
  cases value with
  | null => exact ⟨'n', ['u', 'l', 'l'], rfl, rfl, by decide⟩
  | bool value =>
      cases value with
      | false => exact ⟨'f', ['a', 'l', 's', 'e'], rfl, rfl, by decide⟩
      | true => exact ⟨'t', ['r', 'u', 'e'], rfl, rfl, by decide⟩
  | int value =>
      cases value with
      | ofNat n =>
          obtain ⟨c, more, digits, digit⟩ := exists_digits n
          refine ⟨c, more, (toList_line_ofNat n).trans digits, isSpace_of_digit digit, ?_⟩
          intro same
          exact absurd digit (same ▸ by decide)
      | negSucc n => exact ⟨'-', _, toList_line_negSucc n, rfl, by decide⟩
  | string value => exact ⟨'"', _, toList_quote value, rfl, by decide⟩
  | array items => exact ⟨'[', _, toList_line_array items, rfl, by decide⟩
  | object fields => exact ⟨'\x7b', _, toList_line_object fields, rfl, by decide⟩

theorem exists_front_items (item : Json) (items : List Json) :
    ∃ c more, (lineItems (item :: items)).toList = c :: more ∧ isSpace c = false ∧ c ≠ ']' := by
  obtain ⟨c, more, front, notSpace, notEnd⟩ := exists_front item
  cases items with
  | nil => exact ⟨c, more, by rw [lineItems, front], notSpace, notEnd⟩
  | cons next items =>
      have split := toList_lineItems item next items
      rw [front, List.cons_append] at split
      exact ⟨c, _, split, notSpace, notEnd⟩

theorem exists_front_fields (field : String × Json) (fields : List (String × Json)) :
    ∃ more, (lineFields (field :: fields)).toList = '"' :: more := by
  obtain ⟨name, value⟩ := field
  cases fields with
  | nil => exact ⟨_, by rw [toList_lineField, toList_quote, List.cons_append]⟩
  | cons next fields => exact ⟨_, by rw [toList_lineFields, toList_quote, List.cons_append]⟩

section Steps

variable {item value : Json} {name : String} {more : List Char}

theorem readItems_space : readItems fuel (' ' :: text) = readItems fuel text := by
  cases fuel with
  | zero => rfl
  | succ fuel => rw [readItems, readItems, readValue_space]

theorem readItems_last (read : readValue fuel text = some (item, ']' :: rest)) :
    readItems (fuel + 1) text = some ([item], rest) := by
  rw [readItems, read]
  rfl

theorem readItems_more (read : readValue fuel text = some (item, ',' :: more)) :
    readItems (fuel + 1) text =
      (readItems fuel more).map fun found => (item :: found.1, found.2) := by
  rw [readItems, read]
  rfl

theorem readFields_space : readFields fuel (' ' :: text) = readFields fuel text := by
  cases fuel with
  | zero => rfl
  | succ fuel => rfl

/-- A written field is read up to its value. -/
theorem readFields_name (name : String) (text : List Char) :
    readFields (fuel + 1) ((quote stringChar name).toList ++ ':' :: text) =
      (readValue fuel text).bind fun found =>
        match pastSpace found.2 with
        | '\x7d' :: rest => some ([(name, found.1)], rest)
        | ',' :: rest =>
            (readFields fuel rest).map fun others => ((name, found.1) :: others.1, others.2)
        | _ => none := by
  have front : pastSpace ((quote stringChar name).toList ++ ':' :: text) =
      '"' :: (name.toList.flatMap (fun c => (stringChar c).toList) ++ '"' :: ':' :: text) := by
    rw [toList_quote]
    simp [pastSpace_cons (show isSpace '"' = false from rfl)]
  have colon : pastSpace (':' :: text) = ':' :: text := rfl
  rw [readFields, front]
  simp only [readChars_written, colon, Option.bind_eq_bind, Option.bind_some, String.ofList_toList]
  rfl

theorem readFields_last (read : readValue fuel text = some (value, '\x7d' :: rest)) :
    readFields (fuel + 1) ((quote stringChar name).toList ++ ':' :: text) =
      some ([(name, value)], rest) := by
  rw [readFields_name, read]
  rfl

theorem readFields_more (read : readValue fuel text = some (value, ',' :: more)) :
    readFields (fuel + 1) ((quote stringChar name).toList ++ ':' :: text) =
      (readFields fuel more).map fun found => ((name, value) :: found.1, found.2) := by
  rw [readFields_name, read]
  rfl

end Steps

/-- Whether what stands behind a value could not belong to a number. -/
def Stops (rest : List Char) : Prop := ∀ c, rest.head? = some c → c.isDigit = false

theorem stops_cons (notDigit : c.isDigit = false) : Stops (c :: rest) := by
  intro d front
  cases front
  exact notDigit

mutual

/-- A value that is written on one line is read back.  As deep as a value is, it is written with
at least as many characters. -/
theorem readValue_line (value : Json) (fuel : Nat) (rest : List Char)
    (enough : (line value).toList.length < fuel) (stops : Stops rest) :
    readValue fuel ((line value).toList ++ rest) = some (value, rest) := by
  cases fuel with
  | zero => exact absurd enough (Nat.not_lt_zero _)
  | succ fuel =>
      match value with
      | null => rfl
      | bool false => rfl
      | bool true => rfl
      | int value => exact readValue_int value stops
      | string text =>
          have written : (line (string text)).toList = (quote stringChar text).toList := rfl
          have step (text : List Char) : readValue (fuel + 1) ('"' :: text) =
              (readChars none text).map fun found => (string (String.ofList found.1), found.2) :=
            rfl
          rw [written, toList_quote, List.cons_append, List.append_assoc, step,
            List.singleton_append, readChars_written, Option.map_some, String.ofList_toList]
      | array items =>
          have read := readItems_lineItems items fuel rest
          simp only [toList_line_array, List.length_cons, List.length_append] at enough
          rw [toList_line_array, List.cons_append, List.append_assoc, List.singleton_append]
          cases items with
          | nil => rfl
          | cons item items =>
              obtain ⟨c, more, front, notSpace, notEnd⟩ := exists_front_items item items
              rw [front, List.cons_append, readValue_array notSpace notEnd, ← List.cons_append,
                ← front, read (List.cons_ne_nil _ _) (by omega)]
              rfl
      | object fields =>
          have read := readFields_lineFields fields fuel rest
          simp only [toList_line_object, List.length_cons, List.length_append] at enough
          rw [toList_line_object, List.cons_append, List.append_assoc, List.singleton_append]
          cases fields with
          | nil => rfl
          | cons field fields =>
              obtain ⟨more, front⟩ := exists_front_fields field fields
              rw [front, List.cons_append, readValue_object, ← List.cons_append, ← front,
                read (List.cons_ne_nil _ _) (by omega)]
              rfl

theorem readItems_lineItems (items : List Json) (fuel : Nat) (rest : List Char)
    (nonempty : items ≠ []) (enough : (lineItems items).toList.length + 1 < fuel) :
    readItems fuel ((lineItems items).toList ++ ']' :: rest) = some (items, rest) := by
  cases fuel with
  | zero => exact absurd enough (Nat.not_lt_zero _)
  | succ fuel =>
      match items with
      | [] => exact absurd rfl nonempty
      | item :: items =>
          have first := readValue_line item fuel
          have others := readItems_lineItems items fuel rest
          cases items with
          | nil =>
              rw [lineItems] at enough ⊢
              exact readItems_last (first _ (by omega) (stops_cons rfl))
          | cons next items =>
              rw [toList_lineItems] at enough ⊢
              simp only [List.length_append, List.length_cons] at enough
              rw [List.append_assoc, List.cons_append,
                readItems_more (first _ (by omega) (stops_cons rfl)), List.cons_append,
                readItems_space, others (List.cons_ne_nil _ _) (by omega)]
              rfl

theorem readFields_lineFields (fields : List (String × Json)) (fuel : Nat) (rest : List Char)
    (nonempty : fields ≠ []) (enough : (lineFields fields).toList.length + 1 < fuel) :
    readFields fuel ((lineFields fields).toList ++ '\x7d' :: rest) = some (fields, rest) := by
  cases fuel with
  | zero => exact absurd enough (Nat.not_lt_zero _)
  | succ fuel =>
      match fields with
      | [] => exact absurd rfl nonempty
      | (name, value) :: fields =>
          have first := readValue_line value fuel
          have others := readFields_lineFields fields fuel rest
          cases fields with
          | nil =>
              rw [toList_lineField] at enough ⊢
              simp only [List.length_append, List.length_cons] at enough
              rw [List.append_assoc, List.cons_append, readFields_last]
              rw [List.cons_append, readValue_space]
              exact first _ (by omega) (stops_cons rfl)
          | cons next fields =>
              rw [toList_lineFields] at enough ⊢
              simp only [List.length_append, List.length_cons] at enough
              rw [List.append_assoc, List.cons_append, readFields_more, readFields_space,
                others (List.cons_ne_nil _ _) (by omega)]
              · rfl
              · rw [List.cons_append, readValue_space, List.append_assoc]
                exact first _ (by omega) (stops_cons rfl)

end

/-- A value is read back from its line. -/
theorem read?_line (value : Json) : read? value.line = some value := by
  have read := readValue_line value (value.line.length + 1) []
    (by rw [String.length_toList]; omega) (fun _ front => nomatch front)
  rw [List.append_nil] at read
  rw [read?, read]
  rfl

-- Other texts than written ones are read too.
example : read? " [ \"\\ud83d\\ude00\" ,\n -12 ] " = some (array [string "😀", int (-12)]) := by
  cbv

end Values

/-! ## One line -/

section OneLine

variable {c : Char}

theorem newline_notMem_stringChar (c : Char) : '\n' ∉ (stringChar c).toList := by
  fun_cases stringChar c with
  | case8 _ _ _ _ _ _ _ control =>
      have digits : ∀ unit < 0x20, '\n' ∉ (unitEscape unit).toList := by decide +kernel
      exact digits _ control
  | case9 _ _ notBreak =>
      have own : c.toString.toList = [c] := String.toList_singleton c
      rw [own, List.mem_singleton]
      exact Ne.symm notBreak
  | _ => decide

theorem newline_notMem_quote (text : String) : '\n' ∉ (quote stringChar text).toList := by
  simp [toList_quote, newline_notMem_stringChar]

theorem newline_notMem_digits (n : Nat) : '\n' ∉ Nat.toDigits 10 n := by
  intro member
  have digit : ('\n').isDigit = true :=
    Nat.isDigit_of_mem_toDigits (by decide) (by decide) member
  exact absurd digit (by decide)

mutual

/-- A value is written on one line. -/
theorem newline_notMem_line (value : Json) : '\n' ∉ (line value).toList := by
  match value with
  | null => decide
  | bool false => decide
  | bool true => decide
  | int (.ofNat n) => exact toList_line_ofNat n ▸ newline_notMem_digits n
  | int (.negSucc n) =>
      rw [toList_line_negSucc]
      simp [newline_notMem_digits]
  | string text => exact newline_notMem_quote text
  | array items =>
      rw [toList_line_array]
      simp [newline_notMem_lineItems items]
  | object fields =>
      rw [toList_line_object]
      simp [newline_notMem_lineFields fields]

theorem newline_notMem_lineItems (items : List Json) : '\n' ∉ (lineItems items).toList := by
  match items with
  | [] => decide
  | [item] =>
      rw [lineItems]
      exact newline_notMem_line item
  | item :: next :: items =>
      rw [toList_lineItems]
      simp [newline_notMem_line item, newline_notMem_lineItems (next :: items)]

theorem newline_notMem_lineFields (fields : List (String × Json)) :
    '\n' ∉ (lineFields fields).toList := by
  match fields with
  | [] => decide
  | [(name, value)] =>
      rw [toList_lineField]
      simp [newline_notMem_quote, newline_notMem_line value]
  | (name, value) :: next :: fields =>
      rw [toList_lineFields]
      simp [newline_notMem_quote, newline_notMem_line value,
        newline_notMem_lineFields (next :: fields)]

end

end OneLine

theorem strings_injective : Function.Injective strings := by
  intro texts others same
  have each : Function.Injective string := fun text other same => string.inj same
  exact List.map_injective_iff.2 each (array.inj same)

end Json

/-! ## Reports -/

/-- A text has one field more than marks. -/
theorem Text.length_fieldsOf (mark : Char) (text : List Char) :
    (Text.fieldsOf mark text).length = text.count mark + 1 := by
  induction text with
  | nil => rfl
  | cons c rest ih =>
      unfold Text.fieldsOf
      split
      next same =>
        rw [List.length_cons, ih, same, List.count_cons_self]
      next other =>
        rw [List.count_cons_of_ne other, ← ih]
        cases fields : Text.fieldsOf mark rest with
        | nil => exact absurd fields (Text.fieldsOf_ne_nil mark rest)
        | cons first others => rfl

theorem Violation.toJson_injective : Function.Injective Violation.toJson := by
  intro violation other same
  obtain ⟨path, function, contract, ⟨line, column⟩,
    ⟨visibility, mutability, modifiers⟩⟩ := violation
  obtain ⟨path', function', contract', ⟨line', column'⟩,
    ⟨visibility', mutability', modifiers'⟩⟩ := other
  simp only [toJson, Json.object.injEq, List.cons.injEq, Prod.mk.injEq, Json.string.injEq,
    Json.int.injEq, Json.strings_injective.eq_iff, true_and, and_true] at same
  obtain ⟨rfl, rfl, rfl, rfl, rfl, rfl, rfl, rfl⟩ := same
  rfl

namespace Report

variable {violations : List Violation}

theorem toList_jsonLines (violations : List Violation) :
    (jsonLines violations).toList =
      ['\n'].intercalate (violations.map fun violation => violation.toJson.line.toList) := by
  rw [jsonLines, String.toList_intercalate, List.map_map]
  rfl

/-- The lines of a report are the lines of its violations. -/
theorem fieldsOf_jsonLines (nonempty : violations ≠ []) :
    Text.fieldsOf '\n' (jsonLines violations).toList =
      violations.map fun violation => violation.toJson.line.toList := by
  rw [toList_jsonLines, Text.fieldsOf_intercalate]
  · exact mt List.map_eq_nil_iff.1 nonempty
  · intro line member
    obtain ⟨violation, -, rfl⟩ := List.mem_map.1 member
    exact Json.newline_notMem_line violation.toJson

theorem map_read?_jsonLines (nonempty : violations ≠ []) :
    (Text.fields '\n' (jsonLines violations)).map Json.read? =
      violations.map fun violation => some violation.toJson := by
  rw [Text.fields, fieldsOf_jsonLines nonempty, List.map_map, List.map_map]
  apply List.map_congr_left
  intro violation _
  simp only [Function.comp_apply, String.ofList_toList, Json.read?_line]

/-- What a report of no violations has on its one line is no value. -/
theorem jsonLines_ne_jsonLines_nil (nonempty : violations ≠ []) :
    jsonLines violations ≠ jsonLines [] := by
  intro same
  have read : violations.map (fun violation => some violation.toJson) = [none] := by
    rw [← map_read?_jsonLines nonempty, same]
    rfl
  have member : none ∈ violations.map fun violation => some violation.toJson :=
    read ▸ List.mem_singleton_self none
  obtain ⟨violation, -, same⟩ := List.mem_map.1 member
  cases same

theorem jsonLines_injective : Function.Injective jsonLines := by
  intro violations others same
  by_cases empty : violations = []
  · subst empty
    by_contra different
    exact jsonLines_ne_jsonLines_nil (Ne.symm different) same.symm
  · by_cases empty' : others = []
    · subst empty'
      exact absurd same (jsonLines_ne_jsonLines_nil empty)
    · have each : Function.Injective fun violation : Violation => some violation.toJson :=
        fun violation other same => Violation.toJson_injective (Option.some.inj same)
      apply List.map_injective_iff.2 each
      rw [← map_read?_jsonLines empty, ← map_read?_jsonLines empty', same]

/-- A report of `n` violations has `n - 1` line breaks, and its lines, each read as JSON, are the
violations in order.  Reports of different violations differ. -/
theorem report_reads_back :
    (∀ violations : List Violation, violations ≠ [] →
      (jsonLines violations).toList.count '\n' = violations.length - 1 ∧
      (Text.fields '\n' (jsonLines violations)).map Json.read? =
        violations.map fun violation => some violation.toJson) ∧
    ∀ violations others : List Violation,
      violations ≠ others → jsonLines violations ≠ jsonLines others := by
  constructor
  · intro violations nonempty
    constructor
    · have breaks := Text.length_fieldsOf '\n' (jsonLines violations).toList
      rw [fieldsOf_jsonLines nonempty, List.length_map] at breaks
      exact Nat.eq_sub_of_add_eq breaks.symm
    · exact map_read?_jsonLines nonempty
  · intro violations others different same
    exact different (jsonLines_injective same)

/-- A path with a line break in it, a name in quotation marks, and a modifier with a control
character. -/
def oddViolations : List Violation :=
  [⟨"a\nb.sol", "\"f\"", "C", ⟨3, 5⟩, ⟨"public", "payable", ["\x00", "\\"]⟩⟩,
   ⟨"é😀", "g", "", ⟨0, -1⟩, ⟨"external", "nonpayable", []⟩⟩]

theorem oddViolations_read_back :
    (jsonLines oddViolations).toList.count '\n' = 1 ∧
    (Text.fields '\n' (jsonLines oddViolations)).map Json.read? =
      oddViolations.map fun violation => some violation.toJson :=
  report_reads_back.1 oddViolations (List.cons_ne_nil _ _)

end Report

end Interlock
