/-!
# Fields of a text

A mark character divides a text into fields.  There is always one field more than there are marks,
so the fields give the text back.
-/

namespace Interlock.Text

/-- The fields between the marks. -/
def fieldsOf (mark : Char) : List Char → List (List Char)
  | [] => [[]]
  | c :: rest =>
      if c = mark then [] :: fieldsOf mark rest
      else
        match fieldsOf mark rest with
        | [] => [[c]]
        | first :: others => (c :: first) :: others

/-- The fields of a text. -/
def fields (mark : Char) (text : String) : List String :=
  (fieldsOf mark text.toList).map String.ofList

theorem fieldsOf_ne_nil (mark : Char) (text : List Char) : fieldsOf mark text ≠ [] := by
  cases text with
  | nil => simp [fieldsOf]
  | cons c rest =>
      unfold fieldsOf
      split
      · simp
      · split <;> simp

/-- The fields, joined by the mark, give the text back. -/
theorem intercalate_fieldsOf (mark : Char) (text : List Char) :
    [mark].intercalate (fieldsOf mark text) = text := by
  induction text with
  | nil => simp [fieldsOf]
  | cons c rest ih =>
      unfold fieldsOf
      split
      · rename_i equal
        cases divided : fieldsOf mark rest with
        | nil => exact absurd divided (fieldsOf_ne_nil mark rest)
        | cons first others =>
            rw [divided] at ih
            simp [List.intercalate, List.intersperse, equal] at ih ⊢
            exact ih
      · cases divided : fieldsOf mark rest with
        | nil => exact absurd divided (fieldsOf_ne_nil mark rest)
        | cons first others =>
            rw [divided] at ih
            cases others with
            | nil => simpa [List.intercalate, List.intersperse] using ih
            | cons second more =>
                simp [List.intercalate, List.intersperse] at ih ⊢
                exact ih

section Fields

variable {mark : Char} {word : List Char}

theorem fieldsOf_of_not_mem (apart : mark ∉ word) : fieldsOf mark word = [word] := by
  induction word with
  | nil => rfl
  | cons c word ih =>
      obtain ⟨other, apart⟩ := not_or.1 (mt List.mem_cons.2 apart)
      rw [fieldsOf, if_neg (Ne.symm other), ih apart]

/-- A mark divides the fields in front of it from those behind it. -/
theorem fieldsOf_append (mark : Char) (front rest : List Char) :
    fieldsOf mark (front ++ mark :: rest) = fieldsOf mark front ++ fieldsOf mark rest := by
  induction front with
  | nil => simp [fieldsOf]
  | cons c front ih =>
      rw [List.cons_append, fieldsOf, fieldsOf, ih]
      split
      · rfl
      · cases divided : fieldsOf mark front with
        | nil => exact absurd divided (fieldsOf_ne_nil mark front)
        | cons first others => rfl

theorem fieldsOf_append_mark (apart : mark ∉ word) (rest : List Char) :
    fieldsOf mark (word ++ mark :: rest) = word :: fieldsOf mark rest := by
  rw [fieldsOf_append, fieldsOf_of_not_mem apart, List.singleton_append]

/-- No field has the mark in it. -/
theorem not_mem_of_mem_fieldsOf {text : List Char} (field : word ∈ fieldsOf mark text) :
    mark ∉ word := by
  induction text generalizing word with
  | nil => simp_all [fieldsOf]
  | cons c rest ih =>
      unfold fieldsOf at field
      split at field
      · rcases List.mem_cons.1 field with rfl | field
        · exact List.not_mem_nil
        · exact ih field
      · rename_i other
        split at field
        · simp_all [Ne.symm other]
        · rename_i first others divided
          rw [divided] at ih
          rcases List.mem_cons.1 field with rfl | field
          · have apart := ih List.mem_cons_self
            simp [Ne.symm other, apart]
          · exact ih (List.mem_cons_of_mem _ field)

/-- Words without the mark, joined by it, are the fields of the text. -/
theorem fieldsOf_intercalate {words : List (List Char)} (nonempty : words ≠ [])
    (apart : ∀ word ∈ words, mark ∉ word) :
    fieldsOf mark ([mark].intercalate words) = words := by
  induction words with
  | nil => exact absurd rfl nonempty
  | cons word words ih =>
      have own := apart word List.mem_cons_self
      cases words with
      | nil => rw [List.intercalate_singleton, fieldsOf_of_not_mem own]
      | cons next words =>
          rw [List.intercalate_cons_cons, List.append_assoc, List.singleton_append,
            fieldsOf_append_mark own, ih nofun fun word member => apart word (.tail _ member)]

/-- Words in front and words behind, each joined by the mark, have one more mark between them. -/
theorem intercalate_append {front back : List (List Char)} (some : front ≠ [])
    (more : back ≠ []) :
    [mark].intercalate (front ++ back) =
      [mark].intercalate front ++ mark :: [mark].intercalate back := by
  induction front with
  | nil => exact absurd rfl some
  | cons word front ih =>
      cases front with
      | nil => simp [List.intercalate_cons_of_ne_nil more]
      | cons next front =>
          have inner := ih (List.cons_ne_nil next front)
          simp only [List.cons_append, List.intercalate_cons_cons, List.append_assoc] at inner ⊢
          rw [inner]

end Fields

end Interlock.Text
