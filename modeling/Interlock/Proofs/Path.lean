import Interlock.FileSystem

/-!
# Paths as text

A path that has been read is written in one way only: its leading slashes and its components,
with a slash between them.  Read again, that text gives the path back, so a path and every text
that it is read from stand for the same thing in reports and in exclusion lists.
-/

namespace Interlock.Path

/-- What every path has that was read: no more slashes than are kept, and components that say
something and hold no slash. -/
structure IsRead (path : Path) : Prop where
  slashes : path.slashes ≤ 2
  parts : ∀ part ∈ path.parts, isPart part ∧ '/' ∉ part.toList

theorem leadingSlashes_le (text : List Char) : leadingSlashes text ≤ 2 := by
  fun_cases leadingSlashes text <;> decide

theorem isRead_parse (text : String) : (parse text).IsRead := by
  refine ⟨leadingSlashes_le _, fun part member => ?_⟩
  obtain ⟨field, isPart⟩ := List.mem_filter.1 member
  obtain ⟨chars, among, rfl⟩ := List.mem_map.1 field
  rw [String.toList_ofList]
  exact ⟨isPart, Text.not_mem_of_mem_fieldsOf among⟩

/-- Where no slash follows, all slashes are kept. -/
theorem leadingSlashes_replicate {count : Nat} (few : count ≤ 2) {rest : List Char}
    (ends : rest.head? ≠ some '/') :
    leadingSlashes (List.replicate count '/' ++ rest) = count := by
  have behind : ∀ more, rest ≠ '/' :: more := by
    rintro more rfl
    exact ends rfl
  match count, few with
  | 0, _ => exact leadingSlashes.eq_4 _ (fun _ => behind _) (fun _ => behind _) behind
  | 1, _ => exact leadingSlashes.eq_3 _ (fun _ => behind _) behind
  | 2, _ => exact leadingSlashes.eq_2 _ behind

/-- The fields of slashes and components are the components and some empty ones. -/
theorem filter_isPart_fieldsOf (count : Nat) {parts : List String}
    (read : ∀ part ∈ parts, isPart part ∧ '/' ∉ part.toList) :
    ((Text.fieldsOf '/' (List.replicate count '/' ++
      ['/'].intercalate (parts.map String.toList))).map String.ofList).filter isPart = parts := by
  induction count with
  | zero =>
      rw [List.replicate_zero, List.nil_append]
      cases parts with
      | nil => rfl
      | cons part parts =>
          rw [Text.fieldsOf_intercalate (by simp), List.map_map]
          · have back : String.ofList ∘ String.toList = id := by
              funext part
              exact String.ofList_toList
            rw [back, List.map_id, List.filter_eq_self]
            exact fun part among => (read part among).1
          · intro word member
            obtain ⟨part, among, rfl⟩ := List.mem_map.1 member
            exact (read part among).2
  | succ count ih =>
      rw [List.replicate_succ, List.cons_append, Text.fieldsOf, if_pos rfl, List.map_cons,
        List.filter_cons_of_neg (by decide), ih]

theorem head?_intercalate {parts : List String}
    (read : ∀ part ∈ parts, isPart part ∧ '/' ∉ part.toList) :
    (['/'].intercalate (parts.map String.toList)).head? ≠ some '/' := by
  cases parts with
  | nil => exact nofun
  | cons part parts =>
      obtain ⟨isPart, apart⟩ := read part List.mem_cons_self
      have nonempty : part.toList ≠ [] := by
        intro empty
        rw [String.toList_eq_nil_iff.1 empty] at isPart
        cases isPart
      obtain ⟨c, more, own⟩ := List.exists_cons_of_ne_nil nonempty
      have other : c ≠ '/' := by
        rintro rfl
        exact apart (by simp [own])
      cases parts with
      | nil => simp [own, other]
      | cons => simp [own, other, List.intercalate_cons_cons]

/-- A path that was read is read again from its text. -/
theorem IsRead.parse_display {path : Path} (read : path.IsRead) :
    parse path.display = path := by
  obtain ⟨slashes, parts⟩ := path
  rw [display]
  split
  next bare =>
    obtain ⟨rfl, rfl⟩ : slashes = 0 ∧ parts = [] := by simpa using bare
    rfl
  next =>
    have text : (String.ofList (List.replicate slashes '/') ++ "/".intercalate parts).toList =
        List.replicate slashes '/' ++ ['/'].intercalate (parts.map String.toList) := by
      rw [String.toList_append, String.toList_ofList, String.toList_intercalate]
      rfl
    rw [parse, Text.fields, text,
      leadingSlashes_replicate read.slashes (head?_intercalate read.parts),
      filter_isPart_fieldsOf slashes read.parts]

/-- A path that is read from a text stands for the same as the text. -/
theorem key_display_parse (directory : List String) (text : String) :
    key directory (parse text).display = key directory text := by
  rw [key, key, (isRead_parse text).parse_display]

end Interlock.Path
