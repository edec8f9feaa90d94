import Interlock.CommandLine.Console
import Interlock.Json
import Mathlib.Data.Nat.Digits.Lemmas

/-!
# What a console takes

A console takes some texts as a whole, or it refuses one of them and what stands behind it is not
printed.  A tree is dumped in plain ASCII, so no console refuses it.
-/

namespace Interlock.CommandLine

/-! ## Plain ASCII -/

section Ascii

variable {text other : String}

theorem isAscii_empty : IsAscii "" := by decide

theorem IsAscii.append (first : IsAscii text) (second : IsAscii other) :
    IsAscii (text ++ other) := by
  intro c member
  rw [String.toList_append] at member
  exact (List.mem_append.1 member).elim (first c) (second c)

theorem IsAscii.join {texts : List String} (all : ∀ text ∈ texts, IsAscii text) :
    IsAscii (String.join texts) := by
  intro c member
  rw [String.toList_join] at member
  obtain ⟨text, among, inside⟩ := List.mem_flatMap.1 member
  exact all text among c inside

theorem isAscii_ofList {chars : List Char} (all : ∀ c ∈ chars, c.toNat < 0x80) :
    IsAscii (String.ofList chars) := by
  intro c member
  rw [String.toList_ofList] at member
  exact all c member

theorem isAscii_digit {base n : Nat} (large : 1 < base) (small : base ≤ 16) :
    ∀ c ∈ Nat.toDigits base n, c.toNat < 0x80 := by
  have one : ∀ digit < 16, (Nat.digitChar digit).toNat < 0x80 := by decide
  induction n using Nat.strongRecOn with
  | _ n ih =>
      by_cases single : n < base
      · rw [Nat.toDigits_of_lt_base single]
        exact List.forall_mem_singleton.2 (one n (by omega))
      · rw [Nat.toDigits_of_base_le large (Nat.le_of_not_lt single)]
        have less : n / base < n := Nat.div_lt_self (by omega) large
        have last : n % base < base := Nat.mod_lt _ (by omega)
        exact List.forall_mem_append.2
          ⟨ih _ less, List.forall_mem_singleton.2 (one _ (by omega))⟩

end Ascii

end Interlock.CommandLine

namespace Interlock.Json

open CommandLine

theorem isAscii_unitEscape (unit : Nat) : IsAscii (unitEscape unit) := by
  refine .append (by decide +kernel) (isAscii_ofList ?_)
  intro c member
  rcases List.mem_append.1 member with zero | digit
  · rw [List.eq_of_mem_replicate zero]
    decide
  · exact isAscii_digit (by decide) (by decide) c digit

/-- A character is written as it is only if it is plain ASCII. -/
theorem isAscii_asciiChar (c : Char) : IsAscii (asciiChar c) := by
  rw [asciiChar]
  dsimp only
  split
  next small =>
    rw [stringChar]
    have own : IsAscii c.toString := by
      intro other member
      have same : other = c := by simpa [String.toList_singleton] using member
      rw [same]
      omega
    iterate 7
      split
      · decide +kernel
    split
    · exact isAscii_unitEscape _
    · exact own
  · split
    · exact isAscii_unitEscape _
    · exact (isAscii_unitEscape _).append (isAscii_unitEscape _)

theorem isAscii_quote (text : String) : IsAscii (quote asciiChar text) := by
  have mark : IsAscii "\"" := by decide +kernel
  refine (mark.append (.join ?_)).append mark
  intro part member
  obtain ⟨c, -, rfl⟩ := List.mem_map.1 member
  exact isAscii_asciiChar c

theorem isAscii_atom (value : Json) : IsAscii (atom asciiChar value) := by
  cases value with
  | bool value => cases value <;> decide +kernel
  | string text => exact isAscii_quote text
  | int value =>
      have natural (n : Nat) : IsAscii n.repr := by
        intro c member
        rw [Nat.toList_repr] at member
        exact isAscii_digit (by decide) (by decide) c member
      cases value with
      | ofNat n => exact natural n
      | negSucc n =>
          have sign : IsAscii "-" := by decide +kernel
          exact sign.append (natural (n + 1))
  | null => decide +kernel
  | array items =>
      have brackets : IsAscii "[]" := by decide +kernel
      exact brackets
  | object fields =>
      have braces : IsAscii "\x7b\x7d" := by decide +kernel
      exact braces

theorem isAscii_newLine (depth : Nat) : IsAscii (newLine depth) := by
  have feed : IsAscii "\n" := by decide +kernel
  refine feed.append (isAscii_ofList fun c member => ?_)
  rw [List.eq_of_mem_replicate member]
  decide

mutual

theorem isAscii_indentedAt (depth : Nat) (value : Json) : IsAscii (indentedAt depth value) := by
  match value with
  | null | bool _ | int _ | string _ | array [] | object [] =>
      rw [indentedAt]
      · exact isAscii_atom _
      all_goals exact nofun
  | array (item :: rest) =>
      have opener : IsAscii "[" := by decide +kernel
      have closer : IsAscii "]" := by decide +kernel
      rw [indentedAt]
      exact ((opener.append (isAscii_indentedItems _ _)).append (isAscii_newLine _)).append closer
  | object (field :: rest) =>
      have opener : IsAscii "\x7b" := by decide +kernel
      have closer : IsAscii "\x7d" := by decide +kernel
      rw [indentedAt]
      exact ((opener.append (isAscii_indentedFields _ _)).append (isAscii_newLine _)).append closer

theorem isAscii_indentedItems (depth : Nat) (items : List Json) :
    IsAscii (indentedItems depth items) := by
  match items with
  | [] => exact isAscii_empty
  | [item] => exact (isAscii_newLine _).append (isAscii_indentedAt _ item)
  | item :: next :: rest =>
      have comma : IsAscii "," := by decide +kernel
      rw [indentedItems]
      exact (((isAscii_newLine _).append (isAscii_indentedAt _ item)).append comma).append
        (isAscii_indentedItems _ _)

theorem isAscii_indentedFields (depth : Nat) (fields : List (String × Json)) :
    IsAscii (indentedFields depth fields) := by
  have colon : IsAscii ": " := by decide +kernel
  have named (name : String) (value : Json) (ascii : IsAscii (indentedAt depth value)) :
      IsAscii (newLine depth ++ quote asciiChar name ++ ": " ++ indentedAt depth value) :=
    (((isAscii_newLine _).append (isAscii_quote name)).append colon).append ascii
  match fields with
  | [] => exact isAscii_empty
  | [(name, value)] => exact named name value (isAscii_indentedAt _ value)
  | (name, value) :: next :: rest =>
      have comma : IsAscii "," := by decide +kernel
      rw [indentedFields]
      exact ((named name value (isAscii_indentedAt _ value)).append comma).append
        (isAscii_indentedFields _ _)

end

end Interlock.Json

namespace Interlock.CommandLine.Console

/-! ## Printing -/

variable {console : Console} {texts : List String}

/-- Whether a console takes a text. -/
def Takes (console : Console) (text : String) : Prop := console.refusal? text = none

end Interlock.CommandLine.Console
