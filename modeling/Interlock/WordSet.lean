/-!
# Finite sets of words

A set is a strictly increasing list, so two sets with the same words are equal and a set lists
its words in order.  Words are compared character by character, by code point.
-/

namespace Interlock

/-- A set of words in increasing order. -/
structure WordSet where
  toList : List String
  sorted : toList.Pairwise (· < ·)
  deriving DecidableEq, Repr

namespace WordSet

/-- Puts a word into an increasing list, unless it is there. -/
def insertInto (word : String) : List String → List String
  | [] => [word]
  | head :: rest =>
      if word < head then word :: head :: rest
      else if word = head then head :: rest
      else head :: insertInto word rest

theorem mem_insertInto {word other : String} {words : List String} :
    other ∈ insertInto word words ↔ other = word ∨ other ∈ words := by
  induction words with
  | nil => simp [insertInto]
  | cons head rest ih =>
      unfold insertInto
      split
      · simp
      · split
        · rename_i equal
          simp [equal]
        · simp [ih, or_left_comm]

theorem sorted_insertInto {word : String} {words : List String}
    (sorted : words.Pairwise (· < ·)) : (insertInto word words).Pairwise (· < ·) := by
  induction words with
  | nil => simp [insertInto]
  | cons head rest ih =>
      have below := List.pairwise_cons.1 sorted
      unfold insertInto
      split
      · rename_i less
        refine List.pairwise_cons.2 ⟨?_, sorted⟩
        intro other member
        rcases List.mem_cons.1 member with equal | member
        · exact equal ▸ less
        · exact String.lt_trans less (below.1 other member)
      · split
        · exact sorted
        · rename_i notLess different
          refine List.pairwise_cons.2 ⟨?_, ih below.2⟩
          intro other member
          rcases mem_insertInto.1 member with equal | member
          · subst equal
            exact Std.lt_of_le_of_ne (String.not_lt.1 notLess) (Ne.symm different)
          · exact below.1 other member

/-- The set without words. -/
def empty : WordSet := ⟨[], .nil⟩

/-- Adds a word. -/
def insert (set : WordSet) (word : String) : WordSet :=
  ⟨insertInto word set.toList, sorted_insertInto set.sorted⟩

/-- Adds the words of a list. -/
def insertAll (set : WordSet) (words : List String) : WordSet :=
  words.foldl insert set

/-- The words of a list as a set. -/
def ofList (words : List String) : WordSet := empty.insertAll words

instance : Membership String WordSet where
  mem set word := word ∈ set.toList

instance (word : String) (set : WordSet) : Decidable (word ∈ set) :=
  inferInstanceAs (Decidable (word ∈ set.toList))

/-- How many words a set has. -/
def size (set : WordSet) : Nat := set.toList.length

theorem mem_insert {set : WordSet} {word other : String} :
    other ∈ set.insert word ↔ other = word ∨ other ∈ set :=
  mem_insertInto

theorem mem_insertAll {set : WordSet} {words : List String} {word : String} :
    word ∈ set.insertAll words ↔ word ∈ words ∨ word ∈ set := by
  induction words generalizing set with
  | nil => simp [insertAll]
  | cons head rest ih =>
      have step : set.insertAll (head :: rest) = (set.insert head).insertAll rest := rfl
      rw [step, ih, mem_insert, List.mem_cons]
      constructor
      · rintro (member | equal | member)
        · exact .inl (.inr member)
        · exact .inl (.inl equal)
        · exact .inr member
      · rintro ((equal | member) | member)
        · exact .inr (.inl equal)
        · exact .inl member
        · exact .inr (.inr member)

/-- The set of a list has the words of the list. -/
theorem mem_ofList {words : List String} {word : String} :
    word ∈ ofList words ↔ word ∈ words := by
  have absent : ¬ word ∈ empty := List.not_mem_nil
  simp [ofList, mem_insertAll, absent]

end WordSet

end Interlock
