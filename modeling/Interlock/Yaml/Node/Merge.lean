import Interlock.Yaml.Node

/-!
# Merged mappings

A merge key brings the entries of another mapping, or of several, into the mapping it stands in.
They come in front of the mapping's own entries, which therefore win over them; of several mappings
the first one wins.  A merge key whose value is neither a mapping nor a list of mappings is a fault
of the mapping.  A value key counts as a string.
-/

namespace Interlock.Yaml.Node

/-- A node with another tag. -/
def withTag (tag : Tag) : Node → Node
  | scalar _ text => scalar tag text
  | sequence _ items => sequence tag items
  | mapping _ entries => mapping tag entries
  | enclosing _ => enclosing tag

/-- Entries that no mapping can have, in place of entries that cannot be merged. -/
def noEntries : List (Node × Node) := [(scalar .other "", scalar .other "")]

/-- The entries that merge keys bring, and a mapping's own ones. -/
structure Entries where
  brought : List (Node × Node)
  own : List (Node × Node)

/-- All entries, the mapping's own ones last. -/
def Entries.all (entries : Entries) : List (Node × Node) := entries.brought ++ entries.own

mutual

/-- A node with every mapping in it merged. -/
def merged : Node → Node
  | scalar tag text => scalar tag text
  | enclosing tag => enclosing tag
  | sequence tag items => sequence tag (mergedItems items)
  | mapping tag entries =>
      if tag = .mapping || tag = .set then
        mapping tag (((mergedEntries entries).map Entries.all).getD noEntries)
      else mapping tag entries

/-- The items of a list, each merged. -/
def mergedItems : List Node → List Node
  | [] => []
  | item :: rest => merged item :: mergedItems rest

/-- The entries of a mapping, merged. -/
def mergedEntries : List (Node × Node) → Option Entries
  | [] => some ⟨[], []⟩
  | (key, value) :: rest => do
      if key.tag = .merge then
        let found ← source value
        let others ← mergedEntries rest
        return { others with brought := found ++ others.brought }
      else
        let key := if key.tag = .value then key.withTag .string else merged key
        let value := merged value
        let others ← mergedEntries rest
        return { others with own := (key, value) :: others.own }

/-- The entries that the value of a merge key brings.  A mapping that is named inside itself brings
nothing. -/
def source : Node → Option (List (Node × Node))
  | mapping _ entries => (mergedEntries entries).map Entries.all
  | sequence _ items => sources items
  | enclosing _ => some []
  | scalar _ _ => none

/-- The entries that several mappings bring, those of the first one last. -/
def sources : List Node → Option (List (Node × Node))
  | [] => some []
  | mapping _ entries :: rest => do
      let found ← mergedEntries entries
      return (← sources rest) ++ found.all
  | enclosing _ :: rest => sources rest
  | _ :: _ => none

end

end Interlock.Yaml.Node
