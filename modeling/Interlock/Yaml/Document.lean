import Interlock.Yaml.Node.Merge
import Interlock.Yaml.Scalar

/-!
# Values of documents

Every node has a value under its tag.  Of two entries with the same key the last one counts.  A
document may hold several faults; they are looked for level by level, so that a fault is met before
those in the lists and mappings beside it.  The first one counts.
-/

namespace Interlock.Yaml

namespace Node

/-- The text that a node stands for where a scalar is wanted: its own, or that of its value key. -/
def scalarText : Node → Option String
  | scalar _ text => some text
  | mapping _ entries => entryText entries
  | _ => none
where
  /-- The text under the first value key. -/
  entryText : List (Node × Node) → Option String
    | [] => none
    | (key, value) :: rest => if key.tag = .value then scalarText value else entryText rest

/-- The value of a node whose tag is one of scalars. -/
def scalarData (node : Node) : Except Fault Data :=
  match scalarText node with
  | some text => scalarValue node.tag text
  | none => .error .malformed

mutual

/-- The value of a node, for a node without faults. -/
def value : Node → Data
  | scalar tag text => (scalarValue tag text).toOption.getD .null
  | sequence tag items =>
      match tag with
      | .orderedMap | .pairs => .list (items.map fun _ => .list [])
      | _ => .list (values items)
  | mapping tag entries =>
      match tag with
      | .mapping => .mapping (dataEntries [] entries)
      | .set => .set ((dataEntries [] entries).map (·.1))
      | _ => (scalarData (mapping tag entries)).toOption.getD .null
  | enclosing tag =>
      match tag with
      | .mapping => .mapping []
      | .set => .set []
      | _ => .list []

/-- The values of the items of a list. -/
def values : List Node → List Data
  | [] => []
  | item :: rest => value item :: values rest

/-- The entries of a mapping behind those read so far. -/
def dataEntries (seen : List (Data × Data)) : List (Node × Node) → List (Data × Data)
  | [] => seen
  | (key, item) :: rest => dataEntries (Data.setEntry (value key) (value item) seen) rest

end

/-- Two lists of levels, level by level one behind the other. -/
def beside {α : Type} : List (List α) → List (List α) → List (List α)
  | [], levels => levels
  | levels, [] => levels
  | left :: above, right :: below => (left ++ right) :: beside above below

/-- The fault of a scalar, on the level of the scalar. -/
def resultFaults (result : Except Fault Data) : List (List Fault) :=
  match result with
  | .ok _ => []
  | .error fault => [[fault]]

/-- Whether a node is a list, a set or a mapping, which is no key. -/
def isCollection : Node → Bool
  | scalar _ _ => false
  | sequence tag _ | mapping tag _ | enclosing tag =>
      [.sequence, .mapping, .set, .orderedMap, .pairs].contains tag

mutual

/-- The faults of a node by level, its own level first.  What is wrong with the parts of a list or
mapping, or with its kind, is on the level of the parts. -/
def faults : Node → List (List Fault)
  | scalar tag text => resultFaults (scalarValue tag text)
  | enclosing _ => []
  | sequence tag items =>
      match tag with
      | .sequence => [] :: itemFaults items
      | .orderedMap | .pairs => [] :: pairFaults items
      | .mapping | .set => [[], [.malformed]]
      | _ => [[.malformed]]
  | mapping tag entries =>
      match tag with
      | .mapping | .set => [] :: entryFaults entries
      | .sequence | .orderedMap | .pairs => [[], [.malformed]]
      | _ => resultFaults (scalarData (mapping tag entries))

/-- The faults of items. -/
def itemFaults : List Node → List (List Fault)
  | [] => []
  | item :: rest => beside (faults item) (itemFaults rest)

/-- The faults of entries: of each key, then of its value. -/
def entryFaults : List (Node × Node) → List (List Fault)
  | [] => []
  | (key, item) :: rest =>
      let keyFaults := if key.isCollection then [[.malformed]] else faults key
      beside keyFaults (beside (faults item) (entryFaults rest))

/-- The faults of items that are to be mappings of one entry. -/
def pairFaults : List Node → List (List Fault)
  | [] => []
  | mapping _ [(key, item)] :: rest =>
      beside (faults key) (beside (faults item) (pairFaults rest))
  | _ => [[.malformed]]

end

end Node

/-- The value of a YAML text: null if there is no document in it. -/
def read (text : String) : Except Fault Data := do
  match ← Node.ofText text with
  | none => return .null
  | some node =>
      let node := node.merged
      match node.faults.flatten with
      | fault :: _ => throw fault
      | [] => return node.value

end Interlock.Yaml
