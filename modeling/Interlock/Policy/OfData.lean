import Interlock.Data
import Interlock.Failure
import Interlock.Policy

/-!
# Policies from data

A policy document is a mapping.  Its known keys replace the standard policy's fields, except that
`extra_excluded_paths` adds to the excluded paths.  Of several faults the first one in this order
counts: unknown keys, the extension, then the lists in the order of `listKeys`, the additional
paths last.
-/

namespace Interlock.Policy

/-- The keys that hold lists and replace a field. -/
def listKeys : List String :=
  ["excluded_paths", "guard_modifiers", "read_only_mutability", "exempt_visibility"]

/-- The key of the extension. -/
def extensionKey : String := "source_ext"

/-- The key of the additional excluded paths. -/
def additionKey : String := "extra_excluded_paths"

/-- Every known key. -/
def knownKeys : List String := extensionKey :: additionKey :: listKeys

/-- Whether a key is a known one. -/
def isKnown (key : Data) : Bool := key.string?.any (knownKeys.contains ·)

/-- Whether a key that is no text comes before another one.  Numbers are in order, and so are dates,
times and bytes each among themselves; other keys cannot be put in order. -/
def isBefore (left right : Data) : Except Failure Bool :=
  match left, right with
  | .date left, .date right => .ok (left.number < right.number)
  | .timestamp left, .timestamp right =>
      if left.comparable right then .ok (left.instant < right.instant)
      else .error (.keysNotComparable .zones)
  | .date _, .timestamp _ | .timestamp _, .date _ => .error (.keysNotComparable .dateAndTime)
  | .bytes left, .bytes right => .ok (left < right)
  | _, _ =>
      match left.amount?, right.amount? with
      | some left, some right => .ok (left.compare? right = some .lt)
      | _, _ => .error (.keysNotComparable (.types left.fullTypeName right.fullTypeName))

/-- The first of some keys in their order. -/
def leastKey (first : Data) (others : List Data) : Except Failure Data :=
  others.foldlM (fun least key => do return if ← isBefore key least then key else least) first

/-- The keys of a mapping that are not known, or the failure to list them: a key that is no text
can neither be listed nor be compared with one. -/
def unknownKeys (entries : List (Data × Data)) : Except Failure (List String) :=
  let unknown := (entries.map (·.1)).filter (!isKnown ·)
  let texts := unknown.filterMap (·.string?)
  match unknown.filter (·.string?.isNone), texts with
  | [], texts => .ok (WordSet.ofList texts).toList
  | other :: _, _ :: _ => .error (.keysNotComparable (.types "str" other.fullTypeName))
  | other :: others, [] => do
      let least ← leastKey other others
      throw (.keyNotText least.fullTypeName)

/-- The words of a list of strings. -/
def words? : Data → Option (List String)
  | .list items => items.mapM (·.string?)
  | _ => none

/-- The set under a key, or the standard one where the key is absent. -/
def setOr (source key : String) (entries : List (Data × Data)) (standard : WordSet) :
    Except Failure WordSet :=
  match Data.entry? key entries with
  | none => .ok standard
  | some value =>
      match words? value with
      | some words => .ok (.ofList words)
      | none => .error (.policy source (.badList key))

/-- The extension under its key, or the standard one. -/
def extensionOr (source : String) (entries : List (Data × Data)) (standard : String) :
    Except Failure String :=
  match Data.entry? extensionKey entries with
  | none => .ok standard
  | some (.string "") => .error (.policy source .badExtension)
  | some (.string value) => .ok value
  | some _ => .error (.policy source .badExtension)

/-- The policy that a mapping describes; `source` is named in failures. -/
def ofData (source : String) (entries : List (Data × Data)) : Except Failure Policy := do
  let unknown ← unknownKeys entries
  if unknown ≠ [] then throw (.policy source (.unknownKeys unknown))
  let sourceExtension ← extensionOr source entries standard.sourceExtension
  let set (key : String) (standard : WordSet) := setOr source key entries standard
  let excludedPaths ← set "excluded_paths" standard.excludedPaths
  let guardModifiers ← set "guard_modifiers" standard.guardModifiers
  let readOnlyMutability ← set "read_only_mutability" standard.readOnlyMutability
  let exemptVisibility ← set "exempt_visibility" standard.exemptVisibility
  let additions ← set additionKey .empty
  let policy : Policy :=
    ⟨sourceExtension, excludedPaths, guardModifiers, readOnlyMutability, exemptVisibility⟩
  return policy.withExclusions additions.toList

end Interlock.Policy
