import Interlock.FileSystem
import Interlock.Log

/-!
# Enumerating files

A directory is walked in the order of the names in it, links to directories included.  A directory
that is met again below itself is a loop and a failure; one that two links lead to is walked twice.
A walk holds the directories on its way open, and it fails when there is no room for one more.
-/

namespace Interlock.FileSystem

/-- The names in a directory, in increasing order. -/
def names (entry : Entry) : List String :=
  (entry.entries.map (·.1)).mergeSort fun left right => decide (left ≤ right)

/-- The files in and below a directory of the walk from `root`.  There is room for `room`
directories on the stack, and `above` are the places of the directories on the way here. -/
def filesBelow (system : FileSystem) (root : Path) :
    Nat → Path → List (List String) → Except Failure (List Path)
  | 0, _, _ => .error (.root root.display "directory tree too deep")
  | room + 1, directory, above =>
      match system.resolve directory with
      | .error fault => .error (.root directory.display fault.words)
      | .ok (place, entry) =>
          if above.contains place then .error (.root directory.display "symlink loop")
          else do
            let found ← (names entry).mapM fun name => do
              let path := directory.child name
              match ← system.inspect path with
              | some (.directory _) => filesBelow system root room path (place :: above)
              | some (.file _) => pure [path]
              | _ => pure []
            return found.flatten

/-- Every file in and below a directory; `room` directories may be open at once. -/
def walk (system : FileSystem) (room : Nat) (root : Path) : Except Failure (List Path) := do
  match ← system.inspect root with
  | none => throw (.root root.display "no such directory")
  | some (.directory _) => system.filesBelow root room root []
  | some _ => throw (.root root.display "not a directory")

end Interlock.FileSystem
