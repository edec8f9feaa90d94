import Interlock.CommandLine
import Interlock.Yaml.Library

/-!
# The program

The program copies what a request reads from the disk into a file system, answers the command line
there and prints the outcome.  A directory that is asked for is copied with all that is below it;
a link is copied as a link to the place it leads to, and that place is copied too.
-/

namespace Interlock.Disk

/-- The text of a place. -/
def placeText (place : List String) : String := "/" ++ "/".intercalate place

/-- Copies what is at a place, if anything is.  Below a directory only what is asked for is
copied. -/
partial def copy (deep : Bool) (place : List String) (system : FileSystem) : IO FileSystem := do
  match ← (IO.FS.realPath (placeText place)).toBaseIO with
  | .error _ => return system
  | .ok target =>
      let found := (Path.parse target.toString).parts
      if found ≠ place then
        copy deep found (system.put place (.link target.toString))
      else if ← target.isDir then
        let seen := (system.root.descend? place).isSome
        let mut system := if seen then system else system.put place (.directory [])
        if deep then
          for entry in ← target.readDir do
            let inner := place ++ [entry.fileName]
            if (system.root.descend? inner).isNone then
              system ← copy true inner system
        return system
      else
        return system.put place (.file (← IO.FS.readBinFile target))

/-- Copies what is on the way along some names and what is at their end. -/
def copyAlong (names : List String) (start : List String) (system : FileSystem) :
    IO FileSystem := do
  let mut system := system
  let mut here := start
  for name in names do
    if name = ".." then here := here.dropLast
    else
      here := here ++ [name]
      system ← copy false here system
      if let .ok target ← (IO.FS.realPath (placeText here)).toBaseIO then
        here := (Path.parse target.toString).parts
  copy true here system

/-- The file system that a request reads. -/
def load (workingDirectory : List String) (paths : List String) : IO FileSystem := do
  let mut system : FileSystem := ⟨.directory [], workingDirectory⟩
  system ← copy false workingDirectory system
  for path in paths.map Path.parse do
    let start := if path.slashes = 0 then workingDirectory else []
    system ← copyAlong path.parts start system
  return system

end Interlock.Disk

open Interlock StackRoom in
/-- Answers the command line. -/
def main (texts : List String) : IO UInt32 := do
  let environment ← IO.getEnv "RECOVERY_GUARD_CONFIG"
  let directory := (Path.parse (← IO.currentDir).toString).parts
  let paths :=
    match CommandLine.Request.ofTexts texts with
    | .ok request => request.paths environment
    | .error _ => []
  let system ← Disk.load directory paths
  let outcome := CommandLine.run Yaml.library .unicode system environment texts
  IO.print outcome.output
  IO.eprint outcome.errors
  return outcome.status.toUInt32
