import Interlock.FileSystem
import Interlock.Text.Decode

/-!
# Source files

A source file is known by the key of its path, which reports and exclusion lists use, and by its
text.
-/

namespace Interlock

/-- A file that has been read: its key and its text. -/
structure SourceFile where
  key : String
  text : String
  deriving DecidableEq, Repr

namespace FileSystem

/-- Reads the file at a path. -/
def load (system : FileSystem) (text : String) : Except Failure SourceFile :=
  let path := Path.parse text
  if hasNull path then .error .embeddedNull
  else
    match system.content path with
    | .ok bytes => .ok ⟨system.key path.display, Text.decode bytes⟩
    | .error fault => .error (.unreadable path.display fault.words)

end FileSystem

end Interlock
