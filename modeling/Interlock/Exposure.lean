import Interlock.Text.Quoted
import Interlock.Tree

/-!
# How a function is exposed

The recovery rule looks at three things about a function: its visibility, its mutability and the
names of its modifiers.  They are words here, since a policy may list any word.
-/

namespace Interlock

/-- The words that decide whether a function needs a guard. -/
structure Exposure where
  visibility : String
  mutability : String
  modifiers : List String
  deriving DecidableEq, Repr

/-- A one-line summary of a function with this exposure. -/
def Exposure.display (exposure : Exposure) (label : String) : String :=
  "Function(" ++ label ++ ", " ++ exposure.visibility ++ ", " ++ exposure.mutability ++ ", " ++
    Text.quotedList exposure.modifiers ++ ")"

/-- The exposure of a function in a tree. -/
def Tree.Function.exposure (function : Tree.Function) : Exposure :=
  ⟨function.visibility.word, function.mutability.word, function.modifierNames⟩

end Interlock
