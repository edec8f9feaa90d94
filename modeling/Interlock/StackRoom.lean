/-!
# Room on the stack

Two recursions go as deep as their input does: blocks are read inside blocks, and directories are
walked inside directories.  How deep the interpreter's stack lets them go depends on its limit and
on the calls around them, so it is a parameter of everything that reads a source or walks a tree.
-/

namespace Interlock

/-- How many levels the stack has room for. -/
class StackRoom where
  /-- Blocks that may be open inside the body of a member of a contract. -/
  member : Nat
  /-- Blocks that may be open inside the body of a function outside of contracts. -/
  free : Nat
  /-- Directories that may be open at once while a tree is walked. -/
  directories : Nat

namespace StackRoom

/-- The room where one call fewer stands around. -/
@[reducible] def outer [room : StackRoom] : StackRoom :=
  ⟨room.member + 1, room.free + 1, room.directories + 1⟩

/-- The room that the usual limit of a thousand calls leaves.  Three calls fewer stand around a
function outside of contracts. -/
scoped instance usual : StackRoom := ⟨980, 983, 980⟩

end StackRoom

end Interlock
