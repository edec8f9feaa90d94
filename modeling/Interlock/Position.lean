/-!
# Positions in a source text

Lines and columns are counted from one, in characters.  Only a line feed starts a new line.
-/

namespace Interlock

/-- A line and a column.  Reported positions may be any integers, so both are. -/
structure Position where
  line : Int
  column : Int
  deriving DecidableEq, Repr, Inhabited

namespace Position

/-- Where a text begins. -/
def start : Position := ⟨1, 1⟩

/-- The place of what no token marks. -/
def none : Position := ⟨0, 0⟩

/-- The position behind one character. -/
def after (position : Position) (c : Char) : Position :=
  if c = '\n' then ⟨position.line + 1, 1⟩ else ⟨position.line, position.column + 1⟩

/-- The position behind a run of characters. -/
def past (position : Position) (text : List Char) : Position :=
  text.foldl after position

theorem past_nil (position : Position) : position.past [] = position := rfl

theorem past_cons (position : Position) (c : Char) (text : List Char) :
    position.past (c :: text) = (position.after c).past text := rfl

theorem past_append (position : Position) (first second : List Char) :
    position.past (first ++ second) = (position.past first).past second := by
  simp [past]

end Position

end Interlock
