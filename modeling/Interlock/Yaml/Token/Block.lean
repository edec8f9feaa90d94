import Interlock.Yaml.Character
import Interlock.Yaml.Fault

/-!
# Block scalars

A block scalar is the indented lines below its header.  A literal one keeps its line breaks, a
folded one joins lines that begin at the indentation.  The header may say how deep the lines are
indented and what becomes of the line breaks at the end; without it, the deepest blank line or the
first line with a text decides the indentation, and one line break is kept.
-/

namespace Interlock.Yaml.Block

/-- What becomes of the line breaks at the end of a block scalar. -/
inductive Ending where
  | strip
  | one
  | all
  deriving DecidableEq, Repr

/-- What the header of a block scalar says. -/
structure Header where
  ending : Ending := .one
  depth : Option Nat := none
  deriving DecidableEq, Repr

/-- The ending that a mark asks for. -/
def ending? : Char → Option Ending
  | '+' => some .all
  | '-' => some .strip
  | _ => none

/-- Reads a header behind its first mark, with the rest of its line. -/
def header (text : List Char) : Except Fault (Header × List Char) := do
  let ending (text : List Char) : Option Ending := text.head?.bind ending?
  let depth (text : List Char) : Option Nat :=
    (text.head?.filter Char.isDigit).map fun c => c.toNat - '0'.toNat
  let (header, rest) : Header × List Char :=
    match ending text, depth text with
    | some mark, _ =>
        match depth text.tail with
        | some number => (⟨mark, some number⟩, text.drop 2)
        | none => (⟨mark, none⟩, text.tail)
    | none, some number =>
        match ending text.tail with
        | some mark => (⟨mark, some number⟩, text.drop 2)
        | none => (⟨.one, some number⟩, text.tail)
    | none, none => ({}, text)
  if header.depth = some 0 || !startsBlank rest then throw .malformed
  match pastLine? rest with
  | some rest => return (header, rest)
  | none => throw .malformed

/-- The blank lines at a place, with the blanks of the line behind them: the line breaks, the
deepest column reached, the column at the end, and what follows. -/
def blankLines (seen : List Char) (deepest column : Nat) :
    List Char → List Char × Nat × Nat × List Char
  | [] => (seen.reverse, deepest, column, [])
  | c :: rest =>
      if c = ' ' then blankLines seen (max deepest (column + 1)) (column + 1) rest
      else if isBreak c then blankLines (keptBreak c :: seen) deepest 0 rest
      else (seen.reverse, deepest, column, c :: rest)

/-- The blank lines at a place when the indentation is known: blanks deeper than it are text.  The
answer is the line breaks, the column at the end, and what follows. -/
def indentedLines (indent : Nat) (seen : List Char) (column : Nat) :
    List Char → List Char × Nat × List Char
  | [] => (seen.reverse, column, [])
  | c :: rest =>
      if c = ' ' && column < indent then indentedLines indent seen (column + 1) rest
      else if isBreak c then indentedLines indent (keptBreak c :: seen) 0 rest
      else (seen.reverse, column, c :: rest)

/-- The text of a block scalar so far, last character first, with the line break behind it, the
breaks of blank lines behind that one, and what follows. -/
structure Content where
  written : List Char
  lineBreak : List Char
  breaks : List Char
  rest : List Char
  deriving DecidableEq, Repr

/-- The lines of a block scalar from the start of a text at its indentation on. -/
def lines (fold : Bool) (indent : Nat) : Nat → Content → Content
  | 0, content => content
  | fuel + 1, content =>
      let line := content.rest.takeWhile (!isBreak ·)
      let written := line.reverse ++ content.breaks.reverse ++ content.written
      match content.rest.drop line.length with
      | [] => ⟨written, [], [], []⟩
      | c :: rest =>
          let (breaks, column, left) := indentedLines indent [] 0 rest
          let kept := keptBreak c
          if column = indent && left ≠ [] then
            let joins := fold && kept = '\n' && !line.head?.any isBlank && !left.head?.any isBlank
            let between : List Char :=
              if joins then (if breaks = [] then [' '] else []) else [kept]
            lines fold indent fuel ⟨between ++ written, [kept], breaks, left⟩
          else ⟨written, [kept], breaks, left⟩

/-- Reads a block scalar behind its first mark, inside a block at an indentation; `fold` says
whether lines are joined.  The answer is its text and what follows. -/
def read (fold : Bool) (indent : Int) (text : List Char) :
    Except Fault (List Char × List Char) := do
  let (header, text) ← header text
  let least := (max (indent + 1) 1).toNat
  let (breaks, column, depth, rest) :=
    match header.depth with
    | none =>
        let (breaks, deepest, column, rest) := blankLines [] 0 0 text
        (breaks, column, max least deepest, rest)
    | some number =>
        let depth := least + number - 1
        let (breaks, column, rest) := indentedLines depth [] 0 text
        (breaks, column, depth, rest)
  let content : Content := ⟨[], [], breaks, rest⟩
  let content :=
    if column = depth && rest ≠ [] then lines fold depth (rest.length + 1) content else content
  let ended :=
    match header.ending with
    | .strip => []
    | .one => content.lineBreak
    | .all => content.lineBreak ++ content.breaks
  return (content.written.reverse ++ ended, content.rest)

end Interlock.Yaml.Block
