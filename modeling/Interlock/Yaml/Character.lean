/-!
# Characters of a YAML text

Which characters a text may hold, which of them end a line, and how a line break inside a scalar is
kept.
-/

namespace Interlock.Yaml

/-- A character that may stand in a YAML text. -/
def isAllowed (c : Char) : Bool :=
  let code := c.toNat
  code = 0x09 || code = 0x0a || code = 0x0d || (0x20 ≤ code && code ≤ 0x7e) || code = 0x85 ||
    (0xa0 ≤ code && code ≤ 0xfffd) || 0x10000 ≤ code

/-- A line break. -/
def isBreak (c : Char) : Bool := c = '\n' || c = '\x85' || c = '\u2028' || c = '\u2029'

/-- A blank or a tab. -/
def isBlank (c : Char) : Bool := c = ' ' || c = '\t'

/-- A blank, a tab or a line break. -/
def isGap (c : Char) : Bool := isBlank c || isBreak c

/-- Whether a text is at its end or begins with a gap. -/
def startsGap (text : List Char) : Bool := text.head?.all isGap

/-- Whether a text is at its end or begins with a blank or a line break, not a tab. -/
def startsBlank (text : List Char) : Bool := text.head?.all fun c => c = ' ' || isBreak c

/-- A line break as it is kept in a scalar. -/
def keptBreak (c : Char) : Char := if c = '\x85' then '\n' else c

/-- The line breaks of a folded gap: one alone is a blank. -/
def folded (first : Char) (others : List Char) : List Char :=
  if keptBreak first ≠ '\n' then keptBreak first :: others
  else if others.isEmpty then [' '] else others

/-- Whether a line begins with a mark that separates documents. -/
def atSeparator : List Char → Bool
  | '-' :: '-' :: '-' :: rest => startsGap rest
  | '.' :: '.' :: '.' :: rest => startsGap rest
  | _ => false

/-- What follows the blanks at the front. -/
def pastBlanks (text : List Char) : List Char := text.dropWhile (· = ' ')

/-- What follows a comment at the front, if there is one; the line break is left. -/
def pastComment : List Char → List Char
  | '#' :: rest => rest.dropWhile (!isBreak ·)
  | text => text

/-- What follows the rest of a line that holds nothing but blanks and perhaps a comment. -/
def pastLine? (text : List Char) : Option (List Char) :=
  match pastComment (pastBlanks text) with
  | [] => some []
  | c :: rest => if isBreak c then some rest else none

end Interlock.Yaml
