import Interlock.Json
import Interlock.Yaml.Tag

/-!
# Writing YAML

A document with one field a line, and the items of a list on lines of their own.  A string is
written without quotes where it reads back as the same string, between apostrophes where it is
printable ASCII, and between quotation marks with escapes otherwise.  Long strings are folded.
-/

namespace Interlock.Yaml

/-- The width that lines are folded to. -/
def lineWidth : Nat := 80

/-- How a string may be written. -/
inductive Style where
  | plain
  | single
  | double
  deriving DecidableEq, Repr

/-- White space, a line break or the end of the text. -/
def isBlankOrEnd : Option Char → Bool
  | none => true
  | some c =>
      c = ' ' || c = '\t' || c = '\r' || c = '\n' || c = '\x85' || c = '\u2028' || c = '\u2029'

/-- Whether a first character and its successor keep a text from being plain. -/
def isLeadingMark (c : Char) (next : Option Char) : Bool :=
  "#,[]&*!|>'\"%@`".toList.contains c || c = '\x7b' || c = '\x7d' ||
    (("?:-".toList.contains c) && isBlankOrEnd next)

/-- Whether a text holds a mark inside: a colon before a blank, or a hash behind one. -/
def hasInnerMark : List Char → Bool
  | [] => false
  | [_] => false
  | c :: next :: rest =>
      (next = ':' && isBlankOrEnd rest.head?) || (isBlankOrEnd (some c) && next = '#') ||
        hasInnerMark (next :: rest)

/-- Whether a blank stands directly before (`spaceFirst`) or behind a line break. -/
def hasBlankAtBreak (spaceFirst : Bool) : List Char → Bool
  | [] => false
  | [_] => false
  | c :: next :: rest =>
      (if spaceFirst then c = ' ' && next = '\n' else c = '\n' && next = ' ') ||
        hasBlankAtBreak spaceFirst (next :: rest)

/-- A character that needs no escape. -/
def isSimple (c : Char) : Bool := c = '\n' || (0x20 ≤ c.toNat && c.toNat ≤ 0x7e)

/-- Whether the characters of a text allow it to be plain. -/
def allowsPlain (text : List Char) : Bool :=
  match text with
  | [] => true
  | first :: rest =>
      !(isLeadingMark first rest.head? || hasInnerMark text || "---".toList.isPrefixOf text ||
        "...".toList.isPrefixOf text || first = ' ' || text.getLast? = some ' ' ||
        text.contains '\n')

/-- The style of a string. -/
def styleOf (text : String) : Style :=
  let chars := text.toList
  if !chars.all isSimple || hasBlankAtBreak true chars || hasBlankAtBreak false chars then .double
  else if Tag.ofPlain text = .string && allowsPlain chars then .plain
  else .single

/-- A text being written: what is written, last character first, and the column reached. -/
structure Sheet where
  written : List Char
  column : Nat
  deriving Repr

namespace Sheet

/-- Writes characters on the line. -/
def write (sheet : Sheet) (text : List Char) : Sheet :=
  ⟨text.reverse ++ sheet.written, sheet.column + text.length⟩

/-- Ends the line. -/
def breakLine (sheet : Sheet) : Sheet := ⟨'\n' :: sheet.written, 0⟩

/-- Goes to the indentation of a continuation line. -/
def indent (sheet : Sheet) : Sheet := sheet.write [' ', ' ']

end Sheet

/-- Writes the words of a plain string; a single blank behind the width folds the line. -/
def writePlain (sheet : Sheet) : List Char → Sheet
  | [] => sheet
  | ' ' :: ' ' :: rest =>
      let blanks := rest.takeWhile (· = ' ')
      writePlain (sheet.write (' ' :: ' ' :: blanks)) (rest.drop blanks.length)
  | ' ' :: rest =>
      if lineWidth < sheet.column then writePlain sheet.breakLine.indent rest
      else writePlain (sheet.write [' ']) rest
  | c :: rest => writePlain (sheet.write [c]) rest
termination_by text => text.length
decreasing_by
  all_goals simp only [List.length_cons, List.length_drop]; omega

/-- Writes a string between apostrophes, each of its own doubled.  A single blank behind the width
folds the line, unless it is at an end of the text; a line break is written twice. -/
def writeSingle (atStart : Bool) (sheet : Sheet) : List Char → Sheet
  | [] => sheet
  | ' ' :: ' ' :: rest =>
      let blanks := rest.takeWhile (· = ' ')
      writeSingle false (sheet.write (' ' :: ' ' :: blanks)) (rest.drop blanks.length)
  | ' ' :: rest =>
      if lineWidth < sheet.column && !atStart && rest ≠ [] then
        writeSingle false sheet.breakLine.indent rest
      else writeSingle false (sheet.write [' ']) rest
  | '\n' :: rest =>
      let breaks := rest.takeWhile (· = '\n')
      let ended := breaks.foldl (fun sheet _ => sheet.breakLine) sheet.breakLine.breakLine
      writeSingle false ended.indent (rest.drop breaks.length)
  | '\'' :: rest => writeSingle false (sheet.write ['\'', '\'']) rest
  | c :: rest => writeSingle false (sheet.write [c]) rest
termination_by text => text.length
decreasing_by
  all_goals simp only [List.length_cons, List.length_drop]; omega

/-- The short escapes. -/
def shortEscape? : Char → Option Char
  | '\x00' => some '0'
  | '\x07' => some 'a'
  | '\x08' => some 'b'
  | '\t' => some 't'
  | '\n' => some 'n'
  | '\x0b' => some 'v'
  | '\x0c' => some 'f'
  | '\r' => some 'r'
  | '\x1b' => some 'e'
  | '"' => some '"'
  | '\\' => some '\\'
  | '\x85' => some 'N'
  | '\xa0' => some '_'
  | '\u2028' => some 'L'
  | '\u2029' => some 'P'
  | _ => none

/-- The escape of a character, with capital digits. -/
def longEscape (c : Char) : List Char :=
  let digits (width : Nat) : List Char := (Text.hex width c.toNat).toList.map Char.toUpper
  if c.toNat ≤ 0xff then '\\' :: 'x' :: digits 2
  else if c.toNat ≤ 0xffff then '\\' :: 'u' :: digits 4
  else '\\' :: 'U' :: digits 8

/-- A character between quotation marks, if it has to be escaped. -/
def escape? (c : Char) : Option (List Char) :=
  match shortEscape? c with
  | some short => some ['\\', short]
  | none => if 0x20 ≤ c.toNat && c.toNat ≤ 0x7e then none else some (longEscape c)

/-- Writes a string between quotation marks; `pending` are characters not yet written, last first,
and `index` counts those before `c`.  Behind the width the line is folded at a blank or behind an
escape. -/
def writeDouble (size index : Nat) (pending : List Char) (sheet : Sheet) : List Char → Sheet
  | [] => sheet.write pending.reverse
  | c :: rest =>
      let escaped := escape? c
      let sheet := match escaped with
        | some escape => (sheet.write pending.reverse).write escape
        | none => sheet
      let pending := if escaped.isSome then [] else pending
      let reached := if escaped.isSome then sheet.column - 1 else sheet.column + pending.length
      if 0 < index && index + 1 < size && (c = ' ' || pending.isEmpty) && lineWidth < reached then
        let folded := (sheet.write (pending.reverse ++ ['\\'])).breakLine.indent
        let next := if escaped.isSome then rest.head? else some c
        let folded := if next = some ' ' then folded.write ['\\'] else folded
        writeDouble size (index + 1) (if escaped.isSome then [] else [c]) folded rest
      else writeDouble size (index + 1) (if escaped.isSome then [] else c :: pending) sheet rest

/-- A string behind a mark that ends at a column, with the blank between them. -/
def scalarAt (column : Nat) (text : String) : String :=
  let chars := text.toList
  let start : Sheet := ⟨[' '], column + 1⟩
  let sheet := match styleOf text with
    | .plain => writePlain start chars
    | .single => (writeSingle true (start.write ['\'']) chars).write ['\'']
    | .double => (writeDouble chars.length 0 [] (start.write ['"']) chars).write ['"']
  String.ofList sheet.written.reverse

/-- A field that holds a string. -/
def stringField (name value : String) : String :=
  name ++ ":" ++ scalarAt (name.length + 1) value ++ "\n"

/-- A field that holds a list of strings. -/
def listField (name : String) (items : List String) : String :=
  if items.isEmpty then name ++ ": []\n"
  else name ++ ":\n" ++ String.join (items.map fun item => "-" ++ scalarAt 1 item ++ "\n")

/-- A field that holds a value.  What is neither a string nor a list of strings is written as JSON,
which is YAML as well. -/
def field (name : String) (value : Json) : String :=
  match value, value.texts? with
  | .string text, _ => stringField name text
  | _, some texts => listField name texts
  | _, none => name ++ ": " ++ value.line ++ "\n"

/-- The document for a value. -/
def dump : Json → String
  | .object fields => String.join (fields.map fun (name, value) => field name value)
  | value => value.line ++ "\n"

end Interlock.Yaml
