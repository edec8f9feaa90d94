import Interlock.Text.Fields
import Interlock.Yaml.Token
import Interlock.Yaml.Token.Quoted

/-!
# Anchors, tags and directives

The names of nodes, the tags that say what they are, and the lines in front of a document.  Each
reader answers a token and what follows it.
-/

namespace Interlock.Yaml.Property

/-- A character of a name. -/
def isNameChar (c : Char) : Bool := c.isAlphanum || c = '-' || c = '_'

/-- A name and what follows it; a name has at least one character. -/
def name (text : List Char) : Except Fault (String × List Char) :=
  match text.takeWhile isNameChar with
  | [] => .error .malformed
  | found => .ok (String.ofList found, text.drop found.length)

/-- The name of an anchor or an alias behind its mark. -/
def anchorName (text : List Char) : Except Fault (String × List Char) := do
  let (found, rest) ← name text
  let ends (c : Char) : Bool := isGap c || "?:,]%@`".toList.contains c || c = '\x7d'
  if rest.head?.all ends then return (found, rest) else throw .malformed

/-- A character that stands for itself in a tag. -/
def isTagChar (c : Char) : Bool :=
  c.isAlphanum || "-;/?:@&=+$,_.!~*'()[]".toList.contains c

/-- The bytes of the percent escapes at the front, last first, and what follows them. -/
def escapedBytes (seen : List UInt8) : List Char → Except Fault (List UInt8 × List Char)
  | '%' :: high :: low :: rest =>
      if Quoted.isHexDigit high && Quoted.isHexDigit low then
        escapedBytes ((Text.digitsValue 16 [high, low]).toUInt8 :: seen) rest
      else .error .malformed
  | '%' :: _ => .error .malformed
  | text => .ok (seen, text)

/-- The text of a tag and what follows it.  Percent escapes are bytes of characters. -/
def tagTextFrom : Nat → List Char → List Char → Except Fault (List Char × List Char)
  | 0, seen, text => .ok (seen, text)
  | fuel + 1, seen, text =>
      match text with
      | '%' :: _ => do
          let (bytes, rest) ← escapedBytes [] text
          match String.fromUTF8? ⟨bytes.reverse.toArray⟩ with
          | some chars => tagTextFrom fuel (seen ++ chars.toList) rest
          | none => throw .malformed
      | _ =>
          match text.takeWhile isTagChar with
          | [] => .ok (seen, text)
          | found => tagTextFrom fuel (seen ++ found) (text.drop found.length)

/-- The text of a tag, which is not empty, and what follows it. -/
def tagText (text : List Char) : Except Fault (String × List Char) := do
  let (found, rest) ← tagTextFrom (text.length + 1) [] text
  if rest.length = text.length then throw .malformed
  return (String.ofList found, rest)

/-- The handle of a tag: a mark, or a name between two marks that may be empty. -/
def handle (text : List Char) : Except Fault (String × List Char) :=
  match text with
  | '!' :: ' ' :: rest => .ok ("!", ' ' :: rest)
  | '!' :: rest =>
      let found := rest.takeWhile isNameChar
      match rest.drop found.length with
      | '!' :: left => .ok ("!" ++ String.ofList found ++ "!", left)
      | _ => .error .malformed
  | _ => .error .malformed

/-- Reads a tag: a verbatim one in angle brackets, a mark alone, or a text behind a handle. -/
def tag (text : List Char) : Except Fault (Token × List Char) := do
  let (token, rest) ← match text with
    | '!' :: '<' :: verbatim => do
        let (found, rest) ← tagText verbatim
        match rest with
        | '>' :: left => pure (Token.tag none found, left)
        | _ => throw .malformed
    | '!' :: rest =>
        if startsGap rest then pure (Token.tag none "!", rest)
        else do
          let word := rest.takeWhile fun c => !(c = ' ' || isBreak c)
          let (start, left) ←
            if word.contains '!' then handle text else pure ("!", rest)
          let (found, left) ← tagText left
          pure (Token.tag (some start) found, left)
    | _ => throw .malformed
  if startsBlank rest then return (token, rest) else throw .malformed

/-- A number and what follows it. -/
def number (text : List Char) : Except Fault (Nat × List Char) :=
  match text.takeWhile Char.isDigit with
  | [] => .error .malformed
  | digits =>
      if Fault.digitLimit < digits.length then .error (.tooManyDigits digits.length)
      else .ok (Text.digitsValue 10 digits, text.drop digits.length)

/-- Reads what follows the name of a directive, up to the end of its line. -/
def directiveValue (found : String) (text : List Char) :
    Except Fault (Directive × List Char) :=
  match found with
  | "YAML" => do
      let (major, rest) ← number (pastBlanks text)
      match rest with
      | '.' :: rest =>
          let (_, rest) ← number rest
          if startsBlank rest then return (.version major, rest) else throw .malformed
      | _ => throw .malformed
  | "TAG" => do
      let (start, rest) ← handle (pastBlanks text)
      if rest.head? ≠ some ' ' then throw .malformed
      let (meaning, rest) ← tagText (pastBlanks rest)
      if startsBlank rest then return (.handle start meaning, rest) else throw .malformed
  | _ => .ok (.other, text.dropWhile (!isBreak ·))

/-- Reads a directive behind its mark, with the rest of its line. -/
def directive (text : List Char) : Except Fault (Token × List Char) := do
  let (found, rest) ← name text
  if !startsBlank rest then throw .malformed
  let (value, rest) ← directiveValue found rest
  match pastLine? rest with
  | some rest => return (.directive value, rest)
  | none => throw .malformed

end Interlock.Yaml.Property
