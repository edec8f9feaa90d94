/-!
# Text of a file

A source file is read as UTF-8, and one byte order mark at its start is not part of the text.  Bytes
that are not UTF-8 are read as Latin-1, where each byte is a character, so every file has a text.
-/

namespace Interlock.Text

/-- The byte order mark. -/
def byteOrderMark : Char := '\ufeff'

/-- A text without one byte order mark at its start. -/
def withoutMark (text : String) : String :=
  match text.toList with
  | c :: rest => if c = byteOrderMark then String.ofList rest else text
  | [] => text

/-- The text in which each byte is the character with its code. -/
def latin1 (bytes : ByteArray) : String :=
  String.ofList (bytes.toList.map fun byte => Char.ofNat byte.toNat)

/-- The text of a file's bytes. -/
def decode (bytes : ByteArray) : String :=
  match String.fromUTF8? bytes with
  | some text => withoutMark text
  | none => latin1 bytes

end Interlock.Text
