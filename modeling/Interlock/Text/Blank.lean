import Interlock.Text.Fields

/-!
# White space

The Unicode white space characters, and the words of a text once they are cut off.
-/

namespace Interlock.Text

/-- Whether a character is Unicode white space, the separators U+001C to U+001F included. -/
def isBlank (c : Char) : Bool :=
  let n := c.toNat
  (0x09 ≤ n && n ≤ 0x0d) || (0x1c ≤ n && n ≤ 0x20) || n == 0x85 || n == 0xa0 ||
    n == 0x1680 || (0x2000 ≤ n && n ≤ 0x200a) || n == 0x2028 || n == 0x2029 ||
    n == 0x202f || n == 0x205f || n == 0x3000

/-- A text without the white space at its two ends. -/
def trim (text : String) : String :=
  String.ofList
    ((text.toList.dropWhile isBlank).reverse.dropWhile isBlank).reverse

/-- The non-empty items of a comma-separated list, each trimmed. -/
def commaItems (text : String) : List String :=
  ((fields ',' text).map trim).filter (· ≠ "")

end Interlock.Text
