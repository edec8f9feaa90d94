import Interlock.Text.Quoted

/-!
# JSON text

Values with integers as their only numbers, and two ways to write them.  `Json.line` writes a
value on one line and escapes only what a string must not hold; `Json.indented` writes one
item a line and keeps to printable ASCII. A literal brace is written by its code in this module.
-/

namespace Interlock

/-- A JSON value.  An object keeps the order of its fields. -/
inductive Json where
  | null
  | bool (value : Bool)
  | int (value : Int)
  | string (value : String)
  | array (items : List Json)
  | object (fields : List (String × Json))
  deriving Repr, Inhabited

namespace Json

/-- The escape of a code unit. -/
def unitEscape (unit : Nat) : String := "\\u" ++ Text.hex 4 unit

/-- A character inside a string. -/
def stringChar (c : Char) : String :=
  if c = '"' then "\\\""
  else if c = '\\' then "\\\\"
  else if c = '\n' then "\\n"
  else if c = '\r' then "\\r"
  else if c = '\t' then "\\t"
  else if c = '\x08' then "\\b"
  else if c = '\x0c' then "\\f"
  else if c.toNat < 0x20 then unitEscape c.toNat
  else c.toString

/-- A character inside a string that keeps to printable ASCII: beyond it, each UTF-16 unit is
escaped. -/
def asciiChar (c : Char) : String :=
  let code := c.toNat
  if code < 0x7f then stringChar c
  else if code < 0x10000 then unitEscape code
  else
    let offset := code - 0x10000
    unitEscape (0xd800 + offset / 0x400) ++ unitEscape (0xdc00 + offset % 0x400)

/-- A string in quotation marks, each character written by `char`. -/
def quote (char : Char → String) (text : String) : String :=
  "\"" ++ String.join (text.toList.map char) ++ "\""

/-- A value without parts, or an empty list or object. -/
def atom (char : Char → String) : Json → String
  | null => "null"
  | bool value => if value then "true" else "false"
  | int value => toString value
  | string value => quote char value
  | array _ => "[]"
  | object _ => "\x7b\x7d"

mutual

/-- A value on one line. -/
def line : Json → String
  | array items => "[" ++ lineItems items ++ "]"
  | object fields => "\x7b" ++ lineFields fields ++ "\x7d"
  | value => atom stringChar value

/-- The items of a list on one line. -/
def lineItems : List Json → String
  | [] => ""
  | [item] => line item
  | item :: next :: rest => line item ++ ", " ++ lineItems (next :: rest)

/-- The fields of an object on one line. -/
def lineFields : List (String × Json) → String
  | [] => ""
  | [(name, value)] => quote stringChar name ++ ": " ++ line value
  | (name, value) :: next :: rest =>
      quote stringChar name ++ ": " ++ line value ++ ", " ++ lineFields (next :: rest)

end

/-- A line break and the indentation of a nesting depth. -/
def newLine (depth : Nat) : String :=
  "\n" ++ String.ofList (List.replicate (2 * depth) ' ')

mutual

/-- A value over several lines at a nesting depth. -/
def indentedAt (depth : Nat) : Json → String
  | array (item :: rest) =>
      "[" ++ indentedItems (depth + 1) (item :: rest) ++ newLine depth ++ "]"
  | object (field :: rest) =>
      "\x7b" ++ indentedFields (depth + 1) (field :: rest) ++ newLine depth ++ "\x7d"
  | value => atom asciiChar value

/-- The items of a list, one a line. -/
def indentedItems (depth : Nat) : List Json → String
  | [] => ""
  | [item] => newLine depth ++ indentedAt depth item
  | item :: next :: rest =>
      newLine depth ++ indentedAt depth item ++ "," ++ indentedItems depth (next :: rest)

/-- The fields of an object, one a line. -/
def indentedFields (depth : Nat) : List (String × Json) → String
  | [] => ""
  | [(name, value)] =>
      newLine depth ++ quote asciiChar name ++ ": " ++ indentedAt depth value
  | (name, value) :: next :: rest =>
      newLine depth ++ quote asciiChar name ++ ": " ++ indentedAt depth value ++ "," ++
        indentedFields depth (next :: rest)

end

/-- A value with its parts indented by two spaces a level, in ASCII. -/
def indented (value : Json) : String := indentedAt 0 value

/-- A string, or null. -/
def ofOption : Option String → Json
  | some text => string text
  | none => null

/-- A list of strings. -/
def strings (texts : List String) : Json := array (texts.map string)

/-- The text of a string. -/
def text? : Json → Option String
  | string text => some text
  | _ => none

/-- The texts of a list of strings. -/
def texts? : Json → Option (List String)
  | array items => items.mapM text?
  | _ => none

end Json

end Interlock
