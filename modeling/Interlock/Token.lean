import Interlock.Position
import Interlock.Text.Quoted

/-!
# Tokens of contract sources

A token has a kind, a text and the position of its first character.  Brackets come in three
shapes; their kind says the shape and whether the token opens or closes a group.
-/

namespace Interlock

/-- The three shapes of brackets. -/
inductive Bracket where
  | paren
  | square
  | brace
  deriving DecidableEq, Repr

namespace Bracket

/-- The character that opens a group. -/
def opener : Bracket → Char
  | paren => '('
  | square => '['
  | brace => '\x7b'

/-- The character that closes a group. -/
def closer : Bracket → Char
  | paren => ')'
  | square => ']'
  | brace => '\x7d'

end Bracket

namespace Token

/-- The kinds of tokens. -/
inductive Kind where
  | identifier
  | string
  | number
  | opening (shape : Bracket)
  | closing (shape : Bracket)
  | semicolon
  | comma
  | dot
  | operator
  | comment
  | endOfFile
  deriving DecidableEq, Repr

namespace Kind

/-- Every kind. -/
def all : List Kind :=
  [identifier, string, number, opening .brace, closing .brace, opening .paren, closing .paren,
   opening .square, closing .square, semicolon, comma, dot, operator, comment, endOfFile]

/-- The name of a kind in messages. -/
def label : Kind → String
  | identifier => "IDENTIFIER"
  | string => "STRING"
  | number => "NUMBER"
  | opening .brace => "LBRACE"
  | closing .brace => "RBRACE"
  | opening .paren => "LPAREN"
  | closing .paren => "RPAREN"
  | opening .square => "LBRACKET"
  | closing .square => "RBRACKET"
  | semicolon => "SEMICOLON"
  | comma => "COMMA"
  | dot => "DOT"
  | operator => "OPERATOR"
  | comment => "COMMENT"
  | endOfFile => "EOF"

/-- The kind with a given name. -/
def ofLabel? (label : String) : Option Kind :=
  all.find? fun kind => kind.label = label

end Kind

end Token

/-- A token: its kind, its text and where it begins. -/
structure Token where
  kind : Token.Kind
  text : String
  position : Position
  deriving DecidableEq, Repr

namespace Token

/-- A token as it is listed. -/
def display (token : Token) : String :=
  "Token(" ++ token.kind.label ++ ", " ++ Text.quoted token.text ++ ", L" ++
    toString token.position.line ++ ":" ++ toString token.position.column ++ ")"

/-- Whether a token is a given word. -/
def isWord (token : Token) (word : String) : Bool :=
  token.kind = .identifier && token.text = word

/-- Whether a token is an operator that needs an operand behind it. -/
def isDangling (token : Token) : Bool :=
  token.kind = .operator && !(["++", "--"].contains token.text)

/-- A token list without its comments. -/
def withoutComments (tokens : List Token) : List Token :=
  tokens.filter (·.kind ≠ .comment)

end Token

end Interlock
