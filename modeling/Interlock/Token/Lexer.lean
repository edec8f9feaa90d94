import Interlock.Text.Letter
import Interlock.Text.Numeral
import Interlock.Token

/-!
# From text to tokens

A source is a sequence of lexemes with gaps of white space between them.  `Lexeme.read` finds
the lexeme at the front of a text without regard to its position, and `Token.scan` places the
lexemes one after the other.  Text that begins no lexeme ends the scan with an error; the tokens
before it are kept.
-/

namespace Interlock

/-- What is wrong with the text at a position. -/
inductive LexProblem where
  | unterminatedString
  | unterminatedComment
  | unexpected (c : Char)
  | worded (message : String)
  deriving DecidableEq, Repr

/-- The wording of a problem. -/
def LexProblem.message : LexProblem → String
  | unterminatedString => "Unterminated string"
  | unterminatedComment => "Unterminated block comment"
  | unexpected c => "Unexpected character " ++ Text.quoted c.toString
  | worded message => message

/-- A text that cannot be split into tokens. -/
structure LexError where
  problem : LexProblem
  position : Position
  deriving DecidableEq, Repr

/-- The full wording of an error. -/
def LexError.message (error : LexError) : String :=
  "Lexer error at line " ++ toString error.position.line ++ ", column " ++
    toString error.position.column ++ ": " ++ error.problem.message

/-- A lexeme: the kind and text of its token, and how many characters it takes after its
first. -/
structure Lexeme where
  kind : Token.Kind
  text : List Char
  more : Nat
  deriving DecidableEq, Repr

namespace Lexeme

/-- White space between lexemes. -/
def isGap (c : Char) : Bool :=
  c = ' ' || c = '\t' || c = '\r' || c = '\n' || c = '\x0c' || c = '\x0b'

/-- The first character of an identifier. -/
def startsIdentifier (c : Char) : Bool :=
  c = '_' || c = '$' || Text.isLetter c

/-- A further character of an identifier. -/
def continuesIdentifier (c : Char) : Bool :=
  c = '_' || c = '$' || Text.isLetter c || Text.isNumeral c

/-- The operators, every one before the operators it begins with. -/
def operators : List String :=
  [">>>=", ">>>", "<<=", ">>=", "**", "==", "!=", "<=", ">=", "=>", "&&", "||", "++", "--",
   "<<", ">>", "+=", "-=", "*=", "/=", "%=", "|=", "&=", "^=", "->", ":=", "=", "<", ">", "!",
   "+", "-", "*", "/", "%", "&", "|", "^", "~", "?", ":"]

/-- The longest operator at the front of a text. -/
def operator? (text : List Char) : Option (List Char) :=
  (operators.map String.toList).find? fun operator => operator.isPrefixOf text

/-- The kind of a character that is a token by itself. -/
def punctuation? (c : Char) : Option Token.Kind :=
  if c = ';' then some .semicolon
  else if c = ',' then some .comma
  else if c = Bracket.paren.opener then some (.opening .paren)
  else if c = Bracket.paren.closer then some (.closing .paren)
  else if c = Bracket.square.opener then some (.opening .square)
  else if c = Bracket.square.closer then some (.closing .square)
  else if c = Bracket.brace.opener then some (.opening .brace)
  else if c = Bracket.brace.closer then some (.closing .brace)
  else none

/-- The text up to the closing quote, escapes kept as they are; `seen` is its beginning,
reversed.  A string ends on its line, but an escaped line feed belongs to it. -/
def quotedBody? (quote : Char) (seen : List Char) : List Char → Option (List Char)
  | [] => none
  | '\n' :: _ => none
  | '\\' :: [] => none
  | '\\' :: c :: rest => quotedBody? quote (c :: '\\' :: seen) rest
  | c :: rest =>
      if c = quote then some seen.reverse else quotedBody? quote (c :: seen) rest

/-- The text up to the end mark of a block comment; `seen` is its beginning, reversed. -/
def commentBody? (seen : List Char) : List Char → Option (List Char)
  | [] => none
  | '*' :: '/' :: _ => some seen.reverse
  | c :: rest => commentBody? (c :: seen) rest

/-- Whether a text begins with a digit. -/
def startsWithDigit : List Char → Bool
  | [] => false
  | c :: _ => Text.isDigit c

/-- Whether a text begins with an exponent: a digit, or a minus sign and a digit. -/
def startsWithExponent : List Char → Bool
  | [] => false
  | '-' :: rest => startsWithDigit rest
  | c :: _ => Text.isDigit c

/-- The characters of a decimal number at the front of a text: digits and underscores, a point
before a digit, and an exponent mark before an exponent. -/
def decimal : List Char → List Char
  | [] => []
  | c :: rest =>
      if Text.isDigit c || c = '_' then c :: decimal rest
      else if c = '.' && startsWithDigit rest then c :: decimal rest
      else if (c = 'e' || c = 'E') && startsWithExponent rest then
        match rest with
        | '-' :: digits => c :: '-' :: decimal digits
        | digits => c :: decimal digits
      else []

/-- A digit of a hexadecimal number, or an underscore. -/
def isHexDigit (c : Char) : Bool :=
  c.isDigit || ('a' ≤ c && c ≤ 'f') || ('A' ≤ c && c ≤ 'F') || c = '_'

/-- The characters of a number at the front of a text. -/
def number : List Char → List Char
  | '0' :: 'x' :: rest => '0' :: 'x' :: rest.takeWhile isHexDigit
  | '0' :: 'X' :: rest => '0' :: 'X' :: rest.takeWhile isHexDigit
  | text => decimal text

/-- The words that make one token with a string right behind them. -/
def stringMarks : List (List Char) := ["hex".toList, "unicode".toList]

/-- The string behind a mark of `offset` characters, of which the quote is the next.  An error
is placed at the quote. -/
def string (offset : Nat) (quote : Char) (rest : List Char) :
    Except (Nat × LexProblem) Lexeme :=
  match quotedBody? quote [] rest with
  | some body => .ok ⟨.string, body, offset + body.length + 1⟩
  | none => .error (offset, .unterminatedString)

/-- An identifier, or the string it marks. -/
def word (text : List Char) : Except (Nat × LexProblem) Lexeme :=
  let name := text.takeWhile continuesIdentifier
  let identifier : Lexeme := ⟨.identifier, name, name.length - 1⟩
  match text.dropWhile continuesIdentifier with
  | quote :: rest =>
      if stringMarks.contains name && (quote = '"' || quote = '\'') then
        string name.length quote rest
      else .ok identifier
  | [] => .ok identifier

/-- A comment, if the text begins one. -/
def comment? : List Char → Option (Except (Nat × LexProblem) Lexeme)
  | '/' :: '/' :: rest =>
      let body := rest.takeWhile (· ≠ '\n')
      some (.ok ⟨.comment, body, body.length + 1⟩)
  | '/' :: '*' :: rest =>
      match commentBody? [] rest with
      | some body => some (.ok ⟨.comment, body, body.length + 3⟩)
      | none => some (.error (0, .unterminatedComment))
  | _ => none

/-- The lexeme at the front of `c :: rest`.  An error comes with the number of characters before
it. -/
def read (c : Char) (rest : List Char) : Except (Nat × LexProblem) Lexeme :=
  match comment? (c :: rest) with
  | some comment => comment
  | none =>
      if c = '"' || c = '\'' then string 0 c rest
      else match punctuation? c with
      | some kind => .ok ⟨kind, [c], 0⟩
      | none =>
          if Text.isDigit c || (c = '.' && startsWithDigit rest) then
            let digits := number (c :: rest)
            .ok ⟨.number, digits, digits.length - 1⟩
          else if c = '.' then .ok ⟨.dot, [c], 0⟩
          else if startsIdentifier c then word (c :: rest)
          else match operator? (c :: rest) with
          | some operator => .ok ⟨.operator, operator, operator.length - 1⟩
          | none => .error (0, .unexpected c)

end Lexeme

namespace Token

/-- The tokens of a text, comments included, and the error that ended the scan early, if any. -/
structure Scan where
  tokens : List Token
  error : Option LexError
  deriving DecidableEq, Repr

/-- Scans on from a position; `seen` holds the tokens before it, last first. -/
def scanFrom (position : Position) (seen : List Token) : List Char → Scan
  | [] => ⟨(⟨.endOfFile, "", position⟩ :: seen).reverse, none⟩
  | c :: rest =>
      if Lexeme.isGap c then scanFrom (position.after c) seen rest
      else match Lexeme.read c rest with
      | .error (offset, problem) =>
          ⟨seen.reverse, some ⟨problem, position.past ((c :: rest).take offset)⟩⟩
      | .ok lexeme =>
          scanFrom (position.past (c :: rest.take lexeme.more))
            (⟨lexeme.kind, String.ofList lexeme.text, position⟩ :: seen)
            (rest.drop lexeme.more)
termination_by text => text.length
decreasing_by
  all_goals simp only [List.length_cons, List.length_drop]; omega

/-- The tokens of a source text, comments included. -/
def scan (source : String) : Scan := scanFrom .start [] source.toList

/-- The tokens of a source text without its comments, or the error that ends the scan. -/
def tokenize (source : String) : Except LexError (List Token) :=
  let scanned := scan source
  match scanned.error with
  | some error => .error error
  | none => .ok (withoutComments scanned.tokens)

end Token

end Interlock
