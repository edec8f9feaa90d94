import Interlock.Yaml.Token.Block
import Interlock.Yaml.Token.Property

/-!
# Splitting a YAML text into tokens

Whether a scalar is a key shows only at the colon behind it, so the place of each possible key is
kept until then and the tokens that announce it are put in at the end.  A reader of the tokens gets
to know a token only when it is settled that the token is no key; a fault in the text therefore
hides the tokens from the first one that was not settled when the fault was met.
-/

namespace Interlock.Yaml

namespace Lexer

/-- A place where a key may begin. -/
structure PossibleKey where
  level : Nat
  token : Nat
  required : Bool
  index : Nat
  line : Nat
  column : Nat
  deriving Repr

/-- The text left, the place in it, the tokens so far, and what indentation and brackets are
open.  `announced` holds tokens that go in front of the token with a given number, and `settled`
counts the tokens that a reader can get to know. -/
structure State where
  rest : List Char
  index : Nat := 0
  line : Nat := 0
  column : Nat := 0
  tokens : Array Token := #[]
  announced : List (Nat × List Token) := []
  settled : Nat := 0
  level : Nat := 0
  indent : Int := -1
  indents : List Int := []
  keyAllowed : Bool := true
  keys : List PossibleKey := []
  deriving Repr

end Lexer

/-- A computation over the text. -/
abbrev Lexer := EStateM Fault Lexer.State

namespace Lexer

/-- A reader of characters whose fault is one of the text. -/
def lift {α : Type} (result : Except Fault α) : Lexer α :=
  match result with
  | .ok value => return value
  | .error fault => throw fault

/-- Moves past characters. -/
def forward (count : Nat) : Lexer Unit :=
  modify fun state =>
    let taken := state.rest.take count
    taken.foldl (fun state c =>
        if isBreak c then { state with line := state.line + 1, column := 0 }
        else if c = '\ufeff' then state
        else { state with column := state.column + 1 })
      { state with rest := state.rest.drop count, index := state.index + taken.length }

/-- Moves to where a given text is left. -/
def moveTo (left : List Char) : Lexer Unit := do
  forward ((← get).rest.length - left.length)

/-- Adds a token. -/
def emit (token : Token) : Lexer Unit :=
  modify fun state => { state with tokens := state.tokens.push token }

/-- Whether keys may begin from here on. -/
def allowKey (allowed : Bool) : Lexer Unit :=
  modify fun state => { state with keyAllowed := allowed }

/-- Gives up the possible key at the current level, which must not be one that a block needs. -/
def dropKey : Lexer Unit := do
  let state ← get
  if state.keys.any fun key => key.level = state.level && key.required then throw .malformed
  set { state with keys := state.keys.filter (·.level ≠ state.level) }

/-- Whether a possible key is on an earlier line or too far back. -/
def isStale (state : State) (key : PossibleKey) : Bool :=
  key.line ≠ state.line || 1024 < state.index - key.index

/-- Gives up the possible keys that are stale. -/
def dropStaleKeys : Lexer Unit := do
  let state ← get
  if state.keys.any fun key => isStale state key && key.required then throw .malformed
  set { state with keys := state.keys.filter (!isStale state ·) }

/-- Notes which tokens are settled before the text is read on. -/
def settle : Lexer Unit :=
  modify fun state =>
    let waiting := (state.keys.filter (!isStale state ·)).map (·.token)
    { state with settled := waiting.foldl min state.tokens.size }

/-- Notes that a key may begin here. -/
def noteKey : Lexer Unit := do
  let state ← get
  if state.keyAllowed then
    dropKey
    modify fun state =>
      { state with
        keys :=
          { level := state.level
            token := state.tokens.size
            required := state.level = 0 && state.indent = state.column
            index := state.index
            line := state.line
            column := state.column } :: state.keys }

/-- The indentation at hand and those around it once the blocks deeper than a column are closed,
with an end mark for each. -/
def closeBlocks (column indent : Int) (outer : List Int) (tokens : Array Token) :
    Int × List Int × Array Token :=
  match outer with
  | [] => (indent, [], tokens)
  | next :: below =>
      if column < indent then closeBlocks column next below (tokens.push .blockEnd)
      else (indent, outer, tokens)

/-- Closes the blocks that are indented deeper than a column, unless brackets are open. -/
def unindent (column : Int) : Lexer Unit :=
  modify fun state =>
    if state.level ≠ 0 then state
    else
      let (indent, indents, tokens) :=
        closeBlocks column state.indent state.indents state.tokens
      { state with indent := indent, indents := indents, tokens := tokens }

/-- Opens a block at a column, if it is deeper than the block at hand. -/
def openBlock (column : Nat) : Lexer Bool := do
  let state ← get
  if state.indent < column then
    set { state with indents := state.indent :: state.indents, indent := column }
    return true
  else return false

/-- The text between two tokens: blanks, comments and line breaks. -/
def skipGap : Nat → Lexer Unit
  | 0 => return
  | fuel + 1 => do
      forward ((← get).rest.takeWhile (· = ' ')).length
      if let '#' :: comment := (← get).rest then
        forward (1 + (comment.takeWhile (!isBreak ·)).length)
      if (← get).rest.head?.any isBreak then
        forward 1
        if (← get).level = 0 then allowKey true
        skipGap fuel

/-- The word at the front of a plain scalar. -/
def plainWord (inFlow : Bool) : List Char → List Char
  | [] => []
  | c :: rest =>
      let endsKey : Bool :=
        startsGap rest || (inFlow && rest.head?.any fun next =>
          next = ',' || next = '[' || next = ']' || next = '\x7b' || next = '\x7d')
      let isFlowMark : Bool := c = ',' || c = '?' || c = '[' || c = ']' || c = '\x7b' || c = '\x7d'
      if isGap c || (c = ':' && endsKey) || (inFlow && isFlowMark) then []
      else c :: plainWord inFlow rest

/-- The line breaks and blanks behind a line break: the breaks, last first, how many characters
they take, and whether a separator of documents follows. -/
def breakRun (seen : List Char) (count : Nat) : List Char → List Char × Nat × Bool
  | [] => (seen, count, false)
  | c :: rest =>
      if c = ' ' then breakRun seen (count + 1) rest
      else if isBreak c then
        if atSeparator rest then (keptBreak c :: seen, count + 1, true)
        else breakRun (keptBreak c :: seen) (count + 1) rest
      else (seen, count, false)

/-- The gap behind a word of a plain scalar: the text it stands for if the scalar may go on, how
many characters it takes, and whether it holds a line break. -/
def plainGap (text : List Char) : Option (List Char) × Nat × Bool :=
  let blanks := text.takeWhile (· = ' ')
  match text.drop blanks.length with
  | c :: rest =>
      if isBreak c then
        if atSeparator rest then (none, blanks.length + 1, true)
        else
          let (breaks, count, separated) := breakRun [] 0 rest
          let gap := if separated then none else some (folded c breaks.reverse)
          (gap, blanks.length + 1 + count, true)
      else (if blanks.isEmpty then none else some blanks, blanks.length, false)
  | [] => (if blanks.isEmpty then none else some blanks, blanks.length, false)

/-- Reads on in a plain scalar: `seen` is its text so far and `gap` the gap behind it. -/
def plainFrom : Nat → List Char → List Char → Lexer (List Char)
  | 0, seen, _ => return seen
  | fuel + 1, seen, gap => do
      let state ← get
      let word := plainWord (state.level ≠ 0) state.rest
      if state.rest.head? = some '#' || word.isEmpty then return seen
      allowKey false
      forward word.length
      let (next, count, broken) := plainGap (← get).rest
      forward count
      if broken then allowKey true
      let seen := seen ++ gap ++ word
      let state ← get
      match next with
      | none => return seen
      | some gap =>
          if state.rest.head? = some '#' then return seen
          else if state.level = 0 && state.column < state.indent + 1 then return seen
          else plainFrom fuel seen gap

/-- Reads a plain scalar of at most `fuel` words. -/
def plainScalar (fuel : Nat) : Lexer Unit := do
  noteKey
  allowKey false
  let value ← plainFrom fuel [] []
  emit (.scalar (String.ofList value) true)

/-- Reads a quoted scalar, its first quote at the front. -/
def quotedScalar (fuel : Nat) (quote : Char) (rest : List Char) : Lexer Unit := do
  noteKey
  allowKey false
  let (value, count) ← lift (Quoted.read quote fuel rest)
  forward (1 + count)
  emit (.scalar (String.ofList value) false)

/-- Reads a block scalar, its first mark at the front. -/
def blockScalar (fold : Bool) (rest : List Char) : Lexer Unit := do
  allowKey true
  dropKey
  let (value, left) ← lift (Block.read fold (← get).indent rest)
  moveTo left
  emit (.scalar (String.ofList value) false)

/-- Reads the property that a function makes of a text. -/
def property (token : Except Fault (Token × List Char)) : Lexer Unit := do
  noteKey
  allowKey false
  let (token, left) ← lift token
  moveTo left
  emit token

/-- Opens a list or mapping in brackets. -/
def openFlow (token : Token) : Lexer Unit := do
  noteKey
  modify fun state => { state with level := state.level + 1 }
  allowKey true
  forward 1
  emit token

/-- Closes a list or mapping in brackets; one that is not open is no YAML. -/
def closeFlow (token : Token) : Lexer Unit := do
  dropKey
  if (← get).level = 0 then throw .malformed
  modify fun state => { state with level := state.level - 1 }
  allowKey false
  forward 1
  emit token

/-- Reads the mark of an item or of a key in a block, which may open the block. -/
def blockMark (start mark : Token) : Lexer Unit := do
  let state ← get
  if state.level = 0 then
    if !state.keyAllowed then throw .malformed
    if ← openBlock state.column then emit start
  allowKey (mark = .blockEntry || state.level = 0)
  dropKey
  forward 1
  emit mark

/-- Reads the colon between a key and its value. -/
def valueMark : Lexer Unit := do
  let state ← get
  match state.keys.find? (·.level = state.level) with
  | some key =>
      modify fun state => { state with keys := state.keys.filter (·.level ≠ state.level) }
      let opened ← if state.level = 0 then openBlock key.column else pure false
      let marks : List Token := if opened then [.mappingStart, .key] else [.key]
      modify fun state => { state with announced := (key.token, marks) :: state.announced }
      allowKey false
  | none =>
      if state.level = 0 then
        if !state.keyAllowed then throw .malformed
        if ← openBlock state.column then emit .mappingStart
      allowKey (state.level = 0)
      dropKey
  forward 1
  emit .value

/-- Closes every block in front of what stands between documents. -/
def leaveDocument : Lexer Unit := do
  unindent (-1)
  dropKey
  allowKey false

/-- Reads a mark that separates documents. -/
def separator (token : Token) : Lexer Unit := do
  leaveDocument
  forward 3
  emit token

/-- Reads a directive, its mark at the front. -/
def directive (rest : List Char) : Lexer Unit := do
  leaveDocument
  let (token, left) ← lift (Property.directive rest)
  moveTo left
  emit token

/-- Whether a plain scalar may begin with a character and what follows it. -/
def startsPlain (inFlow : Bool) (c : Char) (rest : List Char) : Bool :=
  let isMark : Bool :=
    "-?:,[]#&*!|>'\"%@`".toList.contains c || c = '\x7b' || c = '\x7d' || isGap c
  !isMark || (!startsGap rest && (c = '-' || (!inFlow && (c = '?' || c = ':'))))

/-- Reads the token that begins with a character; `fuel` is more than the characters left. -/
def token (fuel : Nat) (c : Char) (rest : List Char) : Lexer Unit := do
  let state ← get
  let inFlow : Bool := state.level ≠ 0
  if state.column = 0 && c = '%' then directive rest
  else if state.column = 0 && c = '-' && atSeparator (c :: rest) then separator .documentStart
  else if state.column = 0 && c = '.' && atSeparator (c :: rest) then separator .documentEnd
  else if c = '[' then openFlow .flowSequenceStart
  else if c = '\x7b' then openFlow .flowMappingStart
  else if c = ']' then closeFlow .flowSequenceEnd
  else if c = '\x7d' then closeFlow .flowMappingEnd
  else if c = ',' then
    allowKey true
    dropKey
    forward 1
    emit .flowEntry
  else if c = '-' && startsGap rest then blockMark .sequenceStart .blockEntry
  else if c = '?' && (inFlow || startsGap rest) then blockMark .mappingStart .key
  else if c = ':' && (inFlow || startsGap rest) then valueMark
  else if c = '*' then
    property ((Property.anchorName rest).map fun (name, left) => (.alias name, left))
  else if c = '&' then
    property ((Property.anchorName rest).map fun (name, left) => (.anchor name, left))
  else if c = '!' then property (Property.tag (c :: rest))
  else if (c = '|' || c = '>') && !inFlow then blockScalar (c = '>') rest
  else if c = '\'' || c = '"' then quotedScalar fuel c rest
  else if startsPlain inFlow c rest then plainScalar fuel
  else throw .malformed

/-- Reads all tokens; `size` is more than the characters of the text. -/
def readAll (size : Nat) : Nat → Lexer Unit
  | 0 => throw .malformed
  | fuel + 1 => do
      settle
      skipGap size
      dropStaleKeys
      let state ← get
      unindent state.column
      match state.rest with
      | [] =>
          unindent (-1)
          dropKey
      | c :: rest =>
          token size c rest
          readAll size fuel

end Lexer

/-- The tokens with those that announce keys put in. -/
def Token.withAnnounced (announced : List (Nat × List Token)) (tokens : List Token) :
    List Token :=
  (tokens.zipIdx.map fun (token, index) =>
    (((announced.find? (·.1 = index)).map (·.2)).getD []) ++ [token]).flatten

/-- The tokens of a text that a reader can get to know, and the fault behind them if there is
one. -/
structure TokenStream where
  tokens : List Token
  fault : Option Fault
  deriving DecidableEq, Repr

/-- The tokens of a text.  A text with a character that may not stand in one has none. -/
def TokenStream.ofText (text : String) : TokenStream :=
  let chars := text.toList
  if !chars.all isAllowed then ⟨[], some .malformed⟩
  else
    let chars := if chars.head? = some '\ufeff' then chars.tail else chars
    let size := chars.length + 1
    match Lexer.readAll size size { rest := chars } with
    | .ok _ state => ⟨Token.withAnnounced state.announced state.tokens.toList, none⟩
    | .error fault state =>
        ⟨Token.withAnnounced state.announced (state.tokens.toList.take state.settled), some fault⟩

end Interlock.Yaml
