import Interlock.Yaml.Tag
import Interlock.Yaml.Token.Lexer

/-!
# Documents

The tokens of a text make a document of scalars, lists and mappings.  A text without a document has
no node, and a text with more than one is refused.  A node that is left out is an empty scalar.  An
alias stands for the node that its anchor names, also inside that very node.
-/

namespace Interlock.Yaml

/-- A node of a document. -/
inductive Node where
  | scalar (tag : Tag) (text : String)
  | sequence (tag : Tag) (items : List Node)
  | mapping (tag : Tag) (entries : List (Node × Node))
  /-- A list or mapping around this place, named again inside itself. -/
  | enclosing (tag : Tag)
  deriving Repr, Inhabited

namespace Node

/-- The tag of a node. -/
def tag : Node → Tag
  | scalar tag _ | sequence tag _ | mapping tag _ | enclosing tag => tag

/-- The node that stands for nothing. -/
def empty : Node := scalar .null ""

/-- What is left to read, with the nodes that anchors name and the meaning of handles so far. -/
structure State where
  stream : TokenStream
  anchors : List (String × Node) := []
  handles : List (String × String) := []
  deriving Repr

/-- A computation that makes nodes of tokens. -/
abbrev Builder := EStateM Fault State

/-- The handles that need no directive. -/
def commonHandles : List (String × String) := [("!", "!"), ("!!", Tag.commonStart)]

/-- The token at the front, or `none` at the end of the text. -/
def front : Builder (Option Token) := do
  let stream := (← get).stream
  match stream.tokens, stream.fault with
  | token :: _, _ => return some token
  | [], some fault => throw fault
  | [], none => return none

/-- Takes the token at the front. -/
def drop : Builder Unit :=
  modify fun state =>
    { state with stream := { state.stream with tokens := state.stream.tokens.tail } }

/-- Whether one of the given tokens is at the front. -/
def at? (tokens : List Token) : Builder Bool := do
  return (← front).any (tokens.contains ·)

/-- Takes a given token, if it is at the front. -/
def accept (token : Token) : Builder Bool := do
  if (← front) = some token then
    drop
    return true
  else return false

/-- Takes a given token. -/
def require (token : Token) : Builder Unit := do
  if !(← accept token) then throw .malformed

/-- Takes an anchor, if one is at the front. -/
def anchor? : Builder (Option String) := do
  match ← front with
  | some (.anchor name) =>
      drop
      return some name
  | _ => return none

/-- Takes a tag, if one is at the front, and answers its full name. -/
def tag? : Builder (Option String) := do
  match ← front with
  | some (.tag none text) =>
      drop
      return some text
  | some (.tag (some handle) text) =>
      drop
      match (← get).handles.find? (·.1 = handle) with
      | some (_, start) => return some (start ++ text)
      | none => throw .malformed
  | _ => return none

/-- The name of a node and its written tag. -/
structure Properties where
  anchor : Option String
  tag : Option String
  deriving DecidableEq, Repr

/-- Takes the properties of a node, in either order. -/
def properties : Builder Properties := do
  match ← anchor? with
  | some name => return ⟨some name, ← tag?⟩
  | none =>
      match ← tag? with
      | some tag => return ⟨← anchor?, some tag⟩
      | none => return ⟨none, none⟩

namespace Properties

/-- The tag of a list or mapping; a lone mark asks for the usual one. -/
def tagElse (properties : Properties) (usual : Tag) : Tag :=
  match properties.tag with
  | none | some "!" => usual
  | some name => .ofName name

/-- A scalar with these properties.  A lone mark has it read as if it were plain. -/
def scalar (properties : Properties) (text : String) (plain : Bool) : Node :=
  .scalar (properties.tagElse
    (if plain || properties.tag.isSome then .ofPlain text else .string)) text

end Properties

/-- Names a node. -/
def name (anchor : Option String) (node : Node) : Builder Unit :=
  match anchor with
  | some name => modify fun state => { state with anchors := (name, node) :: state.anchors }
  | none => return

/-- Reads a list or mapping that may be named again inside itself. -/
def collection (properties : Properties) (tag : Tag) (content : Builder Node) :
    Builder Node := do
  name properties.anchor (.enclosing tag)
  let node ← content
  name properties.anchor node
  return node

/-- Reads a node, unless one of the given tokens, which end it, is at the front. -/
def unlessAt (ends : List Token) (node : Builder Node) : Builder Node := do
  if ← at? ends then return empty else node

mutual

/-- Reads a node.  Blocks are read only outside brackets, and a list at the indentation of its key
only as the value of a key. -/
def node (fuel : Nat) (block indentless : Bool) : Builder Node :=
  match fuel with
  | 0 => throw .malformed
  | fuel + 1 => do
      if let some (.alias name) ← front then
        drop
        match (← get).anchors.find? (·.1 = name) with
        | some (_, node) => return node
        | none => throw .malformed
      else
        let properties ← properties
        let anchors := (← get).anchors
        if properties.anchor.any fun name => anchors.any (·.1 = name) then throw .malformed
        content fuel block indentless properties

/-- Reads a node behind its properties.  Properties may stand alone. -/
def content (fuel : Nat) (block indentless : Bool) (properties : Properties) : Builder Node :=
  match fuel with
  | 0 => throw .malformed
  | fuel + 1 => do
      let sequenceTag := properties.tagElse .sequence
      let mappingTag := properties.tagElse .mapping
      let token ← front
      if indentless && token = some .blockEntry then
        collection properties sequenceTag
          (return .sequence sequenceTag (← indentlessItems fuel))
      else
        match token with
        | some (.scalar text plain) =>
            drop
            let node := properties.scalar text plain
            name properties.anchor node
            return node
        | some .flowSequenceStart =>
            drop
            collection properties sequenceTag (return .sequence sequenceTag (← flowItems fuel true))
        | some .flowMappingStart =>
            drop
            collection properties mappingTag (return .mapping mappingTag (← flowEntries fuel true))
        | _ =>
            if block && token = some .sequenceStart then
              drop
              collection properties sequenceTag (return .sequence sequenceTag (← blockItems fuel))
            else if block && token = some .mappingStart then
              drop
              collection properties mappingTag (return .mapping mappingTag (← blockEntries fuel))
            else if properties.anchor.isSome || properties.tag.isSome then
              let node := properties.scalar "" true
              name properties.anchor node
              return node
            else throw .malformed

/-- Reads the items of a block and its end. -/
def blockItems (fuel : Nat) : Builder (List Node) :=
  match fuel with
  | 0 => throw .malformed
  | fuel + 1 => do
      if ← accept .blockEntry then
        let item ← unlessAt [.blockEntry, .blockEnd] (node fuel true false)
        return item :: (← blockItems fuel)
      else
        require .blockEnd
        return []

/-- Reads the items of a list at the indentation of its key. -/
def indentlessItems (fuel : Nat) : Builder (List Node) :=
  match fuel with
  | 0 => throw .malformed
  | fuel + 1 => do
      if ← accept .blockEntry then
        let item ← unlessAt [.blockEntry, .key, .value, .blockEnd] (node fuel true false)
        return item :: (← indentlessItems fuel)
      else return []

/-- Reads the entries of a block and its end. -/
def blockEntries (fuel : Nat) : Builder (List (Node × Node)) :=
  match fuel with
  | 0 => throw .malformed
  | fuel + 1 => do
      if ← accept .key then
        let key ← unlessAt [.key, .value, .blockEnd] (node fuel true true)
        let value ← if ← accept .value then
            unlessAt [.key, .value, .blockEnd] (node fuel true true)
          else pure empty
        return (key, value) :: (← blockEntries fuel)
      else
        require .blockEnd
        return []

/-- Reads the items of a list in brackets and its end.  A pair alone is a mapping of one entry. -/
def flowItems (fuel : Nat) (first : Bool) : Builder (List Node) :=
  match fuel with
  | 0 => throw .malformed
  | fuel + 1 => do
      if ← accept .flowSequenceEnd then return []
      if !first then require .flowEntry
      if ← accept .flowSequenceEnd then return []
      let item ← if ← accept .key then
          let key ← unlessAt [.value, .flowEntry, .flowSequenceEnd] (node fuel false false)
          let value ← if ← accept .value then
              unlessAt [.flowEntry, .flowSequenceEnd] (node fuel false false)
            else pure empty
          pure (Node.mapping .mapping [(key, value)])
        else node fuel false false
      return item :: (← flowItems fuel false)

/-- Reads the entries of a mapping in braces and its end.  A key alone has no value. -/
def flowEntries (fuel : Nat) (first : Bool) : Builder (List (Node × Node)) :=
  match fuel with
  | 0 => throw .malformed
  | fuel + 1 => do
      if ← accept .flowMappingEnd then return []
      if !first then require .flowEntry
      if ← accept .flowMappingEnd then return []
      let entry ← if ← accept .key then
          let key ← unlessAt [.value, .flowEntry, .flowMappingEnd] (node fuel false false)
          let value ← if ← accept .value then
              unlessAt [.flowEntry, .flowMappingEnd] (node fuel false false)
            else pure empty
          pure (key, value)
        else
          let key ← node fuel false false
          pure (key, empty)
      return entry :: (← flowEntries fuel false)

end

/-- Whether a directive is at the front. -/
def atDirective : Builder Bool := do
  return (← front).any fun token => token matches .directive _

/-- Takes the directives in front of a document.  Each handle has one meaning, and a version, if it
is given, is given once and is a version of the first edition. -/
def directives : Nat → Bool → Builder Unit
  | 0, _ => return
  | fuel + 1, versioned => do
      match ← front with
      | some (.directive found) =>
          drop
          match found with
          | .version major =>
              if versioned || major ≠ 1 then throw .malformed
              directives fuel true
          | .handle handle start =>
              let handles := (← get).handles
              if handles.any (·.1 = handle) then throw .malformed
              modify fun state => { state with handles := (handle, start) :: handles }
              directives fuel versioned
          | .other => directives fuel versioned
      | _ => return

/-- Takes end marks of documents. -/
def documentEnds : Nat → Builder Unit
  | 0 => return
  | fuel + 1 => do if ← accept .documentEnd then documentEnds fuel

/-- Takes the start of a document with its directives. -/
def documentStart (fuel : Nat) : Builder Unit := do
  directives fuel false
  modify fun state => { state with handles := state.handles ++ commonHandles }
  require .documentStart

/-- Reads the content of a document behind its start mark, which may be empty. -/
def documentContent (fuel : Nat) : Builder Node := do
  match ← front with
  | none | some .documentStart | some .documentEnd => return empty
  | _ => if ← atDirective then return empty else node fuel true false

/-- Reads the end of a document, behind which there is no other one. -/
def lastDocumentEnd (fuel : Nat) : Builder Unit := do
  documentEnds fuel
  if (← front).isSome then
    modify fun state => { state with handles := [] }
    documentStart fuel
    throw .malformed

/-- Reads the single document of a text, or `none` when there is no document. -/
def document (fuel : Nat) : Builder (Option Node) := do
  match ← front with
  | none => return none
  | token =>
      let node ← if (← atDirective) || token = some .documentStart then
          documentStart fuel
          documentContent fuel
        else
          modify fun state => { state with handles := commonHandles }
          node fuel true false
      lastDocumentEnd fuel
      return some node

/-- The node of the single document in a text, or `none` when there is no document. -/
def ofText (text : String) : Except Fault (Option Node) :=
  let stream := TokenStream.ofText text
  match document (8 * stream.tokens.length + 8) { stream := stream } with
  | .ok node _ => .ok node
  | .error fault _ => .error fault

end Node

end Interlock.Yaml
