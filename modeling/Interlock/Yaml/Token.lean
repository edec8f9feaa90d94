/-!
# Tokens of a YAML text

A text is split into scalars, their properties, indicators and the ends of blocks, which
indentation marks.
-/

namespace Interlock.Yaml

/-- A line in front of a document that says how to read it. -/
inductive Directive where
  | version (major : Nat)
  /-- A handle and what it stands for in tags. -/
  | handle (handle start : String)
  | other
  deriving DecidableEq, Repr

/-- The tokens of a text.  A scalar says whether it stands without quotes, and a tag whether it
begins with a handle. -/
inductive Token where
  | directive (directive : Directive)
  | documentStart
  | documentEnd
  | sequenceStart
  | mappingStart
  | blockEnd
  | flowSequenceStart
  | flowSequenceEnd
  | flowMappingStart
  | flowMappingEnd
  | blockEntry
  | flowEntry
  | key
  | value
  | alias (name : String)
  | anchor (name : String)
  | tag (handle : Option String) (text : String)
  | scalar (text : String) (plain : Bool)
  deriving DecidableEq, Repr

end Interlock.Yaml
