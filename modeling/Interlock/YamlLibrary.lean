import Interlock.Data
import Interlock.Json

/-!
# The YAML library

Policies are read from YAML documents and printed as such.  How a document is read and written is
up to a library of its own, so that library is a parameter of whatever needs it.
-/

namespace Interlock

/-- Why a document has no value. -/
inductive DocumentFault where
  /-- The bytes are no YAML, for the reason that is given. -/
  | malformed (detail : String)
  /-- Another error comes up, such as bytes that are no text. -/
  | raised (label message : String)
  deriving DecidableEq, Repr

/-- A library that reads and writes documents. -/
structure YamlLibrary where
  /-- The value of a document, given by its bytes. -/
  load : ByteArray → Except DocumentFault Data
  /-- The document for a value. -/
  dump : Json → String

end Interlock
