import Interlock.Yaml.Document
import Interlock.Yaml.Writer
import Interlock.YamlLibrary

/-!
# A library of documents

The reader and the writer of YAML that the program is run with.  A document is text in UTF-8, and
each kind of line end in it counts as a line feed.  It is decoded as a whole before it is read, and
collections may be nested in it without limit.
-/

namespace Interlock.Yaml

/-- A text with each kind of line end as a line feed. -/
def plainLines : List Char → List Char
  | [] => []
  | '\r' :: '\n' :: rest => '\n' :: plainLines rest
  | '\r' :: rest => '\n' :: plainLines rest
  | c :: rest => c :: plainLines rest

/-- The value of a document. -/
def load (bytes : ByteArray) : Except DocumentFault Data :=
  match String.fromUTF8? bytes with
  | none => .error (.raised "UnicodeDecodeError" "'utf-8' codec can't decode")
  | some text =>
      match read (String.ofList (plainLines text.toList)) with
      | .ok value => .ok value
      | .error .malformed => .error (.malformed Fault.malformed.message)
      | .error fault => .error (.raised fault.label fault.message)

/-- The reader and the writer. -/
def library : YamlLibrary := ⟨load, dump⟩

@[simp] theorem library_load : library.load = load := rfl

end Interlock.Yaml
