import Interlock.FileSystem
import Interlock.Log
import Interlock.Policy.OfData
import Interlock.YamlLibrary

/-!
# Policy files

A policy is read from a YAML file: the one that is named, or else the one that the environment
names, or else there is none and the standard policy holds.  An empty document changes nothing.
-/

namespace Interlock.Policy

/-- A policy as a YAML document. -/
def toYaml (yaml : YamlLibrary) (policy : Policy) : String := yaml.dump policy.toJson

/-- The entries of the mapping in a document; `source` is named in failures. -/
def documentEntries (yaml : YamlLibrary) (source : String) (bytes : ByteArray) :
    Except Failure (List (Data × Data)) :=
  match yaml.load bytes with
  | .error (.malformed detail) => .error (.policy source (.invalidYaml detail))
  | .error (.raised label message) => .error (.raised label message)
  | .ok .null => .ok []
  | .ok (.mapping entries) => .ok entries
  | .ok value => .error (.policy source (.notMapping value.typeName))

/-- The policy in a file. -/
def ofFile (yaml : YamlLibrary) (system : FileSystem) (path : Path) : Except Failure Policy := do
  let source := path.display
  if (← system.inspect path).isNone then throw (.policy source .notFound)
  match system.content path with
  | .error fault => throw (.system fault source)
  | .ok bytes => ofData source (← documentEntries yaml source bytes)

/-- The file that a policy is read from, if any.  An empty name in the environment names none. -/
def fileName? (named environment : Option String) : Option String :=
  named <|> environment.filter (· ≠ "")

/-- Loads the policy and answers what is logged on the way. -/
def load (yaml : YamlLibrary) (system : FileSystem) (named environment : Option String) :
    Except Failure Policy × List LogRecord :=
  match fileName? named environment with
  | none => (.ok standard, [])
  | some name =>
      let path := Path.parse name
      match ofFile yaml system path with
      | .error failure => (.error failure, [])
      | .ok policy => (.ok policy, [.policyLoaded path.display policy.excludedPaths.size])

end Interlock.Policy
