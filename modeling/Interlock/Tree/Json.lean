import Interlock.Json
import Interlock.Tree

/-!
# Trees as JSON

A node becomes an object that begins with its type and position; its other fields follow in
the order of the declaration.
-/

namespace Interlock.Tree

/-- An object with the type and the position of a node. -/
def nodeJson (type : String) (position : Position) (fields : List (String × Json)) : Json :=
  .object <| [("_type", .string type), ("line", .int position.line),
    ("column", .int position.column)] ++ fields

def Pragma.toJson (pragma : Pragma) : Json :=
  nodeJson "pragma_directive" pragma.position
    [("name", .string pragma.name), ("value", .string pragma.value)]

def Import.toJson (directive : Import) : Json :=
  nodeJson "import_directive" directive.position [("path", .string directive.path)]

def Invocation.toJson (invocation : Invocation) : Json :=
  nodeJson "modifier_invocation" invocation.position
    [("name", .string invocation.name), ("arguments", .ofOption invocation.arguments)]

def Function.toJson (function : Function) : Json :=
  nodeJson "function_definition" function.position
    [("name", .string function.name),
     ("kind", .string function.kind.word),
     ("parameters", .string function.parameters),
     ("return_parameters", .ofOption function.returnParameters),
     ("visibility", .string function.visibility.word),
     ("explicit_visibility", .ofOption (function.explicitVisibility.map (·.word))),
     ("state_mutability", .string function.mutability.word),
     ("explicit_mutability", .ofOption (function.explicitMutability.map (·.word))),
     ("modifiers", .array (function.modifiers.map (·.toJson))),
     ("is_virtual", .bool function.isVirtual),
     ("overrides", (function.overrides.map Json.strings).getD .null),
     ("has_body", .bool function.hasBody)]

def Modifier.toJson (modifier : Modifier) : Json :=
  nodeJson "modifier_definition" modifier.position
    [("name", .string modifier.name), ("parameters", .ofOption modifier.parameters),
     ("is_virtual", .bool modifier.isVirtual)]

def Event.toJson (event : Event) : Json :=
  nodeJson "event_definition" event.position
    [("name", .string event.name), ("parameters", .string event.parameters),
     ("is_anonymous", .bool event.isAnonymous)]

def Struct.toJson (struct : Struct) : Json :=
  nodeJson "struct_definition" struct.position
    [("name", .string struct.name), ("members", .string struct.members)]

def Enum.toJson (enum : Enum) : Json :=
  nodeJson "enum_definition" enum.position
    [("name", .string enum.name), ("values", .strings enum.values)]

def UsingFor.toJson (directive : UsingFor) : Json :=
  nodeJson "using_for_declaration" directive.position
    [("library", .string directive.library), ("type_name", .string directive.typeName)]

def Variable.toJson (node : Variable) : Json :=
  nodeJson "state_variable_declaration" node.position
    [("name", .string node.name), ("type_name", .string node.typeName),
     ("visibility", .ofOption (node.visibility.map (·.word))),
     ("is_constant", .bool node.isConstant),
     ("is_immutable", .bool node.isImmutable)]

def Declaration.toJson (declaration : Declaration) : Json :=
  nodeJson "declaration" declaration.position
    [("keyword", .string declaration.keyword), ("name", .string declaration.name),
     ("text", .string declaration.text)]

/-- A member of a contract as JSON. -/
def Member.toJson : Member → Json
  | function node => node.toJson
  | modifier node => node.toJson
  | event node => node.toJson
  | struct node => node.toJson
  | enum node => node.toJson
  | usingFor node => node.toJson
  | stateVariable node => node.toJson
  | declaration node => node.toJson

def Contract.toJson (contract : Contract) : Json :=
  nodeJson "contract_definition" contract.position
    [("name", .string contract.name), ("kind", .string contract.kind.word),
     ("is_abstract", .bool contract.isAbstract),
     ("base_contracts", .strings contract.bases),
     ("sub_nodes", .array (contract.members.map (·.toJson)))]

/-- A top-level element as JSON. -/
def Element.toJson : Element → Json
  | pragma node => node.toJson
  | importPath node => node.toJson
  | contract node => node.toJson
  | member node => node.toJson

/-- A source unit as JSON; it stands at the start of its text. -/
def SourceUnit.toJson (unit : SourceUnit) : Json :=
  nodeJson "source_unit" .start
    [("children", .array (unit.elements.map (·.toJson))), ("filename", .string unit.filename)]

end Interlock.Tree
