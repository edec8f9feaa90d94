import Interlock.Exposure
import Interlock.Tree

/-!
# One-line summaries of trees

Each node has a short text that names it, and a listing of a unit gives these texts for a node
before the nodes in it.
-/

namespace Interlock.Tree

def Pragma.display (pragma : Pragma) : String :=
  "Pragma(" ++ pragma.name ++ " " ++ pragma.value ++ ")"

def Import.display (directive : Import) : String :=
  "Import(" ++ Text.quoted directive.path ++ ")"

def Invocation.display (invocation : Invocation) : String :=
  match invocation.arguments with
  | none => "Modifier(" ++ invocation.name ++ ")"
  | some arguments => "Modifier(" ++ invocation.name ++ "(" ++ arguments ++ "))"

def Function.display (function : Function) : String :=
  function.exposure.display function.label

def Modifier.display (modifier : Modifier) : String :=
  "ModifierDef(" ++ modifier.name ++ ")"

def Event.display (event : Event) : String := "Event(" ++ event.name ++ ")"

def Struct.display (struct : Struct) : String := "Struct(" ++ struct.name ++ ")"

def Enum.display (enum : Enum) : String :=
  "Enum(" ++ enum.name ++ ", " ++ Text.quotedList enum.values ++ ")"

def UsingFor.display (directive : UsingFor) : String :=
  "Using(" ++ directive.library ++ " for " ++ directive.typeName ++ ")"

def Variable.display (node : Variable) : String :=
  "StateVar(" ++ node.typeName ++ " " ++ node.name ++ ")"

def Declaration.display (declaration : Declaration) : String :=
  "Declaration(" ++ declaration.keyword ++ " " ++ declaration.name ++ ")"

def Contract.display (contract : Contract) : String :=
  "Contract(" ++ contract.kind.word ++ " " ++ contract.name ++ ", " ++
    toString contract.members.length ++ " sub-nodes)"

def SourceUnit.display (unit : SourceUnit) : String :=
  "RootNode(" ++ unit.filename ++ ", " ++ toString unit.elements.length ++ " children)"

/-- A member and, for a function, its modifiers. -/
def Member.listing : Member → List String
  | function node => node.display :: node.modifiers.map (·.display)
  | modifier node => [node.display]
  | event node => [node.display]
  | struct node => [node.display]
  | enum node => [node.display]
  | usingFor node => [node.display]
  | stateVariable node => [node.display]
  | declaration node => [node.display]

/-- An element and the nodes in it. -/
def Element.listing : Element → List String
  | pragma node => [node.display]
  | importPath node => [node.display]
  | contract node => node.display :: node.members.flatMap (·.listing)
  | member node => node.listing

/-- A unit and the nodes in it. -/
def SourceUnit.listing (unit : SourceUnit) : List String :=
  unit.display :: unit.elements.flatMap (·.listing)

end Interlock.Tree
