import Interlock.Position

/-!
# Declarations of a contract source

The tree of a source unit holds its directives, its contracts and the declarations in them.
Bodies of functions and modifiers are not part of it.  What a function leaves unsaid is not
stored: its visibility and its mutability are read off the keywords that were written.
-/

namespace Interlock

/-- From where a function may be called. -/
inductive Visibility where
  | publicly
  | externally
  | internally
  | privately
  deriving DecidableEq, Repr

namespace Visibility

/-- The keyword of a visibility. -/
def word : Visibility → String
  | publicly => "public"
  | externally => "external"
  | internally => "internal"
  | privately => "private"

/-- The visibility that a keyword stands for. -/
def ofWord? (word : String) : Option Visibility :=
  [publicly, externally, internally, privately].find? (·.word = word)

end Visibility

/-- What a function may do to the state, as it can be written. -/
inductive Mutability where
  | pure
  | view
  | payable
  | constant
  | nonpayable
  deriving DecidableEq, Repr

namespace Mutability

/-- The keyword of a mutability. -/
def word : Mutability → String
  | pure => "pure"
  | view => "view"
  | payable => "payable"
  | constant => "constant"
  | nonpayable => "nonpayable"

/-- The mutability that a keyword stands for. -/
def ofWord? (word : String) : Option Mutability :=
  [pure, view, payable, constant, nonpayable].find? (·.word = word)

/-- The old keyword `constant` means the same as `view`. -/
def modern : Mutability → Mutability
  | constant => view
  | mutability => mutability

end Mutability

namespace Tree

/-- A version or feature directive. -/
structure Pragma where
  name : String
  value : String
  position : Position
  deriving DecidableEq, Repr

/-- An import of another source, by its path. -/
structure Import where
  path : String
  position : Position
  deriving DecidableEq, Repr

/-- A modifier applied in a function header; the arguments are the text between its
parentheses, if it has any. -/
structure Invocation where
  name : String
  arguments : Option String
  position : Position
  deriving DecidableEq, Repr

/-- The roles of a function definition. -/
inductive FunctionKind where
  | function
  | constructor
  | fallback
  | receive
  deriving DecidableEq, Repr

/-- The name of a role. -/
def FunctionKind.word : FunctionKind → String
  | function => "function"
  | constructor => "constructor"
  | fallback => "fallback"
  | receive => "receive"

/-- What a function of this role is called: its name, or the role in angle brackets when it has
none. -/
def FunctionKind.label (kind : FunctionKind) (name : String) : String :=
  if name = "" then "<" ++ kind.word ++ ">" else name

/-- A function, with the keywords of its header as they were written. -/
structure Function where
  name : String
  kind : FunctionKind
  parameters : String
  returnParameters : Option String
  explicitVisibility : Option Visibility
  explicitMutability : Option Mutability
  modifiers : List Invocation
  isVirtual : Bool
  overrides : Option (List String)
  hasBody : Bool
  position : Position
  deriving DecidableEq, Repr

namespace Function

/-- A function without a visibility keyword is public. -/
def visibility (function : Function) : Visibility :=
  function.explicitVisibility.getD .publicly

/-- A function without a mutability keyword may change the state but takes no payment. -/
def mutability (function : Function) : Mutability :=
  (function.explicitMutability.getD .nonpayable).modern

/-- The names of the modifiers, in order. -/
def modifierNames (function : Function) : List String :=
  function.modifiers.map (·.name)

/-- What a function is called. -/
def label (function : Function) : String := function.kind.label function.name

end Function

/-- The definition of a modifier. -/
structure Modifier where
  name : String
  parameters : Option String
  isVirtual : Bool
  position : Position
  deriving DecidableEq, Repr

/-- An event. -/
structure Event where
  name : String
  parameters : String
  isAnonymous : Bool
  position : Position
  deriving DecidableEq, Repr

/-- A record type, its members as text. -/
structure Struct where
  name : String
  members : String
  position : Position
  deriving DecidableEq, Repr

/-- An enumeration type. -/
structure Enum where
  name : String
  values : List String
  position : Position
  deriving DecidableEq, Repr

/-- A library attached to a type. -/
structure UsingFor where
  library : String
  typeName : String
  position : Position
  deriving DecidableEq, Repr

/-- A state variable, or a constant of a source unit. -/
structure Variable where
  name : String
  typeName : String
  visibility : Option Visibility
  isConstant : Bool
  isImmutable : Bool
  position : Position
  deriving DecidableEq, Repr

/-- Another declaration that ends at a semicolon: an error or a named type. -/
structure Declaration where
  keyword : String
  name : String
  text : String
  position : Position
  deriving DecidableEq, Repr

/-- A declaration that may stand in a contract. -/
inductive Member where
  | function (function : Function)
  | modifier (modifier : Modifier)
  | event (event : Event)
  | struct (struct : Struct)
  | enum (enum : Enum)
  | usingFor (directive : UsingFor)
  | stateVariable (node : Variable)
  | declaration (declaration : Declaration)
  deriving DecidableEq, Repr

/-- The three kinds of contract definitions. -/
inductive ContractKind where
  | contract
  | interface
  | library
  deriving DecidableEq, Repr

namespace ContractKind

/-- The keyword of a kind. -/
def word : ContractKind → String
  | contract => "contract"
  | interface => "interface"
  | library => "library"

/-- The kind that a keyword stands for. -/
def ofWord? (word : String) : Option ContractKind :=
  [contract, interface, library].find? (·.word = word)

end ContractKind

/-- A contract, an interface or a library, with its members in order. -/
structure Contract where
  name : String
  kind : ContractKind
  isAbstract : Bool
  bases : List String
  members : List Member
  position : Position
  deriving DecidableEq, Repr

namespace Contract

/-- The functions of a contract in order. -/
def functions (contract : Contract) : List Function :=
  contract.members.filterMap fun
    | .function function => some function
    | _ => none

/-- The first function with a given name. -/
def function? (contract : Contract) (name : String) : Option Function :=
  contract.functions.find? (·.name = name)

end Contract

/-- What may stand at the top level of a source. -/
inductive Element where
  | pragma (pragma : Pragma)
  | importPath (directive : Import)
  | contract (contract : Contract)
  | member (member : Member)
  deriving DecidableEq, Repr

/-- A source unit with its elements in order. -/
structure SourceUnit where
  filename : String
  elements : List Element
  deriving DecidableEq, Repr

namespace SourceUnit

/-- The contract definitions of every kind, in order. -/
def contracts (unit : SourceUnit) : List Contract :=
  unit.elements.filterMap fun
    | .contract contract => some contract
    | _ => none

/-- The contract definitions whose keyword is a given one. -/
def contractsOfKind (unit : SourceUnit) (word : String) : List Contract :=
  unit.contracts.filter (·.kind.word = word)

/-- The first contract definition with a given name. -/
def contract? (unit : SourceUnit) (name : String) : Option Contract :=
  unit.contracts.find? (·.name = name)

end SourceUnit

end Tree

end Interlock
