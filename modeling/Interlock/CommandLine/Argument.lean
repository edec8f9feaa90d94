import Interlock.CommandLine.Switch
import Interlock.Text.Numeral

/-!
# Roles of arguments

Each argument of a command line has a role, which depends on the switches that the command knows.
Behind the divider `--` every argument is plain.  A long name may be cut short as long as it fits
one switch only.  An argument that looks like a negative number or has a space in it is plain when
no switch fits it.
-/

namespace Interlock.CommandLine

/-- What follows the name of a switch in one argument. -/
inductive Tail where
  | none
  /-- A value behind an equals sign. -/
  | value (text : String)
  /-- Characters directly behind a short name. -/
  | joined (chars : List Char)
  deriving DecidableEq, Repr

/-- What an argument is for. -/
inductive Role where
  | plain
  | divider
  /-- A switch under one of its names. -/
  | switch (switch : Switch) (name : String) (tail : Tail)
  /-- A dash and something that no switch fits. -/
  | unknown
  deriving DecidableEq, Repr

/-- An argument with its role. -/
structure Argument where
  text : String
  role : Role
  deriving DecidableEq, Repr

/-- Every name of some switches, in order. -/
def named (switches : List Switch) : List (String × Switch) :=
  switches.flatMap fun switch => switch.names.map (·, switch)

/-- The switch with a given name. -/
def switch? (switches : List Switch) (name : String) : Option Switch :=
  ((named switches).find? (·.1 = name)).map (·.2)

/-- The part of an argument before its first equals sign, and what is left. -/
def divided (argument : String) : String × Tail :=
  match argument.toList.span (· ≠ '=') with
  | (name, []) => (String.ofList name, .none)
  | (name, _ :: value) => (String.ofList name, .value (String.ofList value))

/-- Whether a text begins with another one. -/
def begins (start text : String) : Bool := start.toList.isPrefixOf text.toList

/-- The switches that an argument may stand for when it is no full name, each with the name that
fits. -/
def candidates (switches : List Switch) (argument : String) : List Role :=
  match argument.toList with
  | '-' :: '-' :: _ =>
      let (start, tail) := divided argument
      (named switches).filterMap fun (name, switch) =>
        if begins start name then some (.switch switch name tail) else none
  | '-' :: c :: chars =>
      (named switches).filterMap fun (name, switch) =>
        if name = String.ofList ['-', c] then some (.switch switch name (.joined chars))
        else if begins argument name then some (.switch switch name .none)
        else none
  | _ => []

/-- Whether digits, with a point before the last of them or without one, make up a whole text. -/
def isAmount (chars : List Char) : Bool :=
  match chars.dropWhile Text.isDecimal with
  | [] => !chars.isEmpty
  | '.' :: places => !places.isEmpty && places.all Text.isDecimal
  | _ => false

/-- A text without one line feed at its end. -/
def withoutLineEnd (chars : List Char) : List Char :=
  if chars.getLast? = some '\n' then chars.dropLast else chars

/-- Whether an argument looks like a negative number. -/
def isNegative (argument : String) : Bool :=
  match argument.toList with
  | '-' :: rest => isAmount (withoutLineEnd rest)
  | _ => false

/-- The name that a role gives to its switch. -/
def Role.name? : Role → Option String
  | switch _ name _ => some name
  | _ => none

/-- The role of an argument before the divider. -/
def role (switches : List Switch) (argument : String) : Except Refusal Role :=
  match argument.toList with
  | '-' :: _ :: _ =>
      match switch? switches argument, divided argument with
      | some switch, _ => .ok (.switch switch argument .none)
      | none, (name, tail) =>
          match switch? switches name, candidates switches argument with
          | some switch, _ => .ok (.switch switch name tail)
          | none, [] =>
              .ok (if isNegative argument || argument.toList.contains ' ' then .plain else .unknown)
          | none, [candidate] => .ok candidate
          | none, candidates => .error (.ambiguous argument (candidates.filterMap (·.name?)))
  | _ => .ok .plain

/-- The arguments of a command line with their roles. -/
def arguments (switches : List Switch) : List String → Except Refusal (List Argument)
  | [] => .ok []
  | text :: rest =>
      if text = "--" then .ok (⟨text, .divider⟩ :: rest.map fun text => ⟨text, .plain⟩)
      else do
        let role ← role switches text
        return ⟨text, role⟩ :: (← arguments switches rest)

end Interlock.CommandLine
