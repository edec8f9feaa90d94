import Interlock.Text.Quoted

/-!
# Switches of the command line

A switch has one or two names.  A short name is a dash and a character, a long one begins with two
dashes.  What is wrong with a command line is a refusal, and the wording of each refusal stands in
one function.
-/

namespace Interlock.CommandLine

/-- What a command line can ask for besides its operand. -/
inductive Switch where
  | help
  | version
  | config
  | verbose
  | all
  | format
  | json
  deriving DecidableEq, Repr

namespace Switch

/-- The names of a switch. -/
def names : Switch → List String
  | help => ["-h", "--help"]
  | version => ["--version"]
  | config => ["-c", "--config"]
  | verbose => ["-v", "--verbose"]
  | all => ["--all"]
  | format => ["--format"]
  | json => ["--json"]

/-- Whether a switch has a value. -/
def takesValue : Switch → Bool
  | config | format => true
  | _ => false

/-- What messages call a switch. -/
def label (switch : Switch) : String := "/".intercalate switch.names

end Switch

/-- Why a command line is refused. -/
inductive Refusal where
  | ambiguous (argument : String) (names : List String)
  | ignoredValue (switch : Switch) (value : String)
  | missingValue (switch : Switch)
  | invalidChoice (label value : String) (choices : List String)
  | missingOperand (name : String)
  | unrecognized (arguments : List String)
  deriving DecidableEq, Repr

/-- The wording of a refusal. -/
def Refusal.message : Refusal → String
  | ambiguous argument names =>
      "ambiguous option: " ++ argument ++ " could match " ++ ", ".intercalate names
  | ignoredValue switch value =>
      "argument " ++ switch.label ++ ": ignored explicit argument " ++ Text.quoted value
  | missingValue switch => "argument " ++ switch.label ++ ": expected one argument"
  | invalidChoice label value choices =>
      "argument " ++ label ++ ": invalid choice: " ++ Text.quoted value ++ " (choose from " ++
        ", ".intercalate (choices.map Text.quoted) ++ ")"
  | missingOperand name => "the following arguments are required: " ++ name
  | unrecognized arguments => "unrecognized arguments: " ++ " ".intercalate arguments

end Interlock.CommandLine
