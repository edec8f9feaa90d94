import Interlock.CommandLine.Argument
import Interlock.CommandLine.Page

/-!
# Requests

A command line is read from left to right into a request.  A request for help or for the version
ends the reading at once, and so does a refusal; arguments that nobody takes are refused together
at the end.
-/

namespace Interlock.CommandLine

/-- Why a command line is no request. -/
inductive Stop where
  | help (page : Page)
  | version
  | refused (page : Page) (refusal : Refusal)
  deriving DecidableEq, Repr

/-- The value of a switch that was set. -/
structure Setting where
  switch : Switch
  value : Option String
  deriving DecidableEq, Repr

/-- The words for the formats of a report. -/
def formats : List String := ["text", "json"]

/-- What one argument leads to: the settings that it makes, whether it uses up the argument behind
it, and what nobody takes of it. -/
structure Effect where
  settings : List Setting
  usesNext : Bool
  extras : List String
  deriving DecidableEq, Repr

/-- A switch that nothing is attached to: its value is the argument behind it. -/
def detached (next : Option Argument) (switch : Switch) : Except Refusal Effect :=
  if !switch.takesValue then .ok ⟨[⟨switch, none⟩], false, []⟩
  else
    match next with
    | some ⟨text, .plain⟩ => .ok ⟨[⟨switch, some text⟩], true, []⟩
    | _ => .error (.missingValue switch)

/-- A switch with a value attached to it. -/
def attached (switch : Switch) (value : String) : Except Refusal Effect :=
  if switch.takesValue then .ok ⟨[⟨switch, some value⟩], false, []⟩
  else .error (.ignoredValue switch value)

/-- A switch with characters directly behind its short name.  They are its value, or else the short
names of further switches; from a letter on that is no name, nobody takes them. -/
def bundle (switches : List Switch) (next : Option Argument) (switch : Switch)
    (chars : List Char) : Except Refusal Effect :=
  match chars with
  | [] => detached next switch
  | '=' :: value => attached switch (String.ofList value)
  | c :: rest =>
      if switch.takesValue || c = '-' then attached switch (String.ofList (c :: rest))
      else
        match switch? switches (String.ofList ['-', c]) with
        | none => .ok ⟨[⟨switch, none⟩], false, [String.ofList ('-' :: c :: rest)]⟩
        | some following => do
            let effect ← bundle switches next following rest
            return { effect with settings := ⟨switch, none⟩ :: effect.settings }

/-- What a switch with a tail leads to. -/
def Tail.effect (switches : List Switch) (next : Option Argument) (switch : Switch) :
    Tail → Except Refusal Effect
  | none => detached next switch
  | value text => attached switch text
  | joined chars => bundle switches next switch chars

/-- What a page's command works on. -/
inductive Operand where
  | absent
  | optional
  | required (name : String)
  /-- A command, which all further arguments belong to. -/
  | command
  deriving DecidableEq, Repr

/-- The operand of each page. -/
def Page.operand : Page → Operand
  | overview => .command
  | command .check => .optional
  | command .parse => .required "file"
  | command .policy => .absent

/-- What has been read of a command line: the settings, the operand, the arguments that belong to
it, and those that nobody takes. -/
structure Intake where
  pending : Operand
  settings : List Setting
  operand : Option String
  inner : List String
  extras : List String
  deriving DecidableEq, Repr

namespace Intake

/-- Nothing has been read. -/
def start (page : Page) : Intake := ⟨page.operand, [], none, [], []⟩

/-- Makes one setting. -/
def set (page : Page) (intake : Intake) (setting : Setting) : Except Stop Intake :=
  match setting with
  | ⟨.help, _⟩ => .error (.help page)
  | ⟨.version, _⟩ => .error .version
  | ⟨.format, some value⟩ =>
      if formats.contains value then
        .ok { intake with settings := intake.settings ++ [setting] }
      else .error (.refused page (.invalidChoice Switch.format.label value formats))
  | _ => .ok { intake with settings := intake.settings ++ [setting] }

/-- Leaves arguments that nobody takes. -/
def leave (intake : Intake) (texts : List String) : Intake :=
  { intake with extras := intake.extras ++ texts }

/-- Takes the operand. -/
def take (intake : Intake) (text : String) : Intake :=
  { intake with pending := .absent, operand := some text }

/-- Takes a command and all that follows it. -/
def enter (intake : Intake) (text : String) (inner : List Argument) : Intake :=
  { intake with pending := .absent, operand := some text, inner := inner.map (·.text) }

/-- The arguments behind a divider that directly follows. -/
def pastDivider : List Argument → List Argument
  | ⟨_, .divider⟩ :: rest => rest
  | arguments => arguments

theorem pastDivider_length_le (arguments : List Argument) :
    (pastDivider arguments).length ≤ arguments.length := by
  unfold pastDivider
  split <;> simp

/-- Reads the arguments behind a divider, which are all plain. -/
def readPlain (intake : Intake) (arguments : List Argument) : Intake :=
  match intake.pending, arguments with
  | .command, first :: rest => intake.enter "--" (first :: rest)
  | .optional, [] => { intake with pending := .absent }
  | .optional, first :: rest => (intake.take first.text).leave (rest.map (·.text))
  | .required _, first :: rest => (intake.take first.text).leave (rest.map (·.text))
  | _, arguments => intake.leave ("--" :: arguments.map (·.text))

/-- Reads arguments. -/
def read (page : Page) (intake : Intake) : List Argument → Except Stop Intake
  | [] => .ok intake
  | ⟨text, role⟩ :: rest =>
      match role with
      | .unknown => read page (intake.leave [text]) rest
      | .divider => .ok (intake.readPlain rest)
      | .plain =>
          match intake.pending with
          | .absent => read page (intake.leave [text]) rest
          | .command => .ok (intake.enter text rest)
          | _ => read page (intake.take text) (pastDivider rest)
      | .switch switch _ tail =>
          match tail.effect page.switches rest.head? switch with
          | .error refusal => .error (.refused page refusal)
          | .ok effect => do
              let intake ← effect.settings.foldlM (Intake.set page) (intake.leave effect.extras)
              if effect.usesNext then read page intake rest.tail else read page intake rest
termination_by arguments => arguments.length
decreasing_by
  all_goals
    have := pastDivider_length_le rest
    simp only [List.length_cons, List.length_tail]
    omega

/-- Reads a command line for a page.  An operand that is missing is refused. -/
def ofTexts (page : Page) (texts : List String) : Except Stop Intake :=
  match arguments page.switches texts with
  | .error refusal => .error (.refused page refusal)
  | .ok arguments => do
      let intake ← (start page).read page arguments
      match intake.pending with
      | .required name => .error (.refused page (.missingOperand name))
      | _ => .ok intake

/-- Whether a switch was set. -/
def isSet (intake : Intake) (switch : Switch) : Bool :=
  intake.settings.any (·.switch = switch)

/-- The last setting of a switch. -/
def last? (intake : Intake) (switch : Switch) : Option Setting :=
  intake.settings.reverse.find? (·.switch = switch)

end Intake

/-- How a report is printed. -/
inductive Format where
  | text
  | json
  deriving DecidableEq, Repr

/-- What is to be done. -/
inductive Job where
  | check (root : String) (all : Bool) (format : Format)
  | parse (file : String) (json : Bool)
  | policy
  deriving DecidableEq, Repr

/-- A command line that has been understood; it may name the file of the policy. -/
structure Request where
  job : Job
  policyFile : Option String
  verbose : Bool
  deriving DecidableEq, Repr

/-- The root that is checked when none is named. -/
def defaultRoot : String := "contracts"

/-- The job that a command has with what was read for it. -/
def Command.job (command : Command) (intake : Intake) : Job :=
  match command with
  | .check =>
      .check (intake.operand.getD defaultRoot) (intake.isSet .all)
        (if (intake.last? .format).any (·.value = some "json") then .json else .text)
  | .parse => .parse (intake.operand.getD "") (intake.isSet .json)
  | .policy => .policy

/-- The file of the policy that the settings name. -/
def Intake.policyFile (intake : Intake) : Option String :=
  (intake.last? .config).bind (·.value)

/-- Reads a command line.  Without a command it asks for the overview. -/
def Request.ofTexts (texts : List String) : Except Stop Request := do
  let outer ← Intake.ofTexts .overview texts
  match outer.operand with
  | none =>
      if outer.extras.isEmpty then .error (.help .overview)
      else .error (.refused .overview (.unrecognized outer.extras))
  | some word =>
      match Command.ofWord? word with
      | none =>
          .error (.refused .overview
            (.invalidChoice "command" word (Command.every.map (·.word))))
      | some command =>
          let inner ← Intake.ofTexts (.command command) outer.inner
          let extras := outer.extras ++ inner.extras
          if extras.isEmpty then
            .ok ⟨command.job inner, inner.policyFile, inner.isSet .verbose⟩
          else .error (.refused .overview (.unrecognized extras))

end Interlock.CommandLine
