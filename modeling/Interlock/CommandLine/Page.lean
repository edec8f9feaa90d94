import Interlock.CommandLine.Switch

/-!
# Pages of help

The program has an overview and a page for each of its commands.  A page begins with its usage,
which is also printed before a refusal.
-/

namespace Interlock.CommandLine

/-- The commands. -/
inductive Command where
  | check
  | parse
  | policy
  deriving DecidableEq, Repr

namespace Command

/-- The word for a command. -/
def word : Command → String
  | check => "check"
  | parse => "parse"
  | policy => "policy"

/-- Every command. -/
def every : List Command := [check, parse, policy]

/-- The command that a word stands for. -/
def ofWord? (word : String) : Option Command := every.find? (·.word = word)

end Command

/-- The pages. -/
inductive Page where
  | overview
  | command (chosen : Command)
  deriving DecidableEq, Repr

namespace Page

/-- What a page is about. -/
def title : Page → String
  | overview => "recovery-guard"
  | command chosen => "recovery-guard " ++ chosen.word

/-- The switches that a page lists, in the order in which names are looked up. -/
def switches : Page → List Switch
  | overview => [.help, .version]
  | command .check => [.help, .config, .verbose, .all, .format]
  | command .parse => [.help, .config, .verbose, .json]
  | command .policy => [.help, .config, .verbose]

/-- Lines, each with its end. -/
def lines (lines : List String) : String := String.join (lines.map (· ++ "\n"))

/-- The usage. -/
def usage : Page → String
  | overview => lines ["usage: recovery-guard [-h] [--version] \x7bcheck,parse,policy\x7d ..."]
  | command .check => lines
    ["usage: recovery-guard check [-h] [-c CONFIG] [-v] [--all]",
     "                            [--format \x7btext,json\x7d]",
     "                            [root]"]
  | command .parse => lines
    ["usage: recovery-guard parse [-h] [-c CONFIG] [-v] [--json] file"]
  | command .policy => lines ["usage: recovery-guard policy [-h] [-c CONFIG] [-v]"]

/-- The lines on the switches that every command has. -/
def sharedOptions : List String :=
  ["  -h, --help            show this help message and exit",
   "  -c CONFIG, --config CONFIG",
   "                        YAML policy file (default: $RECOVERY_GUARD_CONFIG or",
   "                        built-in)",
   "  -v, --verbose         Debug logging and detailed output"]

/-- What follows the usage. -/
def details : Page → String
  | overview => lines
    ["Check that contract functions respect recovery mode",
     "",
     "positional arguments:",
     "  \x7bcheck,parse,policy\x7d  Commands",
     "    check               Check a contracts tree",
     "    parse               Parse one source file",
     "    policy              Print the effective policy",
     "",
     "options:",
     "  -h, --help            show this help message and exit",
     "  --version             show program's version number and exit",
     "",
     "Examples:",
     "    recovery-guard check",
     "    recovery-guard check ./contracts --all --format json",
     "    recovery-guard parse contracts/Colony.sol",
     "    recovery-guard policy --config recovery_policy.yaml"]
  | command .check => lines <|
    ["positional arguments:",
     "  root                  Contracts root (default: contracts)",
     "",
     "options:"] ++ sharedOptions ++
    ["  --all                 Report every violation instead of stopping at the",
     "                        first",
     "  --format \x7btext,json\x7d  Output format"]
  | command .parse => lines <|
    ["positional arguments:",
     "  file                  File to parse",
     "",
     "options:"] ++ sharedOptions ++
    ["  --json                Dump the syntax tree and diagnostics as JSON"]
  | command .policy => lines ("options:" :: sharedOptions)

/-- The whole page. -/
def help (page : Page) : String := page.usage ++ "\n" ++ page.details

/-- The version that the program calls itself. -/
def version : String := "recovery-guard 0.1.0\n"

/-- What is printed for a refusal. -/
def refusal (page : Page) (refusal : Refusal) : String :=
  page.usage ++ page.title ++ ": error: " ++ refusal.message ++ "\n"

end Page

end Interlock.CommandLine
