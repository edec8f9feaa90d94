import Interlock.Check
import Interlock.CommandLine.Console
import Interlock.CommandLine.Request
import Interlock.Policy.Load
import Interlock.Summary

/-!
# The command line

A command line is answered with a status, an output and what goes to the error stream.  The status
is zero when everything complies, one for violations, and two when the command line was refused or
the work could not be done, which includes an output that the console refuses.  The error stream
holds the log records that are shown, in order, and then the failure, if there is one.
-/

namespace Interlock.CommandLine

/-- The status when everything complies. -/
def allGood : Nat := 0

/-- The status for violations. -/
def someViolated : Nat := 1

/-- The status when nothing could be decided. -/
def notDone : Nat := 2

/-- What a command line leads to. -/
structure Outcome where
  status : Nat
  output : String
  errors : String
  deriving DecidableEq, Repr

/-- The status of a job and the texts that it prints, or its failure, and the log. -/
structure Work where
  result : Except Failure (Nat × List String)
  log : List LogRecord

/-- The texts that print lines: the end of a line is a text of its own. -/
def printed (lines : List String) : List String := lines.flatMap fun line => [line, "\n"]

/-- A report in a given format. -/
def Format.report (format : Format) (verbose : Bool) (violations : List Violation) : String :=
  match format with
  | text => Report.sentences verbose violations
  | json => Report.jsonLines violations

variable [StackRoom]

/-- Checks a tree of files. -/
def check (system : FileSystem) (policy : Policy) (verbose : Bool) (root : String)
    (all : Bool) (format : Format) : Work :=
  let trace := policy.checkTree system root all
  match trace.result with
  | .error failure => ⟨.error failure, trace.log⟩
  | .ok [] => ⟨.ok (allGood, []), trace.log ++ [.compliant root]⟩
  | .ok violations =>
      ⟨.ok (someViolated, printed [format.report verbose violations]), trace.log⟩

/-- The reading of a file that is parsed.  For the tree it is read by the command itself, for the
summary in one more call, which fails if there are errors. -/
def reading (source : SourceFile) : Bool → Reading
  | true => @Reading.ofSource StackRoom.outer source.key source.text
  | false => Reading.ofSource source.key source.text

/-- Parses one file and prints its tree, or its summary line by line. -/
def parse (system : FileSystem) (policy : Policy) (file : String) (json : Bool) : Work :=
  match system.load file with
  | .error failure => ⟨.error failure, []⟩
  | .ok source =>
      let reading := reading source json
      if json then
        if reading.gaveUp then ⟨.error .tooDeep, []⟩
        else
          let status := if reading.success then allGood else notDone
          ⟨.ok (status, printed [reading.toJson.indented]), []⟩
      else
        let result := (reading.tree source.key).map fun unit =>
          (allGood, printed (policy.summary file unit))
        ⟨result, reading.log source.key⟩

/-- Does a job under a policy. -/
def Job.work (yaml : YamlLibrary) (system : FileSystem) (policy : Policy) (verbose : Bool) :
    Job → Work
  | .check root all format => CommandLine.check system policy verbose root all format
  | .parse file json => CommandLine.parse system policy file json
  | .policy => ⟨.ok (allGood, [policy.toYaml yaml]), []⟩

/-- Does what a request asks for.  The policy comes first, and the job only when it is there. -/
def Request.work (yaml : YamlLibrary) (system : FileSystem) (environment : Option String)
    (request : Request) : Work :=
  match Policy.load yaml system request.policyFile environment with
  | (.error failure, log) => ⟨.error failure, log⟩
  | (.ok policy, log) =>
      let work := request.job.work yaml system policy request.verbose
      { work with log := log ++ work.log }

/-- The line that reports a failure.  An unforeseen one is reported with its name. -/
def failureLine (failure : Failure) : String :=
  if failure.isExpected then "error: " ++ failure.message
  else "error: " ++ failure.label ++ ": " ++ failure.message

/-- The error stream of work with some log, which ends with the failure, if there is one. -/
def errorLines (verbose : Bool) (log : List LogRecord) (failure : Option Failure) : List String :=
  let unforeseen := failure.any (!·.isExpected)
  let log := log ++ if unforeseen then [.unexpectedFailure] else []
  (LogRecord.shown verbose log).map (·.display) ++ failure.toList.map failureLine

/-- The outcome of work on a console.  What is printed before a text is refused stays. -/
def Work.outcome (console : Console) (verbose : Bool) (work : Work) : Outcome :=
  let errors (failure : Option Failure) := Page.lines (errorLines verbose work.log failure)
  match work.result with
  | .error failure => ⟨notDone, "", errors failure⟩
  | .ok (status, texts) =>
      match console.print texts with
      | (output, none) => ⟨status, output, errors none⟩
      | (output, some failure) => ⟨notDone, output, errors failure⟩

/-- The outcome of a command line that is no request. -/
def Stop.outcome : Stop → Outcome
  | help page => ⟨allGood, page.help, ""⟩
  | version => ⟨allGood, Page.version, ""⟩
  | refused page refusal => ⟨notDone, "", page.refusal refusal⟩

/-- Answers a command line.  `environment` is the policy file that the environment names. -/
def run (yaml : YamlLibrary) (console : Console) (system : FileSystem)
    (environment : Option String) (texts : List String) : Outcome :=
  match Request.ofTexts texts with
  | .error stop => stop.outcome
  | .ok request =>
      (request.work yaml system environment).outcome console request.verbose

/-- The paths that a request reads: its policy file and what it works on. -/
def Request.paths (environment : Option String) (request : Request) : List String :=
  let operand :=
    match request.job with
    | .check root _ _ => some root
    | .parse file _ => some file
    | .policy => none
  (Policy.fileName? request.policyFile environment).toList ++ operand.toList

end Interlock.CommandLine
