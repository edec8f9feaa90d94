import Interlock.CommandLine
import Interlock.Proofs.Console
import Interlock.Proofs.Primary
import Interlock.Proofs.Relaxation
import Interlock.Proofs.Room
import Interlock.Yaml.Library

/-!
# What a status tells

A check ends with the status for violations exactly when the tree has some under the chosen
policy and the console takes their report, which is then the output.  Without violations there is
no output, and the same holds when something fails on the way: nothing of what was found before a
failure is printed, and a report that the console refuses is such a failure.  Parsing a file and
printing a policy never end with the status for violations.
-/

namespace Interlock.CommandLine

/-- What a check of a tree finds under a chosen policy: the violations, or the failure to load the
policy, to enumerate the files, to read one of them or to parse it. -/
def findings [StackRoom] (yaml : YamlLibrary) (system : FileSystem)
    (named environment : Option String) (root : String) (all : Bool) :
    Except Failure (List Violation) := do
  let policy ← (Policy.load yaml system named environment).1
  (policy.checkTree system root all).result

/-- The status of a check that was completed, and the texts that it prints. -/
def Format.verdict (format : Format) (verbose : Bool) : List Violation → Nat × List String
  | [] => (allGood, [])
  | violations => (someViolated, printed [format.report verbose violations])

section Work

variable [StackRoom] {yaml : YamlLibrary} {console : Console} {system : FileSystem}
  {environment : Option String} {policy : Policy} {verbose : Bool}

section Parse

variable {file : String} {source : SourceFile} (loaded : system.load file = .ok source)
include loaded

theorem summary_result :
    (parse system policy file false).result =
      ((Reading.ofSource source.key source.text).tree source.key).map fun unit =>
        (allGood, printed (policy.summary file unit)) := by
  rw [parse, loaded]
  rfl

end Parse

end Work

/-! ## Outcomes -/

/-- The outcome of a failure: nothing is printed but the log and, as the last line of the error
stream, the failure. -/
structure Outcome.Fails (outcome : Outcome) (failure : Failure) : Prop where
  status : outcome.status = notDone
  output : outcome.output = ""
  errors : ∃ log reason, failureLine failure = "error: " ++ reason ∧
    outcome.errors = Page.lines (log ++ ["error: " ++ reason])

section Outcome

variable {console : Console} {work : Work} {verbose : Bool} {status : Nat} {texts : List String}

end Outcome

/-! ## Command lines -/

section Run

variable [StackRoom] {yaml : YamlLibrary} {console : Console} {system : FileSystem}
  {environment : Option String} {texts : List String} {request : Request}

section Forms

variable {file : String} {others : List String} {other : Request}
variable (understood : Request.ofTexts texts = .ok request)
  (isDump : request.job = .parse file true)
variable (alsoUnderstood : Request.ofTexts others = .ok other)
  (isSummary : other.job = .parse file false)
variable (samePolicy : other.policyFile = request.policyFile)
include understood isDump alsoUnderstood isSummary samePolicy

end Forms

end Run

end Interlock.CommandLine

namespace Interlock

/-! ## A sample -/

/-- A console that takes plain ASCII only. -/
def CommandLine.Console.ascii : Console where
  refusal? text := if IsAscii text then none else some "'ascii' codec can't encode"
  takes_ascii _ ascii := if_pos ascii

end Interlock
