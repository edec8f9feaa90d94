import Interlock.Proofs.Exclusion
import Interlock.Proofs.Primary

/-!
# What a check does not depend on

The result of a check depends on the files that are source files and not excluded, and on no
others.  The first violation does not even depend on the files behind the one that it is found
in.  Within a file nothing matters that stands behind the primary contract, as long as the file
is read without errors.
-/

namespace Interlock

/-! ## Outcomes -/

namespace Trace

/-- What a check has found and how it ended, without its log. -/
def outcome (trace : Trace) : List Violation × Option Failure := (trace.violations, trace.failure)

theorem outcome_followedBy {first second third fourth : Trace}
    (head : first.outcome = second.outcome) (tail : third.outcome = fourth.outcome) :
    (first.followedBy third).outcome = (second.followedBy fourth).outcome := by
  obtain ⟨violations, log, failure⟩ := first
  obtain ⟨otherViolations, otherLog, otherFailure⟩ := second
  obtain ⟨rfl, rfl⟩ := Prod.mk.inj head
  obtain ⟨more, ended⟩ := Prod.mk.inj tail
  cases failure with
  | some failure => rfl
  | none => simp [followedBy, after, outcome, more, ended]

theorem result_eq_of_outcome {first second : Trace} (same : first.outcome = second.outcome) :
    first.result = second.result := by
  obtain ⟨violations, failure⟩ := Prod.mk.inj same
  rw [result, result, violations, failure]

end Trace

namespace Policy

variable [StackRoom] {policy : Policy} {left right : FileSystem} {paths : List String}

/-- Files with the same outcomes have the same outcome together. -/
theorem outcome_check
    (each : ∀ path ∈ paths,
      (policy.checkFile right path).outcome = (policy.checkFile left path).outcome) :
    (policy.check right none paths).outcome = (policy.check left none paths).outcome := by
  induction paths with
  | nil => rw [check_nil, check_nil]
  | cons path paths ih =>
      rw [check_none_cons, check_none_cons]
      apply Trace.outcome_followedBy
      · exact each path List.mem_cons_self
      · exact ih fun other member => each other (List.mem_cons_of_mem _ member)

theorem evaluate_eq_of_outcome
    (same : (policy.check right none paths).outcome = (policy.check left none paths).outcome) :
    policy.evaluate right paths = policy.evaluate left paths := by
  rw [evaluate_eq, evaluate_eq, collect, collect, Trace.result_eq_of_outcome same,
    (Prod.mk.inj same).1]

end Policy

/-! ## Files that are alike -/

/-- Two texts that are the same up to the end of their primary contract at least, and that are
both read without errors. -/
structure SameToPrimary [StackRoom] (key text other : String) : Prop where
  upTo : ∃ front back more contract, text = front ++ back ∧ other = front ++ more ∧
    HasPrimary key front contract
  reads : (Reading.ofSource key text).success = true
  readsOther : (Reading.ofSource key other).success = true

theorem SameToPrimary.outcome_checkSource [StackRoom] {key text other : String}
    (same : SameToPrimary key text other) (policy : Policy) :
    (policy.checkSource key other).outcome = (policy.checkSource key text).outcome := by
  obtain ⟨⟨front, back, more, contract, rfl, rfl, judged⟩, reads, readsOther⟩ := same
  obtain ⟨violations, completed⟩ := policy.checkSource_of_hasPrimary (judged.append reads)
  obtain ⟨again, completedOther⟩ := policy.checkSource_of_hasPrimary (judged.append readsOther)
  rw [Trace.outcome, Trace.outcome, violations, completed, again, completedOther]

/-- Two file systems that a policy cannot tell apart at a path.  It is known by the same key, and if
that is the key of a source file that is not excluded, then it has the same content, or a text
that differs behind its primary contract only. -/
structure Policy.Alike [StackRoom] (policy : Policy) (left right : FileSystem)
    (path : String) : Prop where
  key : right.key path = left.key path
  text : policy.isSource (left.key path) = true → policy.isExcluded (left.key path) = false →
    right.content (Path.parse path) = left.content (Path.parse path) ∨
      ∃ file other, left.load path = .ok file ∧ right.load path = .ok other ∧
        SameToPrimary (left.key path) file.text other.text

theorem FileSystem.load_eq_of_content {left right : FileSystem} {path : String}
    (key : right.key path = left.key path)
    (content : right.content (Path.parse path) = left.content (Path.parse path)) :
    right.load path = left.load path := by
  rw [load, load, content, key_display_parse, key_display_parse, key]

namespace Policy

variable [StackRoom] {policy : Policy} {left right : FileSystem}

/-- Where file systems are alike a file has the same outcome. -/
theorem Alike.outcome_checkFile {path : String} (alike : policy.Alike left right path) :
    (policy.checkFile right path).outcome = (policy.checkFile left path).outcome := by
  cases source : policy.isSource (left.key path) with
  | false =>
      rw [checkFile_of_other source, checkFile_of_other (alike.key.symm ▸ source)]
  | true =>
  cases excluded : policy.isExcluded (left.key path) with
  | true =>
      rw [checkFile_of_excluded source excluded, checkFile_of_excluded (alike.key.symm ▸ source)
        (alike.key.symm ▸ excluded), alike.key]
  | false =>
  obtain content | ⟨file, other, loaded, loadedOther, same⟩ := alike.text source excluded
  · rw [checkFile, checkFile, alike.key, FileSystem.load_eq_of_content alike.key content]
  · rw [checkFile_of_load source excluded loaded, checkFile_of_load (alike.key.symm ▸ source)
      (alike.key.symm ▸ excluded) loadedOther, FileSystem.key_of_load loaded,
      FileSystem.key_of_load loadedOther, alike.key]
    exact same.outcome_checkSource policy

/-- Where file systems are alike, so are all violations and the first one. -/
theorem collect_and_evaluate_of_alike {paths : List String}
    (alike : ∀ path ∈ paths, policy.Alike left right path) :
    policy.collect right paths = policy.collect left paths ∧
      policy.evaluate right paths = policy.evaluate left paths := by
  have same := outcome_check fun path member => (alike path member).outcome_checkFile
  exact ⟨Trace.result_eq_of_outcome same, evaluate_eq_of_outcome same⟩

/-! ## The file of the first violation -/

/-- The first violation is found at a path: there is none at the paths in front of it. -/
structure FirstAt (policy : Policy) (system : FileSystem) (violation : Violation)
    (earlier : List String) (path : String) : Prop where
  passes : policy.evaluate system earlier = .ok none
  found : policy.evaluate system [path] = .ok (some violation)

variable {system : FileSystem} {violation : Violation} {earlier paths : List String}
variable {path : String}

theorem FirstAt.evaluate (first : policy.FirstAt system violation earlier path)
    (later : List String) :
    policy.evaluate system (earlier ++ path :: later) = .ok (some violation) := by
  rw [evaluate_append, first.passes, ← List.singleton_append]
  change policy.evaluate system ([path] ++ later) = _
  rw [evaluate_append, first.found]
  rfl

/-- A first violation is found somewhere. -/
theorem exists_firstAt (found : policy.evaluate system paths = .ok (some violation)) :
    ∃ earlier path later, paths = earlier ++ path :: later ∧
      policy.FirstAt system violation earlier path := by
  induction paths with
  | nil =>
      rw [evaluate, check_nil] at found
      cases found
  | cons path paths ih =>
      rw [← List.singleton_append, evaluate_append] at found
      cases own : policy.evaluate system [path] with
      | error failure =>
          rw [own] at found
          cases found
      | ok answer =>
          rw [own] at found
          cases answer with
          | some violation =>
              cases found
              refine ⟨[], path, paths, rfl, ?_, own⟩
              rw [evaluate, check_nil]
              rfl
          | none =>
              obtain ⟨earlier, other, later, rfl, passes, first⟩ := ih found
              refine ⟨path :: earlier, other, later, rfl, ?_, first⟩
              rw [← List.singleton_append, evaluate_append, own]
              exact passes

/-- The file that a violation is found in is read without errors and has a primary contract. -/
theorem hasPrimary_of_evaluate (found : policy.evaluate system [path] = .ok (some violation)) :
    ∃ file contract, system.load path = .ok file ∧ HasPrimary file.key file.text contract := by
  obtain ⟨others, violations⟩ := (policy.evaluate_eq_some_iff system).1 found
  rw [check_single] at violations
  have member : violation ∈ (policy.checkFile system path).violations := by simp [violations]
  obtain ⟨file, loaded, own⟩ := exists_file_of_mem_checkFile member
  obtain ⟨contract, judged⟩ := hasPrimary_of_mem own
  exact ⟨file, contract, loaded, judged⟩

/-- Irrelevant text has no influence.  File systems that a policy cannot tell apart at any of some
paths have the same violations there, or the same failure, and the same first violation.  A first
violation is found at some path, in a file with a primary contract, and it stays the first one
in every file system that cannot be told apart up to that path, whatever the paths behind it
hold.  A source with a primary contract can be cut off behind it, so that everything behind it
may differ. -/
theorem irrelevant_text_has_no_influence (policy : Policy) (left right : FileSystem) :
    (∀ paths, (∀ path ∈ paths, policy.Alike left right path) →
      policy.collect right paths = policy.collect left paths ∧
      policy.evaluate right paths = policy.evaluate left paths) ∧
    (∀ paths violation, policy.evaluate left paths = .ok (some violation) →
      ∃ earlier path later file contract, paths = earlier ++ path :: later ∧
        policy.FirstAt left violation earlier path ∧ left.load path = .ok file ∧
        HasPrimary file.key file.text contract) ∧
    (∀ violation earlier path, policy.FirstAt left violation earlier path →
      (∀ other ∈ earlier ++ [path], policy.Alike left right other) →
      ∀ later, policy.evaluate right (earlier ++ path :: later) = .ok (some violation)) ∧
    ∀ key text contract, HasPrimary key text contract →
      ∃ front back before, text = front ++ back ∧
        front.toList.getLast? = some Bracket.brace.closer ∧
        (Reading.ofSource key front).tree key = .ok ⟨key, before ++ [.contract contract]⟩ ∧
        HasPrimary key front contract := by
  refine ⟨fun paths => collect_and_evaluate_of_alike, ?_, ?_, fun _ _ _ => HasPrimary.cut⟩
  · intro paths violation found
    obtain ⟨earlier, path, later, rfl, first⟩ := exists_firstAt found
    obtain ⟨file, contract, loaded, judged⟩ := hasPrimary_of_evaluate first.found
    exact ⟨earlier, path, later, file, contract, rfl, first, loaded, judged⟩
  · intro violation earlier path first alike later
    have passes := (collect_and_evaluate_of_alike fun other member =>
      alike other (List.mem_append_left _ member)).2.trans first.passes
    have found := (collect_and_evaluate_of_alike fun other member =>
      alike other (List.mem_append_right _ member)).2.trans first.found
    exact FirstAt.evaluate ⟨passes, found⟩ later

end Policy

/-! ## A sample -/

/-- A file that is excluded and cannot be parsed, and one that goes on behind its primary
contract. -/
def otherSystem : FileSystem :=
  .ofFiles
    [("Old.sol", "contract"),
     ("A.sol", "contract A \x7b function f() public; \x7d contract Z \x7b function g(); \x7d")]

theorem key_oldSample : sampleSystem.key "Old.sol" = "Old.sol" := by
  have named : FileSystem.IsFileName "Old.sol" := by decide +kernel
  exact FileSystem.key_ofFiles named named.plain

open StackRoom in
/-- The excluded file is not looked at, and the other one differs behind its primary contract. -/
theorem otherSystem_alike :
    ∀ path ∈ ["Old.sol", "A.sol"], samplePolicy.Alike sampleSystem otherSystem path := by
  have named : FileSystem.IsFileName "A.sol" := by decide +kernel
  have key : sampleSystem.key "A.sol" = "A.sol" := FileSystem.key_ofFiles named named.plain
  have excluded : samplePolicy.isExcluded "Old.sol" = true := by decide +kernel
  have found : sampleViolation ∈ (samplePolicy.checkSource "A.sol"
      "contract A \x7b function f() public; \x7d").violations := by decide +kernel
  obtain ⟨contract, judged⟩ := Policy.hasPrimary_of_mem found
  intro path member
  refine ⟨rfl, fun _ included => ?_⟩
  rcases List.mem_pair.1 member with rfl | rfl
  · rw [key_oldSample, excluded] at included
    cases included
  · refine .inr ⟨_, _, FileSystem.load_ofFiles named named.plain rfl,
      FileSystem.load_ofFiles named named.plain rfl, ?_, ?_, ?_⟩
    · rw [key]
      exact ⟨_, "", " contract Z \x7b function g(); \x7d", contract, by decide +kernel,
        by decide +kernel, judged⟩
    · rw [key]
      decide +kernel
    · rw [key]
      decide +kernel

open StackRoom in
/-- Neither what is excluded nor what stands behind the contract or in a later file changes the
first violation. -/
theorem otherSystem_same_violation :
    samplePolicy.evaluate sampleSystem ["Old.sol", "A.sol", "C.sol"] =
        .ok (some sampleViolation) ∧
      samplePolicy.evaluate otherSystem ["Old.sol", "A.sol", "C.sol"] =
        .ok (some sampleViolation) ∧
      samplePolicy.collect otherSystem ["Old.sol", "A.sol"] =
        samplePolicy.collect sampleSystem ["Old.sol", "A.sol"] := by
  have passes : samplePolicy.evaluate sampleSystem ["Old.sol"] = .ok none := by
    rw [Policy.evaluate_eq_none_iff, Policy.collect_single, Policy.checkFile, key_oldSample]
    decide +kernel
  have found : samplePolicy.evaluate sampleSystem ["A.sol"] = .ok (some sampleViolation) := by
    rw [Policy.evaluate_eq_some_iff, Policy.check_single, checkFile_sample (by decide +kernel)]
    exact ⟨[], rfl⟩
  have first : samplePolicy.FirstAt sampleSystem sampleViolation ["Old.sol"] "A.sol" :=
    ⟨passes, found⟩
  obtain ⟨same, -, stays, -⟩ :=
    Policy.irrelevant_text_has_no_influence samplePolicy sampleSystem otherSystem
  exact ⟨first.evaluate ["C.sol"], stays _ _ _ first otherSystem_alike ["C.sol"],
    (same _ otherSystem_alike).1⟩

end Interlock
