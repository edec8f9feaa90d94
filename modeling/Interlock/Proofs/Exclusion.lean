import Interlock.Proofs.Path
import Interlock.Proofs.Stream

/-!
# Excluding files

A file is reported under the key that exclusion lists are searched for, however its path is
spelled.  Excluding a path that stands in a report therefore takes the violations at that path
out of the report, and leaves all others as they are.
-/

namespace Interlock

/-- A path keeps its key when it is written out plainly. -/
theorem FileSystem.key_display_parse (system : FileSystem) (path : String) :
    system.key (Path.parse path).display = system.key path :=
  Path.key_display_parse system.workingDirectory path

/-- A file is known by the key of the path that it was read from. -/
theorem FileSystem.key_of_load {system : FileSystem} {path : String} {file : SourceFile}
    (loaded : system.load path = .ok file) : file.key = system.key path := by
  rw [load] at loaded
  split at loaded
  · cases loaded
  · split at loaded
    · rw [← system.key_display_parse path, ← Except.ok.inj loaded]
    · cases loaded

namespace Policy

variable [StackRoom] {policy : Policy} {system : FileSystem} {path : String} {violation : Violation}

theorem path_of_mem_checkSource {text : String}
    (member : violation ∈ (policy.checkSource path text).violations) : violation.path = path := by
  revert member
  fun_cases policy.checkSource path text with
  | case1 => simp
  | case2 => simp
  | case3 reading log unit tree contract =>
      intro member
      obtain ⟨function, -, rfl⟩ := List.mem_map.1 member
      rfl

/-- Violations are reported at the key of their file. -/
theorem path_of_mem_checkFile
    (member : violation ∈ (policy.checkFile system path).violations) :
    violation.path = system.key path := by
  obtain ⟨file, loaded, own⟩ := exists_file_of_mem_checkFile member
  exact (path_of_mem_checkSource own).trans (FileSystem.key_of_load loaded)

omit [StackRoom] in
theorem isExcluded_withExclusions {keys : List String} {key : String} :
    (policy.withExclusions keys).isExcluded key = true ↔
      key ∈ keys ∨ policy.isExcluded key = true := by
  rw [isExcluded, isExcluded, decide_eq_true_iff, decide_eq_true_iff]
  exact WordSet.mem_insertAll

/-- Excluding keys changes nothing about the other files. -/
theorem checkFile_withExclusions {keys : List String} (other : system.key path ∉ keys) :
    (policy.withExclusions keys).checkFile system path = policy.checkFile system path := by
  have included : (policy.withExclusions keys).isExcluded (system.key path) =
      policy.isExcluded (system.key path) := by
    rw [Bool.eq_iff_iff, isExcluded_withExclusions]
    simp [other]
  rw [checkFile, checkFile, included]
  rfl

/-- Excluding keys takes the violations at them out, file by file. -/
theorem checkFile_exclusions (policy : Policy) (system : FileSystem) (keys : List String)
    (path : String) :
    (policy.checkFile system path).CompletesWith
      (fun found left => left = found.filter (·.path ∉ keys))
      ((policy.withExclusions keys).checkFile system path) := by
  by_cases among : system.key path ∈ keys
  · have excluded : (policy.withExclusions keys).isExcluded (system.key path) = true :=
      isExcluded_withExclusions.2 (.inl among)
    have silent : (policy.checkFile system path).violations.filter (·.path ∉ keys) = [] := by
      rw [List.filter_eq_nil_iff]
      intro violation member
      rw [path_of_mem_checkFile member]
      simpa using among
    intro _
    cases source : policy.isSource (system.key path) with
    | false =>
        rw [checkFile_of_other (show (policy.withExclusions keys).isSource _ = false from source)]
        exact ⟨rfl, silent.symm⟩
    | true =>
        rw [checkFile_of_excluded (show (policy.withExclusions keys).isSource _ = true from source)
          excluded]
        exact ⟨rfl, silent.symm⟩
  · have kept : (policy.checkFile system path).violations.filter (·.path ∉ keys) =
        (policy.checkFile system path).violations := by
      rw [List.filter_eq_self]
      intro violation member
      rw [path_of_mem_checkFile member]
      exact decide_eq_true among
    rw [checkFile_withExclusions among]
    exact fun completed => ⟨completed, kept.symm⟩

/-- Excluding keys takes the violations at them out of a report. -/
theorem collect_withExclusions {paths : List String} {found : List Violation}
    (complete : policy.collect system paths = .ok found) (keys : List String) :
    (policy.withExclusions keys).collect system paths =
      .ok (found.filter (·.path ∉ keys)) := by
  have append {found left more others : List Violation}
      (own : left = found.filter (·.path ∉ keys))
      (next : others = more.filter (·.path ∉ keys)) :
      left ++ others = (found ++ more).filter (·.path ∉ keys) := by
    rw [own, next, List.filter_append]
  obtain ⟨left, excluded, rfl⟩ :=
    collect_related (policy.checkFile_exclusions system keys) rfl append complete
  exact excluded

/-- Excluding a path that is reported silences the files with that path and no others.  The paths
in a report are the keys that exclusion lists are searched for, however a path was spelled when
it was read. -/
theorem excluding_reported_path_silences_it (policy : Policy) (system : FileSystem)
    (paths : List String) (found : List Violation)
    (complete : policy.collect system paths = .ok found) :
    (∀ violation ∈ found, (policy.withExclusions [violation.path]).collect system paths =
      .ok (found.filter (·.path ≠ violation.path))) ∧
    ∀ directory text, Path.key directory (Path.parse text).display = Path.key directory text := by
  refine ⟨fun violation _ => ?_, Path.key_display_parse⟩
  simpa using collect_withExclusions complete [violation.path]

end Policy

/-- Two spellings of one path, with another path between them. -/
def respelledPaths : List String := ["./A.sol", "B.sol", "A.sol"]

open StackRoom in
/-- Excluding the path under which the file is reported silences it both times. -/
theorem respelledPaths_silenced :
    samplePolicy.collect sampleSystem respelledPaths =
        .ok [sampleViolation, otherViolation, sampleViolation] ∧
      (samplePolicy.withExclusions ["A.sol"]).collect sampleSystem respelledPaths =
        .ok [otherViolation] := by
  have complete : samplePolicy.collect sampleSystem respelledPaths =
      .ok [sampleViolation, otherViolation, sampleViolation] := by
    rw [Policy.collect, respelledPaths, Policy.check_none_cons, Policy.check_none_cons,
      Policy.check_single, checkFile_sample (by decide +kernel), checkFile_otherSample,
      checkFile_sample (by decide +kernel)]
    rfl
  have silenced := (Policy.excluding_reported_path_silences_it _ _ _ _ complete).1
    sampleViolation (by simp)
  have left : [sampleViolation, otherViolation, sampleViolation].filter
      (·.path ≠ sampleViolation.path) = [otherViolation] := by decide +kernel
  rw [left] at silenced
  exact ⟨complete, silenced⟩

end Interlock
