import Interlock.Check

/-!
# Files checked one after the other

A check of many files is the checks of the single files one after the other, up to the first
failure.  A check that is asked for a number of violations finds the first ones of those that a
complete check finds, and it meets a failure only if that comes in front of the last violation
asked for.
-/

namespace Interlock

namespace Trace

/-- A trace and, unless it ends in a failure, another one behind it. -/
def followedBy (first second : Trace) : Trace :=
  match first.failure with
  | some _ => first
  | none => second.after first.violations first.log

variable {first second third : Trace}

@[simp] theorem empty_followedBy (trace : Trace) : empty.followedBy trace = trace := rfl

@[simp] theorem followedBy_empty (trace : Trace) : trace.followedBy empty = trace := by
  obtain ⟨violations, log, failure⟩ := trace
  cases failure <;> simp [followedBy, after, empty]

theorem followedBy_of_failed {failure : Failure} (failed : first.failure = some failure)
    (second : Trace) : first.followedBy second = first := by
  rw [followedBy, failed]

theorem followedBy_of_completed (completed : first.failure = none) (second : Trace) :
    first.followedBy second = second.after first.violations first.log := by
  rw [followedBy, completed]

theorem followedBy_assoc (first second third : Trace) :
    (first.followedBy second).followedBy third = first.followedBy (second.followedBy third) := by
  obtain ⟨violations, log, failure⟩ := first
  obtain ⟨moreViolations, moreLog, moreFailure⟩ := second
  cases failure <;> cases moreFailure <;> simp [followedBy, after]

/-- The results of two traces are put together, and the first failure counts. -/
theorem result_followedBy (first second : Trace) :
    (first.followedBy second).result = do
      let found ← first.result
      let more ← second.result
      return found ++ more := by
  obtain ⟨violations, log, failure⟩ := first
  obtain ⟨moreViolations, moreLog, moreFailure⟩ := second
  cases failure <;> cases moreFailure <;> rfl

theorem result_eq_ok_iff {trace : Trace} {found : List Violation} :
    trace.result = .ok found ↔ trace.failure = none ∧ trace.violations = found := by
  obtain ⟨violations, log, failure⟩ := trace
  cases failure <;> simp [result]

theorem result_eq_error_iff {trace : Trace} {failure : Failure} :
    trace.result = .error failure ↔ trace.failure = some failure := by
  obtain ⟨violations, log, ending⟩ := trace
  cases ending <;> simp [result]

/-- A trace that goes through another one up to a number of violations: it has the first ones,
and it fails as the other one does unless they are all there before. -/
structure UpTo (count : Nat) (whole part : Trace) : Prop where
  violations : part.violations = whole.violations.take count
  failure : part.failure = if count ≤ whole.violations.length then none else whole.failure

/-- Behind a trace, what is left of the number decides. -/
theorem UpTo.behind {count : Nat} {whole part : Trace} (first : Trace)
    (upTo : whole.UpTo (count + 1 - first.violations.length) part)
    (failed : ∀ failure, first.failure = some failure → first.violations = []) :
    (first.followedBy whole).UpTo (count + 1)
      ((first.cut? (some (count + 1))).getD (first.followedBy part)) := by
  rw [cut?]
  split
  next reached =>
    have completed : first.failure = none := by
      cases ending : first.failure with
      | none => rfl
      | some failure => simp [failed failure ending] at reached
    rw [followedBy_of_completed completed]
    constructor
    · exact (List.take_append_of_le_length reached).symm
    · have enough : count + 1 ≤ (whole.after first.violations first.log).violations.length := by
        simp only [after, List.length_append]
        omega
      rw [if_pos enough]
      rfl
  next short =>
    cases ending : first.failure with
    | some failure =>
        rw [followedBy_of_failed ending, followedBy_of_failed ending]
        constructor
        · rw [failed failure ending, List.take_nil]
          exact failed failure ending
        · rw [if_neg short]
          rfl
    | none =>
        rw [followedBy_of_completed ending, followedBy_of_completed ending]
        have count_le : count + 1 - first.violations.length ≤ whole.violations.length ↔
            count + 1 ≤ (first.violations ++ whole.violations).length := by
          rw [List.length_append]
          omega
        have all : first.violations.take (count + 1) = first.violations :=
          List.take_of_length_le (by omega)
        constructor
        · change first.violations ++ part.violations = _
          rw [upTo.violations, after, List.take_append, all]
        · exact upTo.failure.trans (ite_congr (propext count_le) (fun _ => rfl) fun _ => rfl)

/-- One violation is asked for in vain exactly when there are none at all. -/
theorem UpTo.result_eq_nil_iff {whole part : Trace} (upTo : whole.UpTo 1 part) :
    part.result = .ok [] ↔ whole.result = .ok [] := by
  rw [result_eq_ok_iff, result_eq_ok_iff, upTo.violations, upTo.failure]
  cases whole.violations <;> simp

/-- Where one trace is completed another one is, and the violations in them are related. -/
def CompletesWith (rel : List Violation → List Violation → Prop) (first second : Trace) : Prop :=
  first.failure = none → second.failure = none ∧ rel first.violations second.violations

theorem CompletesWith.followedBy {rel : List Violation → List Violation → Prop}
    (append : ∀ {found left more others}, rel found left → rel more others →
      rel (found ++ more) (left ++ others))
    {first second third fourth : Trace} (head : first.CompletesWith rel second)
    (tail : third.CompletesWith rel fourth) :
    (first.followedBy third).CompletesWith rel (second.followedBy fourth) := by
  intro completed
  cases ending : first.failure with
  | some failure =>
      rw [followedBy_of_failed ending, ending] at completed
      cases completed
  | none =>
      rw [followedBy_of_completed ending] at completed ⊢
      obtain ⟨secondCompleted, own⟩ := head ending
      obtain ⟨fourthCompleted, others⟩ := tail completed
      rw [followedBy_of_completed secondCompleted]
      exact ⟨fourthCompleted, append own others⟩

end Trace

namespace Policy

variable [StackRoom] (policy : Policy) (system : FileSystem)

/-- The check of one file. -/
def checkFile (path : String) : Trace :=
  let key := system.key path
  if !policy.isSource key then .empty
  else if policy.isExcluded key then ⟨[], [.skipped key], none⟩
  else
    match system.load path with
    | .error failure => ⟨[], [.checking key], some failure⟩
    | .ok file => (policy.checkSource file.key file.text).after [] [.checking key]

section File

variable {policy system} {path : String}

theorem checkFile_of_other (other : policy.isSource (system.key path) = false) :
    policy.checkFile system path = .empty := by
  simp [checkFile, other]

theorem checkFile_of_excluded (source : policy.isSource (system.key path) = true)
    (excluded : policy.isExcluded (system.key path) = true) :
    policy.checkFile system path = ⟨[], [.skipped (system.key path)], none⟩ := by
  simp [checkFile, source, excluded]

theorem checkFile_of_error (source : policy.isSource (system.key path) = true)
    (included : policy.isExcluded (system.key path) = false) {failure : Failure}
    (refused : system.load path = .error failure) :
    policy.checkFile system path = ⟨[], [.checking (system.key path)], some failure⟩ := by
  simp [checkFile, source, included, refused]

theorem checkFile_of_load (source : policy.isSource (system.key path) = true)
    (included : policy.isExcluded (system.key path) = false) {file : SourceFile}
    (loaded : system.load path = .ok file) :
    policy.checkFile system path =
      (policy.checkSource file.key file.text).after [] [.checking (system.key path)] := by
  simp [checkFile, source, included, loaded]

/-- A source that cannot be judged has no violations. -/
theorem checkSource_failed {text : String} {failure : Failure}
    (failed : (policy.checkSource path text).failure = some failure) :
    (policy.checkSource path text).violations = [] := by
  revert failed
  fun_cases policy.checkSource path text <;> simp

/-- A violation of a file is one of the text that was read. -/
theorem exists_file_of_mem_checkFile {violation : Violation}
    (member : violation ∈ (policy.checkFile system path).violations) :
    ∃ file, system.load path = .ok file ∧
      violation ∈ (policy.checkSource file.key file.text).violations := by
  revert member
  fun_cases policy.checkFile system path with
  | case1 => simp [Trace.empty]
  | case2 => simp
  | case3 => simp
  | case4 key _ _ file loaded => exact fun member => ⟨file, loaded, member⟩

theorem checkFile_failed {failure : Failure}
    (failed : (policy.checkFile system path).failure = some failure) :
    (policy.checkFile system path).violations = [] := by
  revert failed
  fun_cases policy.checkFile system path with
  | case1 => simp [Trace.empty]
  | case2 => simp
  | case3 => simp
  | case4 key _ _ file _ => exact checkSource_failed

end File

/-! ## Checking on -/

/-- A check goes on behind a file unless it has failed or has found what it was asked for. -/
theorem check_cons {limit : Option Nat} (goesOn : limit ≠ some 0) (path : String)
    (rest : List String) :
    policy.check system limit (path :: rest) =
      ((policy.checkFile system path).cut? limit).getD
        ((policy.checkFile system path).followedBy
          (policy.check system
            (limit.map (· - (policy.checkFile system path).violations.length)) rest)) := by
  have uncut {trace : Trace} (none : trace.violations = []) : trace.cut? limit = Option.none := by
    match limit, goesOn with
    | Option.none, _ => rfl
    | some (count + 1), _ => simp [Trace.cut?, none]
  have whole : limit.map (· - 0) = limit := by simp
  rw [check.eq_3 _ _ _ _ _ goesOn]
  cases source : policy.isSource (system.key path) with
  | false =>
      rw [checkFile_of_other source, uncut rfl, Trace.empty_followedBy]
      exact congrArg (policy.check system · rest) whole.symm
  | true =>
  cases excluded : policy.isExcluded (system.key path) with
  | true =>
      rw [checkFile_of_excluded source excluded, uncut rfl, Trace.followedBy_of_completed rfl]
      simp
  | false =>
  cases loaded : system.load path with
  | error failure =>
      rw [checkFile_of_error source excluded loaded, uncut rfl, Trace.followedBy_of_failed rfl]
      rfl
  | ok file =>
      simp only [← checkFile_of_load source excluded loaded, Bool.not_true, Bool.false_eq_true,
        if_false]
      cases failed : (policy.checkFile system path).failure with
      | some failure =>
          rw [uncut (checkFile_failed failed), Trace.followedBy_of_failed failed]
          rfl
      | none =>
          rw [Trace.followedBy_of_completed failed]
          cases (policy.checkFile system path).cut? limit <;> rfl

theorem check_nil (limit : Option Nat) : policy.check system limit [] = .empty := by
  rcases limit with _ | _ | count <;> rfl

theorem check_none_cons (path : String) (rest : List String) :
    policy.check system none (path :: rest) =
      (policy.checkFile system path).followedBy (policy.check system none rest) := by
  have goesOn : (none : Option Nat) ≠ some 0 := nofun
  rw [check_cons _ _ goesOn]
  rfl

theorem check_single (path : String) :
    policy.check system none [path] = policy.checkFile system path := by
  rw [check_none_cons, check_nil, Trace.followedBy_empty]

theorem collect_single (path : String) :
    policy.collect system [path] = (policy.checkFile system path).result := by
  rw [collect, check_single]

/-- Lists of files are checked in turn. -/
theorem check_none_append (paths more : List String) :
    policy.check system none (paths ++ more) =
      (policy.check system none paths).followedBy (policy.check system none more) := by
  induction paths with
  | nil => rw [List.nil_append, check_nil, Trace.empty_followedBy]
  | cons path paths ih =>
      rw [List.cons_append, check_none_cons, check_none_cons, ih, Trace.followedBy_assoc]

/-- A check for a number of violations goes through the complete check up to that number. -/
theorem check_upTo (count : Nat) (paths : List String) :
    (policy.check system none paths).UpTo count (policy.check system (some count) paths) := by
  induction paths generalizing count with
  | nil =>
      rw [check_nil, check_nil]
      exact ⟨by simp [Trace.empty], by simp [Trace.empty]⟩
  | cons path rest ih =>
      cases count with
      | zero => exact ⟨by simp [check, Trace.empty], by simp [check, Trace.empty]⟩
      | succ count =>
          rw [check_none_cons, check_cons _ _ (by simp)]
          exact (ih _).behind _ fun _ => checkFile_failed

/-! ## The first violation and all of them -/

/-- The first violation is the first of all, if there are any; otherwise the complete check
decides. -/
theorem evaluate_eq (paths : List String) :
    policy.evaluate system paths =
      match (policy.check system none paths).violations with
      | [] => (policy.collect system paths).map fun _ => none
      | first :: _ => .ok (some first) := by
  obtain ⟨violations, failure⟩ := policy.check_upTo system 1 paths
  rw [evaluate, collect, Trace.result, Trace.result, violations, failure]
  cases (policy.check system none paths).violations with
  | nil => cases (policy.check system none paths).failure <;> rfl
  | cons first rest => rfl

theorem evaluate_eq_none_iff {paths : List String} :
    policy.evaluate system paths = .ok none ↔ policy.collect system paths = .ok [] := by
  rw [collect, ← (policy.check_upTo system 1 paths).result_eq_nil_iff, evaluate]
  cases (policy.check system (some 1) paths).result <;> simp [Except.map]

theorem evaluate_eq_some_iff {paths : List String} {violation : Violation} :
    policy.evaluate system paths = .ok (some violation) ↔
      ∃ others, (policy.check system none paths).violations = violation :: others := by
  rw [evaluate_eq]
  cases (policy.check system none paths).violations with
  | nil => cases policy.collect system paths <;> simp [Except.map]
  | cons first others => simp

theorem collect_of_evaluate_error {paths : List String} {failure : Failure}
    (failed : policy.evaluate system paths = .error failure) :
    policy.collect system paths = .error failure := by
  rw [evaluate_eq] at failed
  split at failed
  · cases complete : policy.collect system paths <;> rw [complete] at failed <;> cases failed
    rfl
  · cases failed

theorem collect_append (paths more : List String) :
    policy.collect system (paths ++ more) = do
      let found ← policy.collect system paths
      let others ← policy.collect system more
      return found ++ others := by
  rw [collect, check_none_append, Trace.result_followedBy]
  rfl

/-- The first violation of two lists is that of the first list, if it has one. -/
theorem evaluate_append (paths more : List String) :
    policy.evaluate system (paths ++ more) =
      (policy.evaluate system paths >>= fun
        | some violation => .ok (some violation)
        | none => policy.evaluate system more) := by
  rw [evaluate_eq, evaluate_eq, evaluate_eq, collect, collect, collect, check_none_append]
  obtain ⟨violations, log, failure⟩ := policy.check system none paths
  cases violations <;> cases failure <;> rfl

/-- Two policies are related on many files as they are on each of them. -/
theorem collect_related {policy other : Policy} {system : FileSystem}
    {rel : List Violation → List Violation → Prop}
    (each : ∀ path, (policy.checkFile system path).CompletesWith rel
      (other.checkFile system path))
    (nil : rel [] [])
    (append : ∀ {found left more others}, rel found left → rel more others →
      rel (found ++ more) (left ++ others))
    {paths : List String} {found : List Violation}
    (complete : policy.collect system paths = .ok found) :
    ∃ left, other.collect system paths = .ok left ∧ rel found left := by
  have whole : (policy.check system none paths).CompletesWith rel
      (other.check system none paths) := by
    clear complete
    induction paths with
    | nil =>
        rw [check_nil, check_nil]
        exact fun _ => ⟨rfl, nil⟩
    | cons path paths ih =>
        rw [check_none_cons, check_none_cons]
        exact (each path).followedBy append ih
  obtain ⟨completed, rfl⟩ := Trace.result_eq_ok_iff.1 complete
  obtain ⟨otherCompleted, related⟩ := whole completed
  exact ⟨_, Trace.result_eq_ok_iff.2 ⟨otherCompleted, rfl⟩, related⟩

/-- A tree is checked by checking its files. -/
theorem checkTree_result (root : String) (all : Bool) :
    (policy.checkTree system root all).result =
      (system.walk StackRoom.directories (Path.parse root) >>= fun files =>
        (policy.check system (if all then none else some 1) (files.map (·.display))).result) := by
  rw [checkTree]
  cases system.walk StackRoom.directories (Path.parse root) with
  | error failure => rfl
  | ok files => rfl

/-- A tree has no violations when its files have none, whether the first one is asked for or
all. -/
theorem checkTree_eq_nil_iff {root : String} {all : Bool} :
    (policy.checkTree system root all).result = .ok [] ↔
      ∃ files, system.walk StackRoom.directories (Path.parse root) = .ok files ∧
        policy.collect system (files.map (·.display)) = .ok [] := by
  rw [checkTree_result]
  cases system.walk StackRoom.directories (Path.parse root) with
  | error failure => exact ⟨nofun, nofun⟩
  | ok files =>
      have same : (policy.check system (if all then none else some 1)
            (files.map (·.display))).result = .ok [] ↔
          policy.collect system (files.map (·.display)) = .ok [] := by
        cases all with
        | true => rfl
        | false => exact (policy.check_upTo system 1 _).result_eq_nil_iff
      exact same.trans ⟨fun passes => ⟨files, rfl, passes⟩, fun ⟨_, walked, passes⟩ =>
        Except.ok.inj walked ▸ passes⟩

/-- The first violation of a tree is the first of all of them. -/
theorem checkTree_first {root : String} {found first : List Violation}
    (complete : (policy.checkTree system root true).result = .ok found)
    (fast : (policy.checkTree system root false).result = .ok first) :
    first = found.take 1 := by
  rw [checkTree_result] at complete fast
  cases walked : system.walk StackRoom.directories (Path.parse root) with
  | error failure =>
      rw [walked] at complete
      cases complete
  | ok files =>
      rw [walked] at complete fast
      obtain ⟨-, rfl⟩ := Trace.result_eq_ok_iff.1 complete
      obtain ⟨-, rfl⟩ := Trace.result_eq_ok_iff.1 fast
      exact (policy.check_upTo system 1 _).violations

/-- A check for some violations, for the first one and for all of them agree.  Asked for a number
of violations, a check finds the first ones that a complete check finds before it ends or fails.
There is no first violation exactly when there are none at all, the first one is the first of
all, and a failure in front of it is the failure of the complete check.  A list of files in two
parts has the violations of both, or the failure of the part that fails first.  A tree has a
first violation exactly when it has any. -/
theorem first_and_all_violations_agree (policy : Policy) (system : FileSystem) :
    (∀ count paths, (policy.check system none paths).UpTo count
      (policy.check system (some count) paths)) ∧
    (∀ paths, policy.evaluate system paths = .ok none ↔ policy.collect system paths = .ok []) ∧
    (∀ paths first others, policy.collect system paths = .ok (first :: others) →
      policy.evaluate system paths = .ok (some first)) ∧
    (∀ paths failure, policy.evaluate system paths = .error failure →
      policy.collect system paths = .error failure) ∧
    (∀ paths more, policy.collect system (paths ++ more) = do
      let found ← policy.collect system paths
      let others ← policy.collect system more
      return found ++ others) ∧
    ∀ root found first, (policy.checkTree system root true).result = .ok found →
      (policy.checkTree system root false).result = .ok first →
      first = found.take 1 ∧ (found = [] ↔ first = []) := by
  refine ⟨policy.check_upTo system, fun _ => policy.evaluate_eq_none_iff system, ?_,
    fun _ _ => policy.collect_of_evaluate_error system, policy.collect_append system, ?_⟩
  · intro paths first others complete
    obtain ⟨-, found⟩ := Trace.result_eq_ok_iff.1 complete
    exact (policy.evaluate_eq_some_iff system).2 ⟨others, found⟩
  · intro root found first complete fast
    have same := policy.checkTree_first system complete fast
    refine ⟨same, ?_⟩
    rw [same]
    cases found <;> simp

end Policy

/-! ## Files of one directory -/

/-- A text that was written as UTF-8 is read back. -/
theorem Text.fromUTF8?_toUTF8 (text : String) : String.fromUTF8? text.toUTF8 = some text := by
  rw [String.fromUTF8?, String.toUTF8, dif_pos text.isValidUTF8]
  rfl

/-- It is read back from a file as well, but for a mark at its start. -/
theorem Text.decode_toUTF8 (text : String) : decode text.toUTF8 = withoutMark text := by
  rw [decode, fromUTF8?_toUTF8]

namespace FileSystem

/-- A file system with some files in its root directory, which is the working directory. -/
def ofFiles (files : List (String × String)) : FileSystem where
  root := .directory (files.map fun file => (file.1, .file file.2.toUTF8))
  workingDirectory := []

/-- What a file may be called in a directory. -/
structure IsFileName (name : String) : Prop where
  plain : Path.parse name = ⟨0, [name]⟩
  forward : name ≠ ".."
  short : name.utf8ByteSize ≤ nameLimit
  clean : hasNull ⟨0, [name]⟩ = false

instance (name : String) : Decidable (IsFileName name) :=
  decidable_of_iff
    (Path.parse name = ⟨0, [name]⟩ ∧ name ≠ ".." ∧ name.utf8ByteSize ≤ nameLimit ∧
      hasNull ⟨0, [name]⟩ = false)
    ⟨fun ⟨plain, forward, short, clean⟩ => ⟨plain, forward, short, clean⟩,
      fun ⟨plain, forward, short, clean⟩ => ⟨plain, forward, short, clean⟩⟩

section Files

variable {files : List (String × String)} {name path text : String}

theorem display_name (name : String) : Path.display ⟨0, [name]⟩ = name := by
  rw [Path.display]
  simp

theorem key_ofFiles (named : IsFileName name) (spelled : Path.parse path = ⟨0, [name]⟩) :
    (ofFiles files).key path = name := by
  rw [key, Path.key, spelled]
  simp [Path.normal, Path.climb, named.forward, Path.seenFrom, display_name]

theorem resolve_ofFiles (named : IsFileName name)
    (found : files.find? (·.1 = name) = some (name, text)) :
    (ofFiles files).resolve ⟨0, [name]⟩ = .ok ([name], .file text.toUTF8) := by
  have here : name ≠ "." := by
    rintro rfl
    exact absurd named.plain (by decide +kernel)
  have child : (ofFiles files).root.child? name = some (.file text.toUTF8) := by
    rw [Entry.child?, ofFiles, Entry.entries, List.find?_map]
    change ((files.find? (·.1 = name)).map _).map _ = _
    rw [found]
    rfl
  have isDirectory : (ofFiles files).root.isDirectory = true := rfl
  have reached : follow (ofFiles files).root linkLimit [] [name] =
      .ok ([name], .file text.toUTF8) := by
    rw [follow]
    simp only [Entry.descend?, isDirectory, here, named.forward, Nat.not_lt.2 named.short, child,
      Bool.not_true, Bool.false_eq_true, if_false, List.nil_append]
    rw [follow]
    simp [Entry.descend?, child]
  have fits : ¬ pathLimit < name.utf8ByteSize :=
    Nat.not_lt.2 (Nat.le_trans named.short (by decide))
  rw [resolve, display_name, if_neg fits]
  exact reached

/-- A file is read under its name, however its path is spelled. -/
theorem load_ofFiles (named : IsFileName name) (spelled : Path.parse path = ⟨0, [name]⟩)
    (found : files.find? (·.1 = name) = some (name, text)) :
    (ofFiles files).load path = .ok ⟨name, Text.withoutMark text⟩ := by
  rw [load, spelled]
  simp only [named.clean, content, resolve_ofFiles named found, display_name,
    key_ofFiles named named.plain, Text.decode_toUTF8, Bool.false_eq_true, if_false]

theorem find?_ofFiles (increasing : (files.map (·.1)).Pairwise (· < ·)) {file : String × String}
    (member : file ∈ files) : files.find? (·.1 = file.1) = some file := by
  induction files with
  | nil => cases member
  | cons first files ih =>
      obtain ⟨before, increasing⟩ := List.pairwise_cons.1 increasing
      rcases List.mem_cons.1 member with rfl | member
      · simp
      · have less : first.1 < file.1 := before _ (List.mem_map_of_mem member)
        have other : first.1 ≠ file.1 := fun same => String.lt_irrefl _ (same ▸ less)
        rw [List.find?_cons_of_neg (by simpa using other), ih increasing member]

/-- All files are listed on a walk, where they stand in order. -/
theorem walk_ofFiles (room : Nat) (named : ∀ file ∈ files, IsFileName file.1)
    (increasing : (files.map (·.1)).Pairwise (· < ·)) :
    (ofFiles files).walk (room + 1) (Path.parse ".") =
      .ok (files.map fun file => ⟨0, [file.1]⟩) := by
  have here : Path.parse "." = ⟨0, []⟩ := by decide +kernel
  have reached : (ofFiles files).resolve ⟨0, []⟩ = .ok ([], (ofFiles files).root) := by
    rw [resolve, if_neg (by decide)]
    simp only [if_true]
    rw [follow]
    rfl
  have sorted : names (ofFiles files).root = files.map (·.1) := by
    have inOrder : (files.map (·.1)).Pairwise fun left right => decide (left ≤ right) :=
      increasing.imp fun less => decide_eq_true (Std.le_of_lt less)
    have own : (ofFiles files).root.entries.map (·.1) = files.map (·.1) := by
      simp [ofFiles, Entry.entries, Function.comp_def]
    rw [names, own]
    exact List.mergeSort_of_pairwise inOrder
  have seen : ∀ file ∈ files, (ofFiles files).inspect (Path.child ⟨0, []⟩ file.1) =
      .ok (some (.file file.2.toUTF8)) := by
    intro file member
    change inspect _ ⟨0, [file.1]⟩ = _
    rw [inspect, (named file member).clean,
      resolve_ofFiles (named file member) (find?_ofFiles increasing member)]
    rfl
  have each {part : String → Except Failure (List Path)} {list : List (String × String)}
      (single : ∀ file ∈ list, part file.1 = .ok [⟨0, [file.1]⟩]) :
      (list.map (·.1)).mapM part = .ok (list.map fun file => [⟨0, [file.1]⟩]) := by
    induction list with
    | nil => rfl
    | cons file list ih =>
        rw [List.map_cons, List.mapM_cons, single file List.mem_cons_self,
          ih fun other member => single other (List.mem_cons_of_mem _ member)]
        rfl
  have below : (ofFiles files).filesBelow ⟨0, []⟩ (room + 1) ⟨0, []⟩ [] =
      .ok (files.map fun file => ⟨0, [file.1]⟩) := by
    simp only [filesBelow, reached, sorted]
    rw [each fun file member => by rw [seen file member]; rfl]
    simp only [List.contains_nil, Bool.false_eq_true, if_false]
    exact congrArg Except.ok (by rw [← List.flatMap_def, ← List.map_eq_flatMap])
  rw [walk, here, inspect, show hasNull ⟨0, []⟩ = false from rfl, reached]
  exact below

end Files

end FileSystem

/-- Checking the file of a directory is checking its text. -/
theorem Policy.checkFile_ofFiles [StackRoom] {policy : Policy} {files : List (String × String)}
    {name path text : String} (named : FileSystem.IsFileName name)
    (spelled : Path.parse path = ⟨0, [name]⟩)
    (found : files.find? (·.1 = name) = some (name, text))
    (source : policy.isSource name = true) (included : policy.isExcluded name = false) :
    policy.checkFile (.ofFiles files) path =
      (policy.checkSource name (Text.withoutMark text)).after [] [.checking name] := by
  have key : (FileSystem.ofFiles files).key path = name := FileSystem.key_ofFiles named spelled
  rw [checkFile_of_load (key.symm ▸ source) (key.symm ▸ included)
    (FileSystem.load_ofFiles named spelled found), key]

/-- A policy for samples. -/
def samplePolicy : Policy where
  sourceExtension := ".sol"
  excludedPaths := .ofList ["Old.sol"]
  guardModifiers := .ofList ["guarded"]
  readOnlyMutability := .ofList ["view"]
  exemptVisibility := .ofList ["private"]

/-- Two files with a violation each, and a third one that cannot be parsed. -/
def sampleSystem : FileSystem :=
  .ofFiles
    [("A.sol", "contract A \x7b function f() public; \x7d"),
     ("B.sol", "contract B \x7b function g() external payable; \x7d"),
     ("C.sol", "contract C \x7b")]

/-- The violation of the first file. -/
def sampleViolation : Violation := ⟨"A.sol", "f", "A", ⟨1, 14⟩, ⟨"public", "nonpayable", []⟩⟩

open StackRoom in
theorem checkFile_sample {path : String} (spelled : Path.parse path = ⟨0, ["A.sol"]⟩) :
    samplePolicy.checkFile sampleSystem path = ⟨[sampleViolation], [.checking "A.sol"], none⟩ := by
  rw [sampleSystem, Policy.checkFile_ofFiles (by decide +kernel) spelled rfl (by decide +kernel)
    (by decide +kernel)]
  decide +kernel

/-- The violation of the second file. -/
def otherViolation : Violation := ⟨"B.sol", "g", "B", ⟨1, 14⟩, ⟨"external", "payable", []⟩⟩

open StackRoom in
theorem checkFile_otherSample :
    samplePolicy.checkFile sampleSystem "B.sol" =
      ⟨[otherViolation], [.checking "B.sol"], none⟩ := by
  rw [sampleSystem, Policy.checkFile_ofFiles (by decide +kernel : FileSystem.IsFileName "B.sol")
    (by decide +kernel) rfl (by decide +kernel) (by decide +kernel)]
  decide +kernel

open StackRoom in
theorem checkFile_brokenSample :
    ∃ failure, (samplePolicy.checkFile sampleSystem "C.sol").failure = some failure := by
  rw [← Option.isSome_iff_exists, sampleSystem,
    Policy.checkFile_ofFiles (by decide +kernel : FileSystem.IsFileName "C.sol") (by decide +kernel)
      rfl (by decide +kernel) (by decide +kernel)]
  decide +kernel

open StackRoom in
/-- Where a later file cannot be parsed, the first violation is found and the complete check
fails, as the check of that file alone does. -/
theorem sampleSystem_checks_agree :
    samplePolicy.collect sampleSystem ["A.sol"] = .ok [sampleViolation] ∧
      samplePolicy.evaluate sampleSystem ["A.sol"] = .ok (some sampleViolation) ∧
      ∃ failure, samplePolicy.evaluate sampleSystem ["C.sol"] = .error failure ∧
        samplePolicy.collect sampleSystem ["C.sol"] = .error failure ∧
        samplePolicy.collect sampleSystem (["A.sol"] ++ ["C.sol"]) = .error failure ∧
        (samplePolicy.check sampleSystem none ["A.sol", "C.sol"]).UpTo 1
          (samplePolicy.check sampleSystem (some 1) ["A.sol", "C.sol"]) := by
  obtain ⟨upTo, -, first, same, append, -⟩ :=
    Policy.first_and_all_violations_agree samplePolicy sampleSystem
  have complete : samplePolicy.collect sampleSystem ["A.sol"] = .ok [sampleViolation] := by
    rw [Policy.collect_single, checkFile_sample (by decide +kernel)]
    rfl
  obtain ⟨failure, failed⟩ := checkFile_brokenSample
  have broken : samplePolicy.evaluate sampleSystem ["C.sol"] = .error failure := by
    rw [Policy.evaluate_eq, Policy.collect_single, Trace.result_eq_error_iff.2 failed,
      Policy.check_single, Policy.checkFile_failed failed]
    rfl
  refine ⟨complete, first _ _ _ complete, failure, broken, same _ _ broken, ?_, upTo 1 _⟩
  rw [append, complete, same _ _ broken]
  rfl

end Interlock
