import Interlock.Policy.Load
import Interlock.Proofs.Relaxation
import Interlock.Proofs.Resolution
import Interlock.Yaml.Library

/-!
# Which policy files are refused as such

Whatever is wrong with a policy should be reported as a fault of the policy.  Loading a policy keeps
to that exactly when nothing is at the path, or a file is there that the library calls malformed or
reads, and in which every key of a mapping is a text.  Directories, bytes at which the library ends
in another way, and other keys lead to failures that nothing foresees.
-/

namespace Interlock

/-- Whether a computation ends with a value or with a fault of a policy. -/
def EndsAsPolicy {α : Type} (result : Except Failure α) : Prop :=
  ∀ failure, result = .error failure → ∃ source problem, failure = .policy source problem

namespace EndsAsPolicy

variable {α β : Type}

theorem ok (value : α) : EndsAsPolicy (.ok value) := nofun

theorem policy (source : String) (problem : PolicyProblem) :
    EndsAsPolicy (.error (.policy source problem) : Except Failure α) := by
  rintro _ ⟨⟩
  exact ⟨source, problem, rfl⟩

theorem iff {result : Except Failure α} :
    EndsAsPolicy result ↔
      (∃ value, result = .ok value) ∨
        ∃ source problem, result = .error (.policy source problem) := by
  cases result with
  | ok value => exact iff_of_true (ok value) (.inl ⟨value, rfl⟩)
  | error failure =>
      constructor
      · intro ends
        obtain ⟨source, problem, rfl⟩ := ends failure rfl
        exact .inr ⟨source, problem, rfl⟩
      · rintro (⟨value, same⟩ | ⟨source, problem, same⟩)
        · cases same
        · exact same ▸ policy source problem

theorem error_iff {failure : Failure} :
    EndsAsPolicy (.error failure : Except Failure α) ↔
      ∃ source problem, failure = .policy source problem :=
  ⟨fun ends => ends failure rfl, fun ⟨source, problem, same⟩ => same ▸ policy source problem⟩

/-- No computation ends so with another failure. -/
theorem false_of_other {failure : Failure} (ends : EndsAsPolicy (.error failure : Except Failure α))
    (other : ∀ source problem, failure ≠ .policy source problem) : False :=
  have ⟨source, problem, same⟩ := error_iff.1 ends
  other source problem same

/-- Two computations in turn end so when both do. -/
theorem bind_iff {first : Except Failure α} {next : α → Except Failure β} :
    EndsAsPolicy (first >>= next) ↔
      EndsAsPolicy first ∧ ∀ value, first = .ok value → EndsAsPolicy (next value) := by
  cases first with
  | error failure =>
      have same : EndsAsPolicy (.error failure : Except Failure β) ↔
          EndsAsPolicy (.error failure : Except Failure α) := error_iff.trans error_iff.symm
      exact same.trans (iff_self_and.2 fun _ => nofun)
  | ok value =>
      constructor
      · intro ends
        refine ⟨ok value, ?_⟩
        rintro _ ⟨⟩
        exact ends
      · exact fun both => both.2 value rfl

end EndsAsPolicy

namespace Policy

/-! ## Data -/

theorem endsAsPolicy_setOr (source key : String) (entries : List (Data × Data))
    (standard : WordSet) : EndsAsPolicy (setOr source key entries standard) := by
  fun_cases setOr source key entries standard with
  | case1 => exact .ok _
  | case2 => exact .ok _
  | case3 => exact .policy _ _

theorem endsAsPolicy_extensionOr (source : String) (entries : List (Data × Data))
    (standard : String) : EndsAsPolicy (extensionOr source entries standard) := by
  fun_cases extensionOr source entries standard with
  | case1 => exact .ok _
  | case2 => exact .policy _ _
  | case3 => exact .ok _
  | case4 => exact .policy _ _

theorem isBefore_error {left right : Data} {failure : Failure}
    (failed : isBefore left right = .error failure) :
    ∃ problem, failure = .keysNotComparable problem := by
  rw [isBefore.eq_def] at failed
  split at failed
  next => cases failed
  next =>
    split at failed <;> cases failed
    exact ⟨_, rfl⟩
  next =>
    cases failed
    exact ⟨_, rfl⟩
  next =>
    cases failed
    exact ⟨_, rfl⟩
  next => cases failed
  next =>
    split at failed <;> cases failed
    exact ⟨_, rfl⟩

theorem leastKey_error {first : Data} {others : List Data} {failure : Failure}
    (failed : leastKey first others = .error failure) :
    ∃ problem, failure = .keysNotComparable problem := by
  induction others generalizing first with
  | nil => cases failed
  | cons key others ih =>
      cases order : isBefore key first with
      | error fault =>
          rw [leastKey, List.foldlM_cons, order] at failed
          cases failed
          exact isBefore_error order
      | ok before =>
          rw [leastKey, List.foldlM_cons, order] at failed
          exact ih failed

/-- A key that is no text is not known. -/
theorem isKnown_of_noText {key : Data} (noText : key.string? = none) : isKnown key = false := by
  rw [isKnown, noText]
  rfl

theorem filter_noText_eq_nil_iff {entries : List (Data × Data)} :
    ((entries.map (·.1)).filter (!isKnown ·)).filter (·.string?.isNone) = [] ↔
      ∀ entry ∈ entries, entry.1.string?.isSome := by
  rw [List.filter_eq_nil_iff]
  constructor
  · intro texts entry member
    by_contra isText
    rw [Option.not_isSome_iff_eq_none] at isText
    refine texts entry.1 (List.mem_filter.2 ⟨List.mem_map_of_mem member, ?_⟩) ?_
    · rw [isKnown_of_noText isText]
      rfl
    · rw [isText]
      rfl
  · intro texts key member
    obtain ⟨entry, among, rfl⟩ := List.mem_map.1 (List.mem_filter.1 member).1
    rw [Option.isNone_iff_eq_none, ← ne_eq, Option.ne_none_iff_isSome]
    exact texts entry among

/-- The unknown keys can be listed exactly when all keys are texts. -/
theorem endsAsPolicy_unknownKeys_iff {entries : List (Data × Data)} :
    EndsAsPolicy (unknownKeys entries) ↔ ∀ entry ∈ entries, entry.1.string?.isSome := by
  rw [← filter_noText_eq_nil_iff, unknownKeys]
  split
  next none => exact iff_of_true (.ok _) none
  next other others _ _ some _ =>
    rw [some]
    exact iff_of_false (fun ends => ends.false_of_other (by simp)) (List.cons_ne_nil _ _)
  next other others some _ =>
    rw [some]
    refine iff_of_false (fun ends => ?_) (List.cons_ne_nil _ _)
    obtain ⟨compared, listed⟩ := EndsAsPolicy.bind_iff.1 ends
    cases least : leastKey other others with
    | error failure =>
        obtain ⟨problem, rfl⟩ := leastKey_error least
        exact (least ▸ compared).false_of_other (by simp)
    | ok key => exact (listed key least).false_of_other (by simp)

/-- A mapping describes a policy or has a fault of a policy exactly when all its keys are texts. -/
theorem endsAsPolicy_ofData_iff {source : String} {entries : List (Data × Data)} :
    EndsAsPolicy (ofData source entries) ↔ ∀ entry ∈ entries, entry.1.string?.isSome := by
  rw [ofData, EndsAsPolicy.bind_iff, endsAsPolicy_unknownKeys_iff, and_iff_left_iff_imp]
  intro _ unknown _
  split
  · exact .policy _ _
  · refine EndsAsPolicy.bind_iff.2 ⟨endsAsPolicy_extensionOr _ _ _, fun _ _ => ?_⟩
    refine EndsAsPolicy.bind_iff.2 ⟨endsAsPolicy_setOr _ _ _ _, fun _ _ => ?_⟩
    refine EndsAsPolicy.bind_iff.2 ⟨endsAsPolicy_setOr _ _ _ _, fun _ _ => ?_⟩
    refine EndsAsPolicy.bind_iff.2 ⟨endsAsPolicy_setOr _ _ _ _, fun _ _ => ?_⟩
    refine EndsAsPolicy.bind_iff.2 ⟨endsAsPolicy_setOr _ _ _ _, fun _ _ => ?_⟩
    refine EndsAsPolicy.bind_iff.2 ⟨endsAsPolicy_setOr _ _ _ _, fun _ _ => ?_⟩
    exact .ok _

/-! ## Files -/

/-- A value that is no mapping, or one whose keys are texts. -/
def HasTextKeys : Data → Prop
  | .mapping entries => ∀ entry ∈ entries, entry.1.string?.isSome
  | _ => True

/-- Bytes that hold a document or are known to hold none: the library reads a value or calls them
malformed, and the keys of a mapping are texts. -/
def HoldDocument (yaml : YamlLibrary) (bytes : ByteArray) : Prop :=
  match yaml.load bytes with
  | .ok value => HasTextKeys value
  | .error (.malformed _) => True
  | .error (.raised _ _) => False

/-- Whether a library reads a value from whatever is text, or calls it malformed. -/
def ReadsText (yaml : YamlLibrary) : Prop :=
  ∀ bytes, (String.fromUTF8? bytes).isSome →
    ∀ label message, yaml.load bytes ≠ .error (.raised label message)

/-- From such a library a text can only hold a mapping with another key. -/
theorem ReadsText.holdDocument_iff {yaml : YamlLibrary} (reads : ReadsText yaml)
    {bytes : ByteArray} (isText : (String.fromUTF8? bytes).isSome) :
    HoldDocument yaml bytes ↔
      ∀ entries, yaml.load bytes = .ok (.mapping entries) →
        ∀ entry ∈ entries, entry.1.string?.isSome := by
  have foreseen := reads bytes isText
  rw [HoldDocument]
  cases result : yaml.load bytes with
  | error fault =>
      cases fault with
      | malformed detail => exact iff_of_true trivial nofun
      | raised label message => exact absurd result (foreseen label message)
  | ok value =>
      cases value with
      | mapping entries =>
          constructor
          · rintro texts _ ⟨⟩
            exact texts
          · exact fun texts => texts entries rfl
      | _ => exact iff_of_true trivial nofun

theorem endsAsPolicy_bytes_iff {yaml : YamlLibrary} {source : String} {bytes : ByteArray} :
    EndsAsPolicy (documentEntries yaml source bytes >>= ofData source) ↔
      HoldDocument yaml bytes := by
  rw [documentEntries, HoldDocument]
  cases yaml.load bytes with
  | error fault =>
      cases fault with
      | malformed detail => exact iff_of_true (.policy _ _) trivial
      | raised label message =>
          exact iff_of_false (fun ends => ends.false_of_other fun _ _ => nofun) not_false
  | ok value =>
      cases value with
      | mapping entries => exact endsAsPolicy_ofData_iff
      | null =>
          refine iff_of_true (EndsAsPolicy.bind_iff.2 ⟨.ok _, ?_⟩) trivial
          rintro _ ⟨⟩
          exact endsAsPolicy_ofData_iff.2 fun _ member => absurd member List.not_mem_nil
      | _ => exact iff_of_true (.policy _ _) trivial

variable {yaml : YamlLibrary} {system : FileSystem} {path : Path}

theorem ofFile_of_content {entry : Entry} {bytes : ByteArray}
    (seen : system.inspect path = .ok (some entry)) (read : system.content path = .ok bytes) :
    ofFile yaml system path = documentEntries yaml path.display bytes >>= ofData path.display := by
  rw [ofFile, seen, read]
  rfl

theorem endsAsPolicy_ofFile_iff :
    EndsAsPolicy (ofFile yaml system path) ↔
      system.inspect path = .ok none ∨
        ∃ bytes, system.content path = .ok bytes ∧ HoldDocument yaml bytes := by
  cases seen : system.inspect path with
  | error failure =>
      obtain ⟨rfl, unresolved⟩ := FileSystem.inspect_error seen
      refine iff_of_false (fun ends => ?_) ?_
      · rw [ofFile, seen] at ends
        exact ends.false_of_other (by simp)
      · rintro (absent | ⟨bytes, read, _⟩)
        · cases absent
        · rw [FileSystem.content, unresolved] at read
          cases read
  | ok found =>
      cases found with
      | none =>
          rw [ofFile, seen]
          exact iff_of_true (.policy _ _) (.inl rfl)
      | some entry =>
          rw [or_iff_right (by simp)]
          cases read : system.content path with
          | error fault =>
              refine iff_of_false (fun ends => ?_) (by simp)
              rw [ofFile, seen, read] at ends
              exact ends.false_of_other (by simp)
          | ok bytes =>
              simp only [Except.ok.injEq, exists_eq_left']
              rw [ofFile_of_content seen read]
              exact endsAsPolicy_bytes_iff

/-- What comes of a file that is named is what comes of loading. -/
theorem load_result {named environment : Option String} {name : String}
    (chosen : fileName? named environment = some name) :
    (load yaml system named environment).1 = ofFile yaml system (.parse name) := by
  rw [load, chosen]
  cases read : ofFile yaml system (.parse name) <;> simp only [read]

end Policy

/-! ## Loading -/

/-- Loading a policy ends with a policy or with a fault of a policy exactly when no file is named,
when nothing is where one is named, or when a file is there that holds a document whose keys are
texts, or what is known to be none.  With a library that reads whatever is text, a text holds no
such document exactly when it is a mapping with another key. -/
theorem Policy.load_ends_as_policy_iff (yaml : YamlLibrary) (system : FileSystem)
    (named environment : Option String) :
    (((∃ policy, (load yaml system named environment).1 = .ok policy) ∨
        ∃ source problem,
          (load yaml system named environment).1 = .error (.policy source problem)) ↔
      ∀ name, fileName? named environment = some name →
        system.inspect (.parse name) = .ok none ∨
          ∃ bytes, system.content (.parse name) = .ok bytes ∧ HoldDocument yaml bytes) ∧
    (ReadsText yaml → ∀ bytes, (String.fromUTF8? bytes).isSome →
      (HoldDocument yaml bytes ↔
        ∀ entries, yaml.load bytes = .ok (.mapping entries) →
          ∀ entry ∈ entries, entry.1.string?.isSome)) := by
  refine ⟨?ends, fun reads _ => reads.holdDocument_iff⟩
  rw [← EndsAsPolicy.iff]
  cases chosen : fileName? named environment with
  | none =>
      rw [load, chosen]
      exact iff_of_true (.ok _) nofun
  | some name =>
      simp only [Option.some.injEq, forall_eq']
      rw [load_result chosen, endsAsPolicy_ofFile_iff]

/-! ### A key that is no text -/

/-- Whether a document maps the number one to a letter, and nothing else. -/
def isNumbered : Except DocumentFault Data → Bool
  | .ok (.mapping [(.int 1, .string "x")]) => true
  | _ => false

theorem eq_of_isNumbered {result : Except DocumentFault Data}
    (numbered : isNumbered result = true) :
    result = .ok (.mapping [(.int 1, .string "x")]) := by
  unfold isNumbered at numbered
  split at numbered
  · rfl
  · cases numbered

/-- A directory with a policy file whose key is a number. -/
def numberedSystem : FileSystem := .ofFiles [("policy.yaml", "1: x\n")]

/-- The key is not known, but neither a policy nor a fault of the policy comes of it. -/
theorem numberedSystem_ends_otherwise :
    (Policy.load Yaml.library numberedSystem (some "policy.yaml") none).1 =
        .error (.keyNotText "int") ∧
      ¬ ((∃ policy,
          (Policy.load Yaml.library numberedSystem (some "policy.yaml") none).1 = .ok policy) ∨
        ∃ source problem,
          (Policy.load Yaml.library numberedSystem (some "policy.yaml") none).1 =
            .error (.policy source problem)) := by
  have named : FileSystem.IsFileName "policy.yaml" := by decide +kernel
  have resolved : numberedSystem.resolve ⟨0, ["policy.yaml"]⟩ =
      .ok (["policy.yaml"], .file "1: x\n".toUTF8) := FileSystem.resolve_ofFiles named rfl
  have seen : numberedSystem.inspect ⟨0, ["policy.yaml"]⟩ =
      .ok (some (.file "1: x\n".toUTF8)) := by
    simp only [FileSystem.inspect, named.clean, resolved, Bool.false_eq_true, if_false]
  have content : numberedSystem.content ⟨0, ["policy.yaml"]⟩ = .ok "1: x\n".toUTF8 := by
    rw [FileSystem.content, resolved]
  have read : Yaml.library.load "1: x\n".toUTF8 = .ok (.mapping [(.int 1, .string "x")]) := by
    apply eq_of_isNumbered
    rw [Yaml.library_load, Yaml.load, Text.fromUTF8?_toUTF8]
    decide +kernel
  have unknown : Policy.unknownKeys [(.int 1, .string "x")] = .error (.keyNotText "int") := rfl
  have refused (source : String) :
      (Policy.documentEntries Yaml.library source "1: x\n".toUTF8 >>= Policy.ofData source) =
        .error (.keyNotText "int") := by
    rw [Policy.documentEntries, read]
    change Policy.ofData source [(.int 1, .string "x")] = _
    rw [Policy.ofData, unknown]
    rfl
  have failed : (Policy.load Yaml.library numberedSystem (some "policy.yaml") none).1 =
      .error (.keyNotText "int") := by
    rw [Policy.load_result rfl, named.plain, Policy.ofFile_of_content seen content, refused]
  refine ⟨failed, ?_⟩
  rw [failed]
  rintro (⟨policy, same⟩ | ⟨source, problem, same⟩) <;> cases same

end Interlock
