import Interlock.Policy.OfData
import Interlock.Proofs.Stream
import Mathlib.Data.List.Basic

/-!
# Relaxed policies

A policy that excludes more files, knows more guards or exempts more functions finds no violation
that a stricter one does not find, and it fails on no file on which the stricter one does not
fail.  Further exclusions in a policy document relax the policy that it describes.
-/

namespace Interlock

namespace Policy

/-- A policy that forgives whatever another one forgives, about the same kind of files. -/
structure RelaxedTo (policy relaxed : Policy) : Prop where
  sourceExtension : relaxed.sourceExtension = policy.sourceExtension
  excludedPaths : ∀ word ∈ policy.excludedPaths, word ∈ relaxed.excludedPaths
  guardModifiers : ∀ word ∈ policy.guardModifiers, word ∈ relaxed.guardModifiers
  readOnlyMutability : ∀ word ∈ policy.readOnlyMutability, word ∈ relaxed.readOnlyMutability
  exemptVisibility : ∀ word ∈ policy.exemptVisibility, word ∈ relaxed.exemptVisibility

theorem relaxedTo_withExclusions (policy : Policy) (keys : List String) :
    policy.RelaxedTo (policy.withExclusions keys) where
  sourceExtension := rfl
  excludedPaths _ member := WordSet.mem_insertAll.2 (.inr member)
  guardModifiers _ member := member
  readOnlyMutability _ member := member
  exemptVisibility _ member := member

section Relaxed

variable [StackRoom] {policy relaxed : Policy} (weaker : policy.RelaxedTo relaxed)
include weaker

omit [StackRoom] in
theorem RelaxedTo.permits {exposure : Exposure} (permitted : policy.permits exposure = true) :
    relaxed.permits exposure = true := by
  simp only [Policy.permits, Bool.or_eq_true, decide_eq_true_eq, List.any_eq_true] at permitted ⊢
  rcases permitted with (exempt | readOnly) | ⟨modifier, applied, guard⟩
  · exact .inl (.inl (weaker.exemptVisibility _ exempt))
  · exact .inl (.inr (weaker.readOnlyMutability _ readOnly))
  · exact .inr ⟨modifier, applied, weaker.guardModifiers _ guard⟩

omit [StackRoom] in
/-- Fewer functions of a contract need a guard. -/
theorem RelaxedTo.violations_sublist (path : String) (contract : Tree.Contract) :
    (relaxed.violations path contract).Sublist (policy.violations path contract) := by
  apply List.Sublist.map
  apply List.monotone_filter_right
  intro function refused
  cases permitted : policy.accepts function with
  | false => rfl
  | true => simp [accepts, weaker.permits permitted] at refused

/-- A source is judged by both policies or by neither. -/
theorem RelaxedTo.checkSource (path text : String) :
    (policy.checkSource path text).CompletesWith (fun found left => left.Sublist found)
      (relaxed.checkSource path text) := by
  rw [Policy.checkSource, Policy.checkSource]
  cases (Reading.ofSource path text).tree path with
  | error failure => exact nofun
  | ok unit =>
      cases primary : unit.primary? with
      | none => simp [Trace.CompletesWith, primary]
      | some contract =>
          simp only [primary]
          exact fun _ => ⟨rfl, weaker.violations_sublist path contract⟩

/-- A file that is not excluded by the relaxed policy was not excluded before. -/
theorem RelaxedTo.checkFile (system : FileSystem) (path : String) :
    (policy.checkFile system path).CompletesWith (fun found left => left.Sublist found)
      (relaxed.checkFile system path) := by
  have sameSource : relaxed.isSource = policy.isSource := by
    funext key
    rw [isSource, isSource, weaker.sourceExtension]
  cases source : policy.isSource (system.key path) with
  | false =>
      rw [checkFile_of_other source, checkFile_of_other (sameSource ▸ source)]
      exact fun _ => ⟨rfl, .slnil⟩
  | true =>
  cases excluded : relaxed.isExcluded (system.key path) with
  | true =>
      rw [checkFile_of_excluded (sameSource ▸ source) excluded]
      exact fun _ => ⟨rfl, List.nil_sublist _⟩
  | false =>
  have included : policy.isExcluded (system.key path) = false := by
    rw [Bool.eq_false_iff]
    intro before
    have now := weaker.excludedPaths _ (of_decide_eq_true before)
    exact Bool.eq_false_iff.1 excluded (decide_eq_true now)
  cases loaded : system.load path with
  | error failure =>
      rw [checkFile_of_error source included loaded]
      exact nofun
  | ok file =>
      rw [checkFile_of_load source included loaded,
        checkFile_of_load (sameSource ▸ source) excluded loaded]
      exact weaker.checkSource file.key file.text

/-- A relaxed policy finds some of the violations, in the same order. -/
theorem RelaxedTo.collect {system : FileSystem} {paths : List String} {found : List Violation}
    (complete : policy.collect system paths = .ok found) :
    ∃ left, relaxed.collect system paths = .ok left ∧ left.Sublist found :=
  collect_related (weaker.checkFile system) .slnil List.Sublist.append complete

/-- Files without violations have none under a relaxed policy. -/
theorem RelaxedTo.collect_eq_nil {system : FileSystem} {paths : List String}
    (passes : policy.collect system paths = .ok []) : relaxed.collect system paths = .ok [] := by
  obtain ⟨left, complete, part⟩ := weaker.collect passes
  rw [complete, List.sublist_nil.1 part]

/-- A tree that passes does so under a relaxed policy. -/
theorem RelaxedTo.checkTree_eq_nil {system : FileSystem} {root : String} {all : Bool}
    (passes : (policy.checkTree system root all).result = .ok []) :
    (relaxed.checkTree system root all).result = .ok [] := by
  obtain ⟨files, walked, none⟩ := (policy.checkTree_eq_nil_iff system).1 passes
  exact (relaxed.checkTree_eq_nil_iff system).2 ⟨files, walked, weaker.collect_eq_nil none⟩

end Relaxed

/-! ## Exclusions in a document -/

/-- Two computations in turn give a value when both give one. -/
theorem exceptBind_eq_ok_iff {ε α β : Type} {first : Except ε α} {next : α → Except ε β}
    {value : β} :
    (first >>= next) = .ok value ↔ ∃ found, first = .ok found ∧ next found = .ok value := by
  cases first with
  | error fault => exact ⟨nofun, nofun⟩
  | ok found => exact ⟨fun run => ⟨found, rfl, run⟩, fun ⟨_, same, run⟩ => Except.ok.inj same ▸ run⟩

/-- What the entries of a document describe: a policy, and the exclusions to be added to it. -/
structure Described (source : String) (entries : List (Data × Data)) (base : Policy)
    (additions : WordSet) : Prop where
  known : unknownKeys entries = .ok []
  sourceExtension :
    extensionOr source entries standard.sourceExtension = .ok base.sourceExtension
  excludedPaths :
    setOr source "excluded_paths" entries standard.excludedPaths = .ok base.excludedPaths
  guardModifiers :
    setOr source "guard_modifiers" entries standard.guardModifiers = .ok base.guardModifiers
  readOnlyMutability :
    setOr source "read_only_mutability" entries standard.readOnlyMutability =
      .ok base.readOnlyMutability
  exemptVisibility :
    setOr source "exempt_visibility" entries standard.exemptVisibility =
      .ok base.exemptVisibility
  additions : setOr source additionKey entries .empty = .ok additions

theorem ofData_eq_ok_iff {source : String} {entries : List (Data × Data)} {policy : Policy} :
    ofData source entries = .ok policy ↔
      ∃ base additions, Described source entries base additions ∧
        policy = base.withExclusions additions.toList := by
  constructor
  · intro read
    rw [ofData] at read
    obtain ⟨unknown, known, read⟩ := exceptBind_eq_ok_iff.1 read
    split at read
    · cases read
    · rename_i nothing
      obtain rfl : unknown = [] := by simpa using nothing
      obtain ⟨sourceExtension, extension, read⟩ := exceptBind_eq_ok_iff.1 read
      obtain ⟨excludedPaths, excluded, read⟩ := exceptBind_eq_ok_iff.1 read
      obtain ⟨guardModifiers, guards, read⟩ := exceptBind_eq_ok_iff.1 read
      obtain ⟨readOnlyMutability, readOnly, read⟩ := exceptBind_eq_ok_iff.1 read
      obtain ⟨exemptVisibility, exempt, read⟩ := exceptBind_eq_ok_iff.1 read
      obtain ⟨additions, added, read⟩ := exceptBind_eq_ok_iff.1 read
      exact ⟨⟨sourceExtension, excludedPaths, guardModifiers, readOnlyMutability, exemptVisibility⟩,
        additions, ⟨known, extension, excluded, guards, readOnly, exempt, added⟩,
        (Except.ok.inj read).symm⟩
  · rintro ⟨base, additions, described, rfl⟩
    rw [ofData, described.known]
    simp only [described.sourceExtension, described.excludedPaths, described.guardModifiers,
      described.readOnlyMutability, described.exemptVisibility, described.additions]
    rfl

/-- Words as the entry of a document that adds exclusions. -/
def addition (words : List String) : Data × Data :=
  (.string additionKey, .list (words.map .string))

section Addition

variable (words : List String) (before after : List (Data × Data))

theorem words?_strings : words? (.list (words.map .string)) = some words := by
  rw [words?, List.mapM_map]
  exact List.mapM_pure.trans (congrArg some (List.map_id words))

theorem unknownKeys_addition :
    unknownKeys (before ++ addition words :: after) = unknownKeys (before ++ after) := by
  have known : isKnown (addition words).1 = true := by
    simp [isKnown, addition, Data.string?, knownKeys]
  simp only [unknownKeys, List.map_append, List.map_cons, List.filter_append, List.filter_cons,
    known, Bool.not_true, Bool.false_eq_true, if_false]

theorem entry?_addition_of_ne {key : String} (other : key ≠ additionKey) :
    Data.entry? key (before ++ addition words :: after) = Data.entry? key (before ++ after) := by
  have different : ¬ (addition words).1.string? = some key :=
    fun same => other (Option.some.inj same).symm
  rw [Data.entry?, Data.entry?, List.find?_append, List.find?_append,
    List.find?_cons_of_neg (by simpa using different)]

variable {before after} in
theorem entry?_addition (absent : Data.entry? additionKey (before ++ after) = none) :
    Data.entry? additionKey (before ++ addition words :: after) =
      some (.list (words.map .string)) := by
  rw [Data.entry?, Option.map_eq_none_iff, List.find?_append, Option.or_eq_none_iff] at absent
  rw [Data.entry?, List.find?_append, absent.1,
    List.find?_cons_of_pos (by simp [addition, Data.string?])]
  rfl

/-- A document without additional exclusions describes the same policy with some. -/
theorem Described.addition {source : String} {base : Policy} {additions : WordSet}
    (absent : Data.entry? additionKey (before ++ after) = none)
    (described : Described source (before ++ after) base additions) :
    Described source (before ++ Policy.addition words :: after) base (.ofList words) := by
  have set {key : String} (other : key ≠ additionKey) (standard : WordSet) :
      setOr source key (before ++ Policy.addition words :: after) standard =
        setOr source key (before ++ after) standard := by
    rw [setOr, setOr, entry?_addition_of_ne words before after other]
  constructor
  · exact (unknownKeys_addition words before after).trans described.known
  · rw [extensionOr, entry?_addition_of_ne words before after (by decide)]
    exact described.sourceExtension
  · exact (set (by decide) _).trans described.excludedPaths
  · exact (set (by decide) _).trans described.guardModifiers
  · exact (set (by decide) _).trans described.readOnlyMutability
  · exact (set (by decide) _).trans described.exemptVisibility
  · rw [setOr, entry?_addition words absent]
    simp only [words?_strings]

variable {before after} in
/-- Adding exclusions to a document excludes them from what it describes. -/
theorem ofData_addition {source : String} {policy : Policy}
    (absent : Data.entry? additionKey (before ++ after) = none)
    (read : ofData source (before ++ after) = .ok policy) :
    ofData source (before ++ addition words :: after) =
      .ok (policy.withExclusions (WordSet.ofList words).toList) := by
  obtain ⟨base, additions, described, rfl⟩ := ofData_eq_ok_iff.1 read
  have none : additions = .empty := by
    have added := described.additions
    rw [setOr, absent] at added
    exact (Except.ok.inj added).symm
  rw [none]
  exact ofData_eq_ok_iff.2 ⟨base, _, described.addition words before after absent, rfl⟩

end Addition

/-- A relaxed policy never adds findings.  Where the files can be checked under a policy, they can
be under a relaxed one, and the violations are some of those before, in the same order; if there
is no first violation, there is none then.  Adding a list of exclusions to a policy document that
has none gives a policy under which a tree passes if it passed before. -/
theorem relaxed_policy_adds_no_findings [StackRoom] :
    (∀ (policy relaxed : Policy), policy.RelaxedTo relaxed →
      ∀ (system : FileSystem) (paths : List String),
        (∀ found, policy.collect system paths = .ok found →
          ∃ left, relaxed.collect system paths = .ok left ∧ left.Sublist found) ∧
        (policy.evaluate system paths = .ok none →
          relaxed.evaluate system paths = .ok none)) ∧
    ∀ (source : String) (before after : List (Data × Data)) (words : List String)
      (policy : Policy), Data.entry? additionKey (before ++ after) = none →
      ofData source (before ++ after) = .ok policy →
      ∃ extended,
        ofData source (before ++ (.string additionKey, .list (words.map .string)) :: after) =
          .ok extended ∧
        ∀ (system : FileSystem) (root : String) (all : Bool),
          (policy.checkTree system root all).result = .ok [] →
          (extended.checkTree system root all).result = .ok [] := by
  constructor
  · intro policy relaxed weaker system paths
    refine ⟨fun found => weaker.collect, ?_⟩
    rw [evaluate_eq_none_iff, evaluate_eq_none_iff]
    exact weaker.collect_eq_nil
  · intro source before after words policy absent read
    exact ⟨_, ofData_addition words absent read, fun _ _ _ =>
      (policy.relaxedTo_withExclusions _).checkTree_eq_nil⟩

end Policy

/-! ## A sample -/

/-- The only file of a directory is found on a walk. -/
theorem FileSystem.walk_ofFiles_single {name text : String} (room : Nat)
    (named : IsFileName name) :
    (ofFiles [(name, text)]).walk (room + 1) (Path.parse ".") = .ok [⟨0, [name]⟩] :=
  walk_ofFiles room (by simpa using named) (List.pairwise_singleton _ _)

/-- The sample policy, but public functions are exempt as well. -/
def relaxedPolicy : Policy :=
  { samplePolicy with exemptVisibility := .ofList ["private", "public"] }

theorem relaxedTo_relaxedPolicy : samplePolicy.RelaxedTo relaxedPolicy where
  sourceExtension := rfl
  excludedPaths _ member := member
  guardModifiers _ member := member
  readOnlyMutability _ member := member
  exemptVisibility := by decide +kernel

/-- A document that excludes nothing and names one guard. -/
def sampleDocument : List (Data × Data) :=
  [(.string "excluded_paths", .list []), (.string "guard_modifiers", .list [.string "stoppable"])]

/-- What the document describes. -/
def documentPolicy : Policy :=
  { Policy.standard with excludedPaths := .empty, guardModifiers := .ofList ["stoppable"] }

/-- A directory with one guarded contract. -/
def guardedSystem : FileSystem :=
  .ofFiles [("A.sol", "contract A \x7b function f() public stoppable; \x7d")]

open StackRoom in
theorem guardedSystem_passes :
    (documentPolicy.checkTree guardedSystem "." false).result = .ok [] := by
  have named : FileSystem.IsFileName "A.sol" := by decide +kernel
  refine (documentPolicy.checkTree_eq_nil_iff guardedSystem).2
    ⟨[⟨0, ["A.sol"]⟩], FileSystem.walk_ofFiles_single _ named, ?_⟩
  have shown : [(⟨0, ["A.sol"]⟩ : Path)].map (·.display) = ["A.sol"] := by decide +kernel
  rw [shown, Policy.collect_single, guardedSystem,
    Policy.checkFile_ofFiles named named.plain rfl (by decide +kernel) (by decide +kernel)]
  decide +kernel

open StackRoom in
/-- Exempting public functions leaves some of two violations, and excluding a further file lets a
tree with a guarded contract pass as before. -/
theorem relaxedPolicy_adds_no_findings :
    samplePolicy.collect sampleSystem ["A.sol", "B.sol"] =
        .ok [sampleViolation, otherViolation] ∧
      (∃ left, relaxedPolicy.collect sampleSystem ["A.sol", "B.sol"] = .ok left ∧
        left.Sublist [sampleViolation, otherViolation]) ∧
      ∃ extended,
        Policy.ofData "policy"
            (sampleDocument ++ [(.string Policy.additionKey, .list [.string "B.sol"])]) =
          .ok extended ∧
        (extended.checkTree guardedSystem "." false).result = .ok [] := by
  obtain ⟨fewer, document⟩ := Policy.relaxed_policy_adds_no_findings
  have complete : samplePolicy.collect sampleSystem ["A.sol", "B.sol"] =
      .ok [sampleViolation, otherViolation] := by
    rw [Policy.collect, Policy.check_none_cons, Policy.check_single,
      checkFile_sample (by decide +kernel), checkFile_otherSample]
    rfl
  have described : Policy.ofData "policy" (sampleDocument ++ []) = .ok documentPolicy := rfl
  obtain ⟨extended, read, passes⟩ :=
    document "policy" sampleDocument [] ["B.sol"] documentPolicy rfl described
  exact ⟨complete, (fewer _ _ relaxedTo_relaxedPolicy _ _).1 _ complete, extended, read,
    passes _ _ _ guardedSystem_passes⟩

end Interlock
