import Interlock.Policy.Load
import Interlock.Proofs.Relaxation
import Interlock.Yaml.Library
import Mathlib.Data.List.Sort

/-!
# What policy data describes

A mapping whose keys are texts describes a policy exactly when all its keys are known and each of
them holds what belongs there.  Each field of the policy is then the given one, where one is given,
and the standard one otherwise.  Of several faults the first one is reported.  What a policy is
printed as describes the same policy again.
-/

namespace Interlock

/-- Sets with the same words are the same. -/
theorem WordSet.eq_of_mem_iff {left right : WordSet} (same : ∀ word, word ∈ left ↔ word ∈ right) :
    left = right := by
  cases left with
  | mk words sorted =>
      cases right with
      | mk others sorted' =>
          have equal : words = others := sorted.eq_of_mem_iff sorted' same
          subst equal
          rfl

mutual

/-- A JSON value as data. -/
def Data.ofJson : Json → Data
  | .null => .null
  | .bool value => .bool value
  | .int value => .int value
  | .string value => .string value
  | .array items => .list (Data.ofJsonItems items)
  | .object fields => .mapping (Data.ofJsonFields fields)

/-- The items of a list as data. -/
def Data.ofJsonItems : List Json → List Data
  | [] => []
  | item :: items => Data.ofJson item :: Data.ofJsonItems items

/-- The fields of an object as the entries of a mapping. -/
def Data.ofJsonFields : List (String × Json) → List (Data × Data)
  | [] => []
  | (name, value) :: fields => (.string name, Data.ofJson value) :: Data.ofJsonFields fields

end

theorem Data.ofJson_strings (words : List String) :
    Data.ofJson (.strings words) = .list (words.map .string) := by
  have items : Data.ofJsonItems (words.map .string) = words.map .string := by
    induction words with
    | nil => rfl
    | cons word words ih =>
        rw [List.map_cons, List.map_cons, Data.ofJsonItems, ih]
        rfl
  rw [Json.strings, Data.ofJson, items]

/-- The fields of a mapping whose keys are texts. -/
abbrev Record : Type := List (String × Data)

namespace Record

variable {record : Record} {key : String}

/-- The entries of the mapping. -/
def entries (record : Record) : List (Data × Data) :=
  record.map fun field => (.string field.1, field.2)

theorem entry?_entries (key : String) (record : Record) :
    Data.entry? key record.entries = record.lookup key := by
  induction record with
  | nil => rfl
  | cons field record ih =>
      rw [Data.entry?, entries] at ih ⊢
      rw [List.map_cons, List.find?_cons, List.lookup_cons]
      by_cases same : key = field.1
      · subst same
        simp [Data.string?]
      · have apart : (key == field.1) = false := beq_eq_false_iff_ne.2 same
        have other : ¬ field.1 = key := Ne.symm same
        simpa [Data.string?, apart, other] using ih

/-! ## Accepted records -/

/-- The keys whose values are checked, in the order in which this is done. -/
def checkedKeys : List String :=
  ["source_ext", "excluded_paths", "guard_modifiers", "read_only_mutability", "exempt_visibility",
   "extra_excluded_paths"]

/-- Whether a value is what belongs under a known key: a text that is not empty, or a list of
texts. -/
def IsProper (key : String) (value : Data) : Prop :=
  if key = Policy.extensionKey then ∃ text, text ≠ "" ∧ value = .string text
  else ∃ words : List String, value = .list (words.map .string)

/-- Whether what stands under a key, if anything does, belongs there. -/
def Proper (record : Record) (key : String) : Prop :=
  ∀ value, record.lookup key = some value → IsProper key value

/-- Whether all keys are known and hold what belongs there. -/
def Accepted (record : Record) : Prop :=
  (∀ field ∈ record, field.1 ∈ Policy.knownKeys) ∧ ∀ key ∈ checkedKeys, record.Proper key

/-! ## The policy of a record -/

/-- Whether a text is what stands under the key of the extension, or the standard extension where
the key is absent. -/
def GivesExtension (record : Record) (text : String) : Prop :=
  match record.lookup Policy.extensionKey with
  | none => text = Policy.standard.sourceExtension
  | some value => value = .string text

/-- Whether a word is in the list under a key, or in a standard set where the key is absent. -/
def Gives (record : Record) (key : String) (standard : WordSet) (word : String) : Prop :=
  match record.lookup key with
  | none => word ∈ standard
  | some value => ∃ items, value = .list items ∧ .string word ∈ items

/-- Whether a policy has each field that a record gives, and the standard one for each other. -/
structure Describes (record : Record) (policy : Policy) : Prop where
  sourceExtension : record.GivesExtension policy.sourceExtension
  excludedPaths (word : String) : word ∈ policy.excludedPaths ↔
    record.Gives "excluded_paths" Policy.standard.excludedPaths word ∨
      record.Gives Policy.additionKey .empty word
  guardModifiers (word : String) : word ∈ policy.guardModifiers ↔
    record.Gives "guard_modifiers" Policy.standard.guardModifiers word
  readOnlyMutability (word : String) : word ∈ policy.readOnlyMutability ↔
    record.Gives "read_only_mutability" Policy.standard.readOnlyMutability word
  exemptVisibility (word : String) : word ∈ policy.exemptVisibility ↔
    record.Gives "exempt_visibility" Policy.standard.exemptVisibility word

/-- A record describes at most one policy. -/
theorem Describes.unique {policy other : Policy} (described : record.Describes policy)
    (again : record.Describes other) : policy = other := by
  have extension : policy.sourceExtension = other.sourceExtension := by
    have first := described.sourceExtension
    have second := again.sourceExtension
    rw [GivesExtension] at first second
    cases given : record.lookup Policy.extensionKey with
    | none =>
        simp only [given] at first second
        exact first.trans second.symm
    | some value =>
        simp only [given] at first second
        exact Data.string.inj (first.symm.trans second)
  have excluded := WordSet.eq_of_mem_iff fun word =>
    (described.excludedPaths word).trans (again.excludedPaths word).symm
  have guards := WordSet.eq_of_mem_iff fun word =>
    (described.guardModifiers word).trans (again.guardModifiers word).symm
  have readOnly := WordSet.eq_of_mem_iff fun word =>
    (described.readOnlyMutability word).trans (again.readOnlyMutability word).symm
  have exempt := WordSet.eq_of_mem_iff fun word =>
    (described.exemptVisibility word).trans (again.exemptVisibility word).symm
  cases policy
  cases other
  simp only [Policy.mk.injEq]
  exact ⟨extension, excluded, guards, readOnly, exempt⟩

/-! ## Faults of a record -/

/-- The first of some keys, in their order, under which something stands that does not belong
there. -/
inductive FirstImproper (record : Record) : List String → String → Prop where
  | here {key : String} {keys : List String} :
      ¬ record.Proper key → FirstImproper record (key :: keys) key
  | behind {key other : String} {keys : List String} :
      record.Proper key → FirstImproper record keys other → FirstImproper record (key :: keys) other

theorem FirstImproper.mem {keys : List String} (first : record.FirstImproper keys key) :
    key ∈ keys ∧ ¬ record.Proper key := by
  induction first with
  | here improper => exact ⟨List.mem_cons_self, improper⟩
  | behind _ _ ih => exact ⟨List.mem_cons_of_mem _ ih.1, ih.2⟩

theorem FirstImproper.unique {keys : List String} {other : String}
    (first : record.FirstImproper keys key) (again : record.FirstImproper keys other) :
    key = other := by
  induction first with
  | here improper =>
      cases again with
      | here => rfl
      | behind proper => exact absurd proper improper
  | behind proper _ ih =>
      cases again with
      | here improper => exact absurd proper improper
      | behind _ again => exact ih again

/-- The keys that are not known. -/
def unknown (record : Record) : WordSet :=
  .ofList ((record.map (·.1)).filter (· ∉ Policy.knownKeys))

theorem mem_unknown :
    key ∈ record.unknown.toList ↔ key ∈ record.map (·.1) ∧ key ∉ Policy.knownKeys :=
  WordSet.mem_ofList.trans (List.mem_filter.trans (and_congr_right' decide_eq_true_iff))

theorem known_of_unknown (none : record.unknown.toList = []) :
    ∀ field ∈ record, field.1 ∈ Policy.knownKeys := by
  intro field member
  by_contra notKnown
  have unknown := mem_unknown.2 ⟨List.mem_map_of_mem member, notKnown⟩
  rw [none] at unknown
  exact absurd unknown List.not_mem_nil

/-- What is said of a value that does not belong under its key. -/
def problemAt (key : String) : PolicyProblem :=
  if key = Policy.extensionKey then .badExtension else .badList key

/-- The first fault of a record: its unknown keys in order, or else the first key under which
something stands that does not belong there. -/
inductive Fault (record : Record) : PolicyProblem → Prop where
  | unknown {keys : List String} :
      keys ≠ [] → keys.Pairwise (· < ·) →
      (∀ key, key ∈ keys ↔ key ∈ record.map (·.1) ∧ key ∉ Policy.knownKeys) →
      Fault record (.unknownKeys keys)
  | improper {key : String} :
      (∀ field ∈ record, field.1 ∈ Policy.knownKeys) → record.FirstImproper checkedKeys key →
      Fault record (problemAt key)

theorem not_known_of_keys {keys : List String} (nonempty : keys ≠ [])
    (members : ∀ key, key ∈ keys ↔ key ∈ record.map (·.1) ∧ key ∉ Policy.knownKeys) :
    ¬ ∀ field ∈ record, field.1 ∈ Policy.knownKeys := by
  intro known
  obtain ⟨key, member⟩ := List.exists_mem_of_ne_nil keys nonempty
  obtain ⟨present, notKnown⟩ := (members key).1 member
  obtain ⟨field, among, rfl⟩ := List.mem_map.1 present
  exact notKnown (known field among)

theorem Fault.not_accepted {problem : PolicyProblem} (fault : record.Fault problem) :
    ¬ record.Accepted := by
  intro accepted
  cases fault with
  | unknown nonempty _ members => exact not_known_of_keys nonempty members accepted.1
  | improper _ first => exact first.mem.2 (accepted.2 _ first.mem.1)

/-- A record has at most one first fault. -/
theorem Fault.unique {problem other : PolicyProblem} (fault : record.Fault problem)
    (again : record.Fault other) : problem = other := by
  cases fault with
  | unknown nonempty sorted members =>
      cases again with
      | unknown _ sorted' members' =>
          have same := sorted.eq_of_mem_iff sorted' fun key =>
            (members key).trans (members' key).symm
          exact same ▸ rfl
      | improper known => exact absurd known (not_known_of_keys nonempty members)
  | improper known first =>
      cases again with
      | unknown nonempty _ members => exact absurd known (not_known_of_keys nonempty members)
      | improper _ first' => exact first.unique first' ▸ rfl

end Record

namespace Policy

variable {source key : String} {record : Record}

/-! ## Reading a record -/

theorem map_of_mapM_string? {items : List Data} {words : List String}
    (read : items.mapM (·.string?) = some words) : items = words.map .string := by
  induction items generalizing words with
  | nil =>
      cases read
      rfl
  | cons item items ih =>
      rw [List.mapM_cons] at read
      cases item with
      | string word =>
          cases rest : items.mapM (·.string?) with
          | none =>
              rw [rest] at read
              cases read
          | some others =>
              rw [rest] at read
              cases read
              rw [List.map_cons, ih rest]
      | _ => cases read

theorem words?_eq_some_iff {value : Data} {words : List String} :
    words? value = some words ↔ value = .list (words.map .string) := by
  constructor
  · intro read
    cases value with
    | list items => rw [map_of_mapM_string? read]
    | _ => cases read
  · intro same
    exact same ▸ words?_strings words

theorem isProper_list (other : key ≠ extensionKey) (words : List String) :
    Record.IsProper key (.list (words.map .string)) := by
  rw [Record.IsProper, if_neg other]
  exact ⟨words, rfl⟩

theorem proper_of_absent (absent : record.lookup key = none) : record.Proper key := by
  intro value same
  rw [absent] at same
  cases same

theorem proper_of_lookup {value : Data} (given : record.lookup key = some value)
    (proper : Record.IsProper key value) : record.Proper key := by
  intro other same
  rw [given] at same
  cases same
  exact proper

/-- A list is read where it belongs, and then the set has the words that are given. -/
theorem setOr_eq_ok {standard set : WordSet} (other : key ≠ extensionKey)
    (read : setOr source key record.entries standard = .ok set) :
    record.Proper key ∧ ∀ word, word ∈ set ↔ record.Gives key standard word := by
  rw [setOr, Record.entry?_entries] at read
  simp only [Record.Gives]
  cases given : record.lookup key with
  | none =>
      rw [given] at read
      cases read
      exact ⟨proper_of_absent given, fun word => .rfl⟩
  | some value =>
      simp only [given] at read
      cases listed : words? value with
      | none =>
          rw [listed] at read
          cases read
      | some words =>
          rw [listed] at read
          cases read
          obtain rfl := words?_eq_some_iff.1 listed
          constructor
          · exact proper_of_lookup given (isProper_list other words)
          · intro word
            simp [WordSet.mem_ofList]

theorem setOr_eq_error {standard : WordSet} {failure : Failure} (other : key ≠ extensionKey)
    (failed : setOr source key record.entries standard = .error failure) :
    ¬ record.Proper key ∧ failure = .policy source (Record.problemAt key) := by
  rw [setOr, Record.entry?_entries] at failed
  simp only [Record.Proper, Record.IsProper, Record.problemAt, if_neg other]
  cases given : record.lookup key with
  | none =>
      rw [given] at failed
      cases failed
  | some value =>
      simp only [given] at failed
      cases listed : words? value with
      | some words =>
          rw [listed] at failed
          cases failed
      | none =>
          rw [listed] at failed
          cases failed
          refine ⟨fun proper => ?_, rfl⟩
          obtain ⟨words, same⟩ := proper value rfl
          rw [words?_eq_some_iff.2 same] at listed
          cases listed

theorem extensionOr_ne_empty {entries : List (Data × Data)} {text : String}
    (read : extensionOr source entries standard.sourceExtension = .ok text) : text ≠ "" := by
  rw [extensionOr] at read
  split at read
  next =>
    cases read
    decide
  next => cases read
  next nonempty _ =>
    cases read
    exact nonempty
  next => cases read

theorem extensionOr_eq_ok {text : String}
    (read : extensionOr source record.entries standard.sourceExtension = .ok text) :
    record.Proper extensionKey ∧ record.GivesExtension text := by
  rw [extensionOr, Record.entry?_entries] at read
  split at read
  next given =>
    cases read
    rw [Record.GivesExtension, given]
    exact ⟨proper_of_absent given, rfl⟩
  next => cases read
  next nonempty given =>
    cases read
    rw [Record.GivesExtension, given]
    exact ⟨proper_of_lookup given ⟨text, nonempty, rfl⟩, rfl⟩
  next => cases read

theorem extensionOr_eq_error {failure : Failure} {text : String}
    (failed : extensionOr source record.entries text = .error failure) :
    ¬ record.Proper extensionKey ∧ failure = .policy source (Record.problemAt extensionKey) := by
  rw [extensionOr, Record.entry?_entries] at failed
  simp only [Record.Proper, Record.IsProper, Record.problemAt, if_true]
  split at failed
  next => cases failed
  next given =>
    cases failed
    refine ⟨fun proper => ?_, rfl⟩
    obtain ⟨text, nonempty, same⟩ := proper _ given
    exact nonempty (Data.string.inj same).symm
  next => cases failed
  next value _ notText given =>
    cases failed
    refine ⟨fun proper => ?_, rfl⟩
    obtain ⟨text, _, same⟩ := proper _ given
    exact notText text same

theorem unknownKeys_entries (record : Record) :
    unknownKeys record.entries = .ok record.unknown.toList := by
  have texts : (record.entries.map (·.1)).filter (!isKnown ·) =
      ((record.map (·.1)).filter (· ∉ knownKeys)).map .string := by
    simp [Record.entries, List.filter_map, Function.comp_def, isKnown, Data.string?]
  have none (keys : List String) : (keys.map Data.string).filter (·.string?.isNone) = [] := by
    simp [Data.string?]
  have all (keys : List String) : (keys.map Data.string).filterMap (·.string?) = keys := by
    simp [Data.string?]
  simp only [unknownKeys, texts, none, all]
  rfl

/-- A record is refused at the first of some keys under which something stands that does not belong
there. -/
def RefusedAt (source : String) (record : Record) (keys : List String) (failure : Failure) : Prop :=
  ∃ key, record.FirstImproper keys key ∧ failure = .policy source (Record.problemAt key)

section Refused

variable {α β : Type} {first : Except Failure α} {next : α → Except Failure β} {failure : Failure}
  {keys : List String}

/-- A check comes first, then those of the other keys. -/
theorem refusedAt_of_bind (failed : first >>= next = .error failure)
    (proper : ∀ value, first = .ok value → record.Proper key)
    (improper : ∀ failure, first = .error failure →
      ¬ record.Proper key ∧ failure = .policy source (Record.problemAt key))
    (behind : ∀ value, next value = .error failure → RefusedAt source record keys failure) :
    RefusedAt source record (key :: keys) failure := by
  cases checked : first with
  | error fault =>
      rw [checked] at failed
      cases failed
      obtain ⟨improper, same⟩ := improper failure checked
      exact ⟨key, .here improper, same⟩
  | ok value =>
      rw [checked] at failed
      obtain ⟨other, first, same⟩ := behind value failed
      exact ⟨other, .behind (proper value checked) first, same⟩

theorem refusedAt_of_setOr {standard : WordSet} {next : WordSet → Except Failure β}
    (other : key ≠ extensionKey)
    (failed : setOr source key record.entries standard >>= next = .error failure)
    (behind : ∀ set, next set = .error failure → RefusedAt source record keys failure) :
    RefusedAt source record (key :: keys) failure :=
  refusedAt_of_bind failed (fun _ read => (setOr_eq_ok other read).1)
    (fun _ failed => setOr_eq_error other failed) behind

end Refused

/-- What is reported of a record is its first fault. -/
theorem ofData_eq_error {failure : Failure}
    (failed : ofData source record.entries = .error failure) :
    ∃ problem, record.Fault problem ∧ failure = .policy source problem := by
  rw [ofData, unknownKeys_entries] at failed
  dsimp only [bind, Except.bind] at failed
  split at failed
  next nonempty =>
    cases failed
    exact ⟨_, .unknown nonempty record.unknown.sorted fun _ => Record.mem_unknown, rfl⟩
  next none =>
    have known := Record.known_of_unknown (of_not_not none)
    suffices refused : RefusedAt source record Record.checkedKeys failure by
      obtain ⟨key, first, same⟩ := refused
      exact ⟨_, .improper known first, same⟩
    refine refusedAt_of_bind failed (fun _ read => (extensionOr_eq_ok read).1)
      (fun _ failed => extensionOr_eq_error failed) fun _ failed => ?_
    refine refusedAt_of_setOr (by decide) failed fun _ failed => ?_
    refine refusedAt_of_setOr (by decide) failed fun _ failed => ?_
    refine refusedAt_of_setOr (by decide) failed fun _ failed => ?_
    refine refusedAt_of_setOr (by decide) failed fun _ failed => ?_
    refine refusedAt_of_setOr (by decide) failed fun _ failed => ?_
    cases failed

/-- A record that is read is accepted and describes what is read. -/
theorem ofData_eq_ok {policy : Policy} (read : ofData source record.entries = .ok policy) :
    record.Accepted ∧ record.Describes policy := by
  obtain ⟨base, additions, described, rfl⟩ := ofData_eq_ok_iff.1 read
  have extension := extensionOr_eq_ok described.sourceExtension
  have excluded := setOr_eq_ok (by decide) described.excludedPaths
  have guards := setOr_eq_ok (by decide) described.guardModifiers
  have readOnly := setOr_eq_ok (by decide) described.readOnlyMutability
  have exempt := setOr_eq_ok (by decide) described.exemptVisibility
  have added := setOr_eq_ok (by decide) described.additions
  constructor
  · constructor
    · exact Record.known_of_unknown
        (Except.ok.inj ((unknownKeys_entries record).symm.trans described.known))
    · intro key member
      simp only [Record.checkedKeys, List.mem_cons, List.not_mem_nil, or_false] at member
      rcases member with rfl | rfl | rfl | rfl | rfl | rfl
      · exact extension.1
      · exact excluded.1
      · exact guards.1
      · exact readOnly.1
      · exact exempt.1
      · exact added.1
  · constructor
    · exact extension.2
    · intro word
      have words : word ∈ (base.withExclusions additions.toList).excludedPaths ↔
          word ∈ additions ∨ word ∈ base.excludedPaths := WordSet.mem_insertAll
      rw [words, excluded.2, added.2, or_comm]
    · exact guards.2
    · exact readOnly.2
    · exact exempt.2

theorem ofData_of_accepted (source : String) (accepted : record.Accepted) :
    ∃ policy, ofData source record.entries = .ok policy := by
  cases read : ofData source record.entries with
  | ok policy => exact ⟨policy, rfl⟩
  | error failure =>
      obtain ⟨problem, fault, -⟩ := ofData_eq_error read
      exact absurd accepted fault.not_accepted

theorem ofData_entries_eq_ok_iff {policy : Policy} :
    ofData source record.entries = .ok policy ↔ record.Accepted ∧ record.Describes policy := by
  constructor
  · exact ofData_eq_ok
  · intro described
    obtain ⟨other, read⟩ := ofData_of_accepted source described.1
    rw [read, (ofData_eq_ok read).2.unique described.2]

theorem ofData_entries_eq_error_iff {failure : Failure} :
    ofData source record.entries = .error failure ↔
      ∃ problem, record.Fault problem ∧ failure = .policy source problem := by
  constructor
  · exact ofData_eq_error
  · intro reported
    obtain ⟨problem, fault, rfl⟩ := reported
    cases read : ofData source record.entries with
    | ok policy => exact absurd (ofData_eq_ok read).1 fault.not_accepted
    | error failure =>
        obtain ⟨other, fault', rfl⟩ := ofData_eq_error read
        rw [fault'.unique fault]

/-! ## Printing a policy -/

/-- The fields that a policy is printed as. -/
def printed (policy : Policy) : Record :=
  [("source_ext", .string policy.sourceExtension),
   ("excluded_paths", .list (policy.excludedPaths.toList.map .string)),
   ("guard_modifiers", .list (policy.guardModifiers.toList.map .string)),
   ("read_only_mutability", .list (policy.readOnlyMutability.toList.map .string)),
   ("exempt_visibility", .list (policy.exemptVisibility.toList.map .string))]

theorem ofJson_toJson (policy : Policy) :
    Data.ofJson policy.toJson = .mapping policy.printed.entries := by
  simp only [toJson, Data.ofJson, Data.ofJsonFields, Data.ofJson_strings]
  rfl

theorem gives_of_lookup {set standard : WordSet}
    (given : record.lookup key = some (.list (set.toList.map .string))) (word : String) :
    record.Gives key standard word ↔ word ∈ set := by
  rw [Record.Gives, given]
  constructor
  · intro among
    obtain ⟨items, same, member⟩ := among
    cases same
    obtain ⟨other, member, same⟩ := List.mem_map.1 member
    exact Data.string.inj same ▸ member
  · intro member
    exact ⟨_, rfl, List.mem_map_of_mem member⟩

theorem accepted_printed {policy : Policy} (nonempty : policy.sourceExtension ≠ "") :
    policy.printed.Accepted := by
  constructor
  · intro field member
    have known : ∀ key ∈ extensionKey :: listKeys, key ∈ knownKeys := by decide
    have printed : policy.printed.map (·.1) = extensionKey :: listKeys := rfl
    exact known field.1 (printed ▸ List.mem_map_of_mem member)
  · intro key member
    simp only [Record.checkedKeys, List.mem_cons, List.not_mem_nil, or_false] at member
    rcases member with rfl | rfl | rfl | rfl | rfl | rfl
    · exact proper_of_lookup rfl ⟨_, nonempty, rfl⟩
    · exact proper_of_lookup rfl (isProper_list (by decide) _)
    · exact proper_of_lookup rfl (isProper_list (by decide) _)
    · exact proper_of_lookup rfl (isProper_list (by decide) _)
    · exact proper_of_lookup rfl (isProper_list (by decide) _)
    · exact proper_of_absent rfl

theorem describes_printed (policy : Policy) : policy.printed.Describes policy where
  sourceExtension := rfl
  excludedPaths word := by
    have none : ¬ policy.printed.Gives additionKey .empty word := List.not_mem_nil
    rw [gives_of_lookup rfl, or_iff_left none]
  guardModifiers word := (gives_of_lookup rfl word).symm
  readOnlyMutability word := (gives_of_lookup rfl word).symm
  exemptVisibility word := (gives_of_lookup rfl word).symm

/-- A policy is read back from what it is printed as. -/
theorem ofData_printed (source : String) {policy : Policy}
    (nonempty : policy.sourceExtension ≠ "") :
    ofData source policy.printed.entries = .ok policy :=
  ofData_entries_eq_ok_iff.2 ⟨accepted_printed nonempty, describes_printed policy⟩

/-- A policy that comes of data and of further exclusions. -/
inductive Reachable : Policy → Prop where
  | read {source : String} {entries : List (Data × Data)} {policy : Policy} :
      ofData source entries = .ok policy → Reachable policy
  | excluding {policy : Policy} (paths : List String) :
      Reachable policy → Reachable (policy.withExclusions paths)

theorem Reachable.sourceExtension_ne {policy : Policy} (reachable : policy.Reachable) :
    policy.sourceExtension ≠ "" := by
  induction reachable with
  | read read =>
      obtain ⟨base, additions, described, rfl⟩ := ofData_eq_ok_iff.1 read
      exact extensionOr_ne_empty described.sourceExtension
  | excluding paths _ ih => exact ih

/-- Whether a sorted list without repetitions stands under each key of a list. -/
def HasSortedLists (printed : Json) : Prop :=
  ∃ fields, printed = .object fields ∧
    ∀ key ∈ listKeys, ∃ words : List String,
      fields.lookup key = some (.strings words) ∧ words.Pairwise (· < ·)

theorem hasSortedLists_toJson (policy : Policy) : HasSortedLists policy.toJson := by
  refine ⟨_, rfl, ?_⟩
  intro key member
  simp only [listKeys, List.mem_cons, List.not_mem_nil, or_false] at member
  rcases member with rfl | rfl | rfl | rfl
  · exact ⟨_, rfl, policy.excludedPaths.sorted⟩
  · exact ⟨_, rfl, policy.guardModifiers.sorted⟩
  · exact ⟨_, rfl, policy.readOnlyMutability.sorted⟩
  · exact ⟨_, rfl, policy.exemptVisibility.sorted⟩

/-- A mapping with texts as keys gives a policy exactly when it is accepted.  The policy is then the
one that it describes, and prints sorted lists; otherwise its first fault is reported.  A policy
whose extension is not empty is read back from what it is printed as, and so it is from the document
of any library that reads back what it dumps.  Every policy that comes of data and of further
exclusions is such a policy. -/
theorem records_describe_policies :
    (∀ (source : String) (record : Record),
      ((∃ policy, ofData source record.entries = .ok policy) ↔ record.Accepted) ∧
      (∀ policy, ofData source record.entries = .ok policy →
        record.Describes policy ∧ HasSortedLists policy.toJson) ∧
      ∀ failure, ofData source record.entries = .error failure ↔
        ∃ problem, record.Fault problem ∧ failure = .policy source problem) ∧
    (∀ (source : String) (policy : Policy), policy.sourceExtension ≠ "" →
      (∃ entries, Data.ofJson policy.toJson = .mapping entries ∧
        ofData source entries = .ok policy) ∧
      ∀ yaml : YamlLibrary,
        yaml.load (yaml.dump policy.toJson).toUTF8 = .ok (Data.ofJson policy.toJson) →
        ∃ entries, yaml.load (policy.toYaml yaml).toUTF8 = .ok (.mapping entries) ∧
          ofData source entries = .ok policy) ∧
    ∀ policy : Policy, policy.Reachable → policy.sourceExtension ≠ "" := by
  refine ⟨?data, ?printed, fun _ => Reachable.sourceExtension_ne⟩
  case data =>
    intro source record
    refine ⟨⟨?_, ofData_of_accepted source⟩, ?_, fun _ => ofData_entries_eq_error_iff⟩
    · intro found
      obtain ⟨policy, read⟩ := found
      exact (ofData_eq_ok read).1
    · intro policy read
      exact ⟨(ofData_eq_ok read).2, hasSortedLists_toJson policy⟩
  case printed =>
    intro source policy nonempty
    constructor
    · exact ⟨_, ofJson_toJson policy, ofData_printed source nonempty⟩
    · intro yaml read
      rw [ofJson_toJson] at read
      exact ⟨_, read, ofData_printed source nonempty⟩

end Policy

/-! ### A record with an empty list -/

/-- Data with two empty lists and two additional paths, one of them given twice. -/
def emptyingRecord : Record :=
  [("extra_excluded_paths", .list [.string "b", .string "a", .string "b"]),
   ("excluded_paths", .list []), ("exempt_visibility", .list []), ("source_ext", .string ".vy")]

/-- What the data describes. -/
def emptyingPolicy : Policy :=
  { Policy.standard with
    sourceExtension := ".vy", excludedPaths := .ofList ["a", "b"], exemptVisibility := .empty }

/-- A policy that knows no guards. -/
def guardlessPolicy : Policy where
  sourceExtension := ".vy"
  excludedPaths := .ofList ["b", "a"]
  guardModifiers := .empty
  readOnlyMutability := .ofList ["#"]
  exemptVisibility := .empty

/-- Whether a document holds what the policy is printed as. -/
def isGuardless : Except DocumentFault Data → Bool
  | .ok (.mapping
      [(.string "source_ext", .string ".vy"),
       (.string "excluded_paths", .list [.string "a", .string "b"]),
       (.string "guard_modifiers", .list []),
       (.string "read_only_mutability", .list [.string "#"]),
       (.string "exempt_visibility", .list [])]) => true
  | _ => false

theorem eq_of_isGuardless {result : Except DocumentFault Data}
    (guardless : isGuardless result = true) :
    result = .ok (Data.ofJson guardlessPolicy.toJson) := by
  unfold isGuardless at guardless
  split at guardless
  · rfl
  · cases guardless

/-- Empty lists replace the standard ones, and the document of a policy without guards is read
back. -/
theorem emptyingRecord_describes :
    (∃ policy, Policy.ofData "policy" emptyingRecord.entries = .ok policy ∧
      emptyingRecord.Describes policy) ∧
    ∃ entries, Yaml.load (guardlessPolicy.toYaml Yaml.library).toUTF8 = .ok (.mapping entries) ∧
      Policy.ofData "policy" entries = .ok guardlessPolicy := by
  have read : Policy.ofData "policy" emptyingRecord.entries = .ok emptyingPolicy := rfl
  have reread : Yaml.library.load (Yaml.library.dump guardlessPolicy.toJson).toUTF8 =
      .ok (Data.ofJson guardlessPolicy.toJson) := by
    apply eq_of_isGuardless
    rw [Yaml.library_load, Yaml.load, Text.fromUTF8?_toUTF8]
    decide +kernel
  obtain ⟨data, printed, -⟩ := Policy.records_describe_policies
  constructor
  · exact ⟨emptyingPolicy, read, ((data _ _).2.1 _ read).1⟩
  · exact (printed "policy" guardlessPolicy (by decide)).2 Yaml.library reread

end Interlock
