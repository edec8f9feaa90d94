import Interlock.Proofs.Canonical
import Interlock.Proofs.Enumeration
import Interlock.Proofs.Exclusion

/-!
# Keys of enumerated files

The files that a walk lists stand at different places below its root, and making their paths
normal, or seeing them from the working directory, does not bring two of them together.  So each
of them has a key of its own, and a key in an exclusion list excludes no more than one of them.
-/

namespace Interlock

/-! ## Names below a path -/

namespace Path

section Under

variable {path other : Path} {names : List String} {directory : List String}

theorem IsRead.under (read : path.IsRead) (named : ∀ name ∈ names, IsName name) :
    (path.under names).IsRead :=
  ⟨read.slashes, List.forall_mem_append.2
    ⟨read.parts, fun name member => ⟨(named name member).isPart, (named name member).apart⟩⟩⟩

/-- Names stay where they are when the path in front of them is made normal. -/
theorem normal_under (named : ∀ name ∈ names, IsName name) :
    (path.under names).normal = path.normal.under names := by
  have down : ∀ name ∈ names, name ≠ ".." := fun name member => (named name member).down
  simp only [normal, under, List.foldl_append, foldl_climb_names down, List.reverse_append,
    List.reverse_reverse]
  rfl

theorem seenFrom_under (seen : path.slashes = 0 ∨ directory <+: path.parts) :
    (path.under names).seenFrom directory = (path.seenFrom directory).under names := by
  by_cases relative : path.slashes = 0
  · rw [seenFrom_relative relative]
    exact seenFrom_relative relative
  · obtain ⟨rest, split⟩ := seen.resolve_left relative
    rw [seenFrom_below relative split.symm]
    apply seenFrom_below
    · exact relative
    · rw [under, ← split, List.append_assoc]

/-- Paths with the same slashes are told apart from every directory. -/
theorem seenFrom_inj (slashes : path.slashes = other.slashes) :
    path.seenFrom directory = other.seenFrom directory ↔ path = other := by
  refine ⟨fun same => ?_, congrArg _⟩
  by_cases relative : path.slashes = 0
  · rwa [seenFrom_relative relative, seenFrom_relative (slashes ▸ relative)] at same
  have rooted : other.slashes ≠ 0 := slashes ▸ relative
  have below : directory <+: path.parts ↔ directory <+: other.parts := by
    have alike : (path.seenFrom directory).slashes = 0 ↔ (other.seenFrom directory).slashes = 0 :=
      same ▸ .rfl
    rwa [slashes_seenFrom_eq_zero_iff, slashes_seenFrom_eq_zero_iff, or_iff_right relative,
      or_iff_right rooted] at alike
  by_cases inside : directory <+: path.parts
  · obtain ⟨rest, split⟩ := inside
    obtain ⟨restOther, splitOther⟩ := below.1 ⟨rest, split⟩
    rw [seenFrom_below relative split.symm, seenFrom_below rooted splitOther.symm] at same
    obtain ⟨-, rfl⟩ := Path.mk.inj same
    exact congrArg₂ Path.mk slashes (split.symm.trans splitOther)
  · rwa [seenFrom_elsewhere inside, seenFrom_elsewhere (mt below.2 inside)] at same

theorem key_under (read : path.IsRead) (named : ∀ name ∈ names, IsName name) :
    key directory (path.under names).display =
      ((path.normal.under names).seenFrom directory).display := by
  rw [key, (read.under named).parse_display, normal_under named]

/-- Different names below a path have different keys. -/
theorem key_under_inj (read : path.IsRead) {names others : List String}
    (named : ∀ name ∈ names, IsName name) (namedOthers : ∀ name ∈ others, IsName name) :
    key directory (path.under names).display = key directory (path.under others).display ↔
      names = others := by
  have seen {some : List String} (named : ∀ name ∈ some, IsName name) :
      ((path.normal.under some).seenFrom directory).IsRead := by
    rw [← normal_under named]
    exact (isNormal_normal (read.under named)).seenFrom.isRead
  have slashes : (path.normal.under names).slashes = (path.normal.under others).slashes := rfl
  rw [key_under read named, key_under read namedOthers,
    (seen named).display_inj (seen namedOthers), seenFrom_inj slashes]
  refine ⟨fun same => ?_, congrArg _⟩
  exact List.append_cancel_left (Path.mk.inj same).2

theorem intercalate_append {front back : List String} (some : front ≠ []) (more : back ≠ []) :
    "/".intercalate (front ++ back) = "/".intercalate front ++ "/" ++ "/".intercalate back := by
  have slash : "/".toList = ['/'] := rfl
  rw [← String.toList_inj]
  simp only [String.toList_intercalate, String.toList_append, slash, List.map_append]
  rw [Text.intercalate_append (by simpa using some) (by simpa using more), List.append_assoc,
    List.singleton_append]

theorem display_relative {parts : List String} (some : parts ≠ []) :
    display ⟨0, parts⟩ = "/".intercalate parts := by
  rw [display, if_neg (by simpa using some)]
  exact String.empty_append

/-- Names behind a relative path, as text. -/
theorem display_under (read : path.IsRead) (relative : path.slashes = 0) (some : names ≠ []) :
    (path.under names).display =
      if path.display = "." then "/".intercalate names
      else path.display ++ "/" ++ "/".intercalate names := by
  obtain ⟨slashes, parts⟩ := path
  obtain rfl : slashes = 0 := relative
  by_cases bare : parts = []
  · subst bare
    exact display_relative some
  · have notDot : display ⟨0, parts⟩ ≠ "." := by
      have empty : IsRead ⟨0, []⟩ := ⟨Nat.zero_le _, nofun⟩
      intro dot
      exact bare (Path.mk.inj ((read.display_inj empty).1 dot)).2
    rw [if_neg notDot, display_relative bare, ← intercalate_append bare some]
    exact display_relative (by simp [some])

end Under

end Path

/-- The names in each directory of a tree are different names of entries. -/
def Entry.IsNamed (root : Entry) : Prop :=
  ∀ place entries, root.descend? place = some (.directory entries) →
    (entries.map (·.1)).Nodup ∧ ∀ name ∈ entries.map (·.1), Path.IsName name

namespace FileSystem

/-! ## What a walk lists -/

theorem exists_ok_of_mapM {α β : Type} {part : α → Except Failure β} {list : List α}
    {found : List β} (done : list.mapM part = .ok found) :
    ∀ item ∈ list, ∃ answer, part item = .ok answer := by
  induction list generalizing found with
  | nil => exact nofun
  | cons item list ih =>
      rw [List.mapM_cons] at done
      cases first : part item with
      | error failure => rw [first] at done; cases done
      | ok answer =>
          rw [first] at done
          cases others : list.mapM part with
          | error failure => rw [others] at done; cases done
          | ok answers => exact List.forall_mem_cons.2 ⟨⟨answer, first⟩, ih others⟩

variable {system : FileSystem} {room : Nat}

/-- A walk below a directory that succeeds has found the directory and listed its entries. -/
theorem filesBelow_succ_ok {root path : Path} {above : List (List String)} {paths : List Path}
    (done : system.filesBelow root (room + 1) path above = .ok paths) :
    ∃ here entry, system.resolve path = .ok (here, entry) ∧
      ((names entry).mapM (system.partBelow root room path (here :: above))).map List.flatten =
        .ok paths := by
  cases found : system.resolve path with
  | error fault =>
      rw [filesBelow, found] at done
      cases done
  | ok reached =>
      obtain ⟨here, entry⟩ := reached
      by_cases met : here ∈ above
      · rw [filesBelow, found] at done
        simp only [List.contains_iff_mem, met, if_true] at done
        cases done
      · rw [filesBelow_succ found met] at done
        exact ⟨here, entry, rfl, done⟩

/-- A walk that succeeds is one below a directory. -/
theorem filesBelow_of_walk {root : Path} {paths : List Path}
    (walked : system.walk room root = .ok paths) :
    system.filesBelow root room root [] = .ok paths := by
  cases seen : system.inspect root with
  | error failure => simp only [walk, seen, bind, Except.bind] at walked; cases walked
  | ok answer =>
      rcases answer with _ | _ | _ | _
      · simp only [walk, seen, bind, Except.bind] at walked; cases walked
      · simp only [walk, seen, bind, Except.bind] at walked; cases walked
      · rwa [walk_of_directory seen] at walked
      · simp only [walk, seen, bind, Except.bind] at walked; cases walked

/-- What stands in a directory of a tree with names has a name. -/
theorem names_of_named (named : system.root.IsNamed) {path : Path} {here : List String}
    {entry : Entry} (found : system.resolve path = .ok (here, entry)) :
    (names entry).Pairwise (· < ·) ∧ ∀ name ∈ names entry, Path.IsName name := by
  cases entry with
  | file | link => simp [names, Entry.entries]
  | directory entries =>
      obtain ⟨distinct, all⟩ := named here entries (leadsTo_of_resolve found).2
      exact ⟨names_increasing distinct, fun name member => all name (mem_names.1 member)⟩

/-- An enumeration that meets no loop and has room enough, of files that all stand under names. -/
def EnumeratesNamed (root path : Path) (isFile : List String → Prop)
    (result : Except Failure (List Path)) : Prop :=
  Enumerates root path False False isFile result ∧
    ∀ list, isFile list → ∀ name ∈ list, Path.IsName name

/-- What one entry leads to is enumerated, where what is below a directory is. -/
theorem partBelow_enumeratesNamed {root path : Path} {above : List (List String)}
    {name : String} {files : List Path}
    (listed : system.partBelow root room path above name = .ok files)
    (below : ∀ {path above paths}, system.filesBelow root room path above = .ok paths →
      ∃ isFile, EnumeratesNamed root path isFile (.ok paths) ∧ ¬ isFile []) :
    ∃ isFile, EnumeratesNamed root (path.child name) isFile (.ok files) := by
  cases seen : system.inspect (path.child name) with
  | error failure =>
      rw [partBelow, seen] at listed
      cases listed
  | ok answer =>
      rw [partBelow, seen] at listed
      rcases answer with _ | _ | _ | _
      · cases listed
        exact ⟨_, .empty _ _, by simp⟩
      · cases listed
        exact ⟨_, .single _ _, by simp⟩
      · exact (below listed).imp fun _ => And.left
      · cases listed
        exact ⟨_, .empty _ _, by simp⟩

/-- A walk that succeeds enumerates files below its directory. -/
theorem filesBelow_enumeratesNamed (named : system.root.IsNamed) {root path : Path}
    {above : List (List String)} {paths : List Path}
    (done : system.filesBelow root room path above = .ok paths) :
    ∃ isFile, EnumeratesNamed root path isFile (.ok paths) ∧ ¬ isFile [] := by
  induction room generalizing path above paths with
  | zero => cases done
  | succ room ih =>
      obtain ⟨here, entry, found, listed⟩ := filesBelow_succ_ok done
      obtain ⟨sorted, all⟩ := names_of_named named found
      have each : ∀ name ∈ names entry, ∃ files,
          system.partBelow root room path (here :: above) name = .ok files := by
        cases lists : (names entry).mapM (system.partBelow root room path (here :: above)) with
        | error failure => rw [lists] at listed; cases listed
        | ok found => exact exists_ok_of_mapM lists
      have parts : ∀ name, ∃ isFile, name ∈ names entry →
          EnumeratesNamed root (path.child name) isFile
            (system.partBelow root room path (here :: above) name) := by
        intro name
        by_cases member : name ∈ names entry
        · obtain ⟨files, part⟩ := each name member
          obtain ⟨isFile, enumerates⟩ := partBelow_enumeratesNamed part ih
          exact ⟨isFile, fun _ => part ▸ enumerates⟩
        · exact ⟨fun _ => False, fun absurdly => absurd absurdly member⟩
      choose isFile enumerates using parts
      have gathered := Enumerates.gather sorted fun name member => (enumerates name member).1
      rw [listed] at gathered
      refine ⟨_, ⟨gathered.congr (by simp) (by simp) fun _ => .rfl, ?_⟩, by simp⟩
      rintro _ ⟨name, member, rest, rfl, file⟩
      exact List.forall_mem_cons.2 ⟨all name member, (enumerates name member).2 rest file⟩

/-- What a walk lists stands under different names of entries. -/
theorem exists_lists_of_walk (named : system.root.IsNamed) {root : Path} {paths : List Path}
    (walked : system.walk room root = .ok paths) :
    ∃ lists : List (List String), paths = lists.map root.under ∧ lists.Nodup ∧
      ∀ list ∈ lists, list ≠ [] ∧ ∀ name ∈ list, Path.IsName name := by
  obtain ⟨isFile, ⟨enumerates, all⟩, notRoot⟩ :=
    filesBelow_enumeratesNamed named (filesBelow_of_walk walked)
  generalize answer : Except.ok paths = result at enumerates
  cases enumerates with
  | loop | deep => cases answer
  | done _ _ lists increasing files =>
  refine ⟨lists, Except.ok.inj answer, ?_, fun list member => ?_⟩
  · refine increasing.imp ?_
    rintro names _ less rfl
    exact List.lt_irrefl _ less
  · have file := (files list).1 member
    refine ⟨?_, all list file⟩
    rintro rfl
    exact notRoot file

/-- Where the root is seen from the working directory, a file below it has the key of the root with
the names below the root behind it. -/
theorem key_under_of_seen {root : String} {names : List String}
    (seen : ¬ IsAbsolute root ∨ system.workingDirectory <+: (Path.parse root).normal.parts)
    (some : names ≠ []) (named : ∀ name ∈ names, Path.IsName name) :
    system.key ((Path.parse root).under names).display =
      if system.key root = "." then "/".intercalate names
      else system.key root ++ "/" ++ "/".intercalate names := by
  have relative : (Path.parse root).normal.slashes = 0 ∨
      system.workingDirectory <+: (Path.parse root).normal.parts :=
    seen.imp_left Path.slashes_parse_eq_zero_iff.2
  rw [key, Path.key_under (Path.isRead_parse root) named, Path.seenFrom_under relative]
  exact Path.display_under (Path.isNormal_key _ _).isRead
    (Path.slashes_seenFrom_eq_zero_iff.2 relative) some

/-- Items with different keys, of which all that are chosen have one key. -/
theorem length_le_one_of_distinct {α : Type} {list : List α} {key : α → String} {entry : String}
    {chosen : α → Bool} (distinct : (list.map key).Nodup)
    (same : ∀ item ∈ list, chosen item = true → key item = entry) :
    (list.filter chosen).length ≤ 1 := by
  have alike : (list.filter chosen).map key = List.replicate (list.filter chosen).length entry := by
    refine List.eq_replicate_iff.2 ⟨List.length_map _, fun answer member => ?_⟩
    obtain ⟨item, among, rfl⟩ := List.mem_map.1 member
    exact same item (List.mem_filter.1 among).1 (List.mem_filter.1 among).2
  have few : ((list.filter chosen).map key).Nodup :=
    distinct.sublist (List.filter_sublist.map key)
  rwa [alike, List.nodup_replicate] at few

/-- No two files that a walk lists have the same key.  Where the root is relative, or is at or below
the working directory, a file has the key of the root with the names below the root behind it.  A
key that is added to an exclusion list excludes no more than one of the files. -/
theorem walked_files_have_own_keys (system : FileSystem) (named : system.root.IsNamed)
    (room : Nat) (root : String) {paths : List Path}
    (walked : system.walk room (.parse root) = .ok paths) :
    (paths.map fun path => system.key path.display).Nodup ∧
    (¬ IsAbsolute root ∨ system.workingDirectory <+: (Path.parse root).normal.parts →
      ∀ path ∈ paths, ∃ names, names ≠ [] ∧ path = (Path.parse root).under names ∧
        system.key path.display =
          if system.key root = "." then "/".intercalate names
          else system.key root ++ "/" ++ "/".intercalate names) ∧
    ∀ (policy : Policy) (entry : String),
      (paths.filter fun path =>
        (policy.withExclusions [entry]).isExcluded (system.key path.display) &&
          !policy.isExcluded (system.key path.display)).length ≤ 1 := by
  have read := Path.isRead_parse root
  obtain ⟨lists, rfl, distinct, all⟩ := exists_lists_of_walk named walked
  have keys : ((lists.map (Path.parse root).under).map fun path =>
      system.key path.display).Nodup := by
    rw [List.map_map]
    refine distinct.map_on fun names member others memberOther same => ?_
    exact (Path.key_under_inj read (all names member).2 (all others memberOther).2).1 same
  refine ⟨keys, fun seen path member => ?_, fun policy entry => ?_⟩
  · obtain ⟨names, among, rfl⟩ := List.mem_map.1 member
    obtain ⟨some, own⟩ := all names among
    exact ⟨names, some, rfl, key_under_of_seen seen some own⟩
  · exact length_le_one_of_distinct keys fun path _ skipped => by
      simp only [Policy.isExcluded_withExclusions, Bool.and_eq_true, Bool.not_eq_true',
        List.mem_singleton] at skipped
      exact skipped.1.resolve_right (by simp [skipped.2])

open StackRoom in
/-- The three files of a directory have three keys. -/
theorem sampleSystem_keys :
    sampleSystem.root.IsNamed ∧
      sampleSystem.walk StackRoom.directories (.parse ".") =
        .ok [⟨0, ["A.sol"]⟩, ⟨0, ["B.sol"]⟩, ⟨0, ["C.sol"]⟩] ∧
      ([⟨0, ["A.sol"]⟩, ⟨0, ["B.sol"]⟩, ⟨0, ["C.sol"]⟩].map fun path : Path =>
        sampleSystem.key path.display).Nodup := by
  have named : sampleSystem.root.IsNamed := by
    intro place entries found
    have places : place ∈ [[]] := Entry.mem_directories found
    obtain rfl := List.mem_singleton.1 places
    cases found
    refine ⟨by decide, fun name member => ?_⟩
    have plain : name = "A.sol" ∨ name = "B.sol" ∨ name = "C.sol" := by simpa using member
    rcases plain with rfl | rfl | rfl <;> exact ⟨rfl, by decide, by decide⟩
  have walked : sampleSystem.walk StackRoom.directories (.parse ".") =
      .ok [⟨0, ["A.sol"]⟩, ⟨0, ["B.sol"]⟩, ⟨0, ["C.sol"]⟩] :=
    walk_ofFiles _ (by decide +kernel) (by decide)
  exact ⟨named, walked, (walked_files_have_own_keys sampleSystem named _ "." walked).1⟩

end FileSystem

end Interlock
