import Interlock.FileSystem.Walk
import Interlock.Proofs.Resolution
import Mathlib.Data.List.Nodup

/-!
# Chains of entries

The entries of directories lead from one directory to another, and since links are among them they
may lead back.  A tree has only so many directories, so a chain of entries that passes more of them
than there are visits one twice.  A chain that visits none twice may still pass more of them than
there is room for on the stack.
-/

namespace Interlock

/-! ## Trees -/

/-- The path that some names lead to from a directory. -/
def Path.under (path : Path) (names : List String) : Path :=
  { path with parts := path.parts ++ names }

@[simp] theorem Path.under_nil (path : Path) : path.under [] = path := by simp [under]

theorem Path.under_cons (path : Path) (name : String) (names : List String) :
    path.under (name :: names) = (path.child name).under names := by simp [under, child]

namespace Entry

mutual

/-- Whether the names in each directory are different and have no null character. -/
def isSound : Entry → Bool
  | directory entries =>
      decide (entries.map (·.1)).Nodup && (entries.map (·.1)).all (!·.toList.contains '\x00') &&
        areSound entries
  | _ => true

/-- Whether all entries of a directory are sound. -/
def areSound : List (String × Entry) → Bool
  | [] => true
  | (_, entry) :: rest => isSound entry && areSound rest

end

theorem isSound_of_mem {entries : List (String × Entry)} (sound : areSound entries = true)
    {name : String} {entry : Entry} (member : (name, entry) ∈ entries) : entry.isSound = true := by
  induction entries with
  | nil => cases member
  | cons first rest ih =>
      rw [areSound, Bool.and_eq_true] at sound
      rcases List.mem_cons.1 member with rfl | member
      · exact sound.1
      · exact ih sound.2 member

/-- An entry that is found under a name stands in the directory under that name. -/
theorem exists_entries_of_child? {entry inner : Entry} {name : String}
    (found : entry.child? name = some inner) :
    ∃ entries, entry = directory entries ∧ (name, inner) ∈ entries := by
  rw [child?, Option.map_eq_some_iff] at found
  obtain ⟨⟨other, _⟩, first, rfl⟩ := found
  have member := List.mem_of_find?_eq_some first
  have same : other = name := by simpa using List.find?_some first
  cases entry with
  | directory entries => exact ⟨entries, rfl, same ▸ member⟩
  | _ => cases member

theorem isSound_of_descend? {entry inner : Entry} {place : List String}
    (sound : entry.isSound = true) (found : entry.descend? place = some inner) :
    inner.isSound = true := by
  induction place generalizing entry with
  | nil => cases found; exact sound
  | cons name place ih =>
      rw [descend?, Option.bind_eq_some_iff] at found
      obtain ⟨child, named, found⟩ := found
      obtain ⟨entries, rfl, member⟩ := exists_entries_of_child? named
      rw [isSound, Bool.and_eq_true] at sound
      exact ih (isSound_of_mem sound.2 member) found

theorem names_of_sound {entries : List (String × Entry)}
    (sound : (directory entries).isSound = true) :
    (entries.map (·.1)).Nodup ∧
      ∀ name ∈ entries.map (·.1), name.toList.contains '\x00' = false := by
  rw [isSound, Bool.and_eq_true, Bool.and_eq_true] at sound
  refine ⟨of_decide_eq_true sound.1.1, fun name member => ?_⟩
  simpa using List.all_eq_true.1 sound.1.2 name member

mutual

/-- How many directories an entry holds, itself included. -/
def directoryCount : Entry → Nat
  | directory entries => 1 + directoryCounts entries
  | _ => 0

/-- How many directories the entries of a directory hold. -/
def directoryCounts : List (String × Entry) → Nat
  | [] => 0
  | (_, entry) :: rest => directoryCount entry + directoryCounts rest

end

mutual

/-- The places of the directories in a tree. -/
def directories : Entry → List (List String)
  | directory entries => [] :: directoriesIn entries
  | _ => []

/-- The places of the directories in a directory, itself left out. -/
def directoriesIn : List (String × Entry) → List (List String)
  | [] => []
  | (name, entry) :: rest => entry.directories.map (name :: ·) ++ directoriesIn rest

end

mutual

theorem length_directories : ∀ entry : Entry, entry.directories.length = entry.directoryCount
  | directory entries => by
      rw [directories, directoryCount, List.length_cons, length_directoriesIn, Nat.add_comm]
  | file _ | link _ => rfl

theorem length_directoriesIn :
    ∀ entries : List (String × Entry), (directoriesIn entries).length = directoryCounts entries
  | [] => rfl
  | (_, entry) :: rest => by
      rw [directoriesIn, directoryCounts, List.length_append, List.length_map,
        length_directories, length_directoriesIn]

end

theorem mem_directoriesIn {entries : List (String × Entry)} {name : String} {entry : Entry}
    {place : List String} (member : (name, entry) ∈ entries) (there : place ∈ entry.directories) :
    name :: place ∈ directoriesIn entries := by
  induction entries with
  | nil => cases member
  | cons first rest ih =>
      rw [directoriesIn, List.mem_append]
      rcases List.mem_cons.1 member with rfl | member
      · exact .inl (List.mem_map_of_mem there)
      · exact .inr (ih member)

theorem mem_directories {entry : Entry} {place : List String} {entries : List (String × Entry)}
    (found : entry.descend? place = some (directory entries)) : place ∈ entry.directories := by
  induction place generalizing entry with
  | nil => cases found; exact List.mem_cons_self
  | cons name place ih =>
      rw [descend?, Option.bind_eq_some_iff] at found
      obtain ⟨child, named, found⟩ := found
      obtain ⟨others, rfl, member⟩ := exists_entries_of_child? named
      exact List.mem_cons_of_mem _ (mem_directoriesIn member (ih found))

end Entry

namespace FileSystem

/-- The places of the directories above another one: no two are the same. -/
structure Trail (root : Entry) (above : List (List String)) : Prop where
  distinct : above.Nodup
  directories : ∀ place ∈ above, IsDirectoryAt root place

namespace Trail

variable {root : Entry} {above : List (List String)}

theorem nil (root : Entry) : Trail root [] := ⟨.nil, nofun⟩

theorem cons (trail : Trail root above) {here : List String} (there : IsDirectoryAt root here)
    (fresh : here ∉ above) : Trail root (here :: above) where
  distinct := List.nodup_cons.2 ⟨fresh, trail.distinct⟩
  directories := List.forall_mem_cons.2 ⟨there, trail.directories⟩

/-- A trail is no longer than there are directories. -/
theorem length_le (trail : Trail root above) : above.length ≤ root.directoryCount := by
  rw [← Entry.length_directories]
  apply trail.distinct.length_le_of_subset
  intro place member
  obtain ⟨entries, found⟩ := trail.directories place member
  exact Entry.mem_directories found

end Trail

/-! ## The names in a directory -/

section Names

variable {entries : List (String × Entry)}

theorem mem_names {name : String} :
    name ∈ names (.directory entries) ↔ name ∈ entries.map (·.1) := List.mem_mergeSort

theorem names_sorted (entries : List (String × Entry)) :
    (names (.directory entries)).Pairwise (· ≤ ·) := by
  have transitive (first second third : String) (le : decide (first ≤ second) = true)
      (leAgain : decide (second ≤ third) = true) : decide (first ≤ third) = true :=
    decide_eq_true (String.le_trans (of_decide_eq_true le) (of_decide_eq_true leAgain))
  have total (first second : String) :
      (decide (first ≤ second) || decide (second ≤ first)) = true := by
    simpa using String.le_total first second
  exact (List.pairwise_mergeSort transitive total _).imp of_decide_eq_true

/-- Different names are in strictly increasing order. -/
theorem names_increasing (distinct : (entries.map (·.1)).Nodup) :
    (names (.directory entries)).Pairwise (· < ·) := by
  have different : (names (.directory entries)).Nodup :=
    (List.mergeSort_perm _ _).nodup_iff.2 distinct
  exact ((names_sorted entries).and different).imp fun both =>
    Std.lt_of_le_of_ne both.1 both.2

end Names

/-! ## Chains of entries -/

/-- In one directory there is an entry of some name, and it leads to another place. -/
def Enters (root : Entry) (here : List String) (name : String) (next : List String) : Prop :=
  ∃ entries, root.descend? here = some (.directory entries) ∧ name ∈ entries.map (·.1) ∧
    Leads root here [name] next

/-- Entries with these names lead, one after the other, to a place; the directories passed are those
that the entries are in. -/
inductive Chain (root : Entry) :
    (here names : List String) → (passed : List (List String)) → (place : List String) → Prop where
  | stop (here : List String) : Chain root here [] [] here
  | step {here next names place : List String} {passed : List (List String)} {name : String} :
      Enters root here name next → Chain root next names passed place →
      Chain root here (name :: names) (here :: passed) place

/-- Some chain of entries visits a directory twice. -/
def Loops (root : Entry) (start : List String) : Prop :=
  ∃ names passed place, Chain root start names passed place ∧ ¬ (passed ++ [place]).Nodup

/-- A chain of entries leads to a file. -/
def LeadsToFile (root : Entry) (start names : List String) : Prop :=
  ∃ passed place content, Chain root start names passed place ∧
    root.descend? place = some (.file content)

/-- Some chain of entries comes back to a directory that it has passed, or to one above. -/
def Returns (root : Entry) (above : List (List String)) (here : List String) : Prop :=
  ∃ names passed place, Chain root here names passed place ∧ (place ∈ above ∨ place ∈ passed)

/-- Some chain of entries that passes no directory twice, and none of those above, leads to a
directory when as many directories are open as there is room for. -/
def Exceeds (root : Entry) (room : Nat) (above : List (List String)) (here : List String) : Prop :=
  ∃ names passed place, Chain root here names passed place ∧ passed.Nodup ∧
    (∀ visited ∈ passed, visited ∉ above) ∧ IsDirectoryAt root place ∧ room ≤ passed.length

section Chains

variable {root : Entry} {here next between place list more : List String}
  {above passed others : List (List String)} {name : String} {entries : List (String × Entry)}

theorem Enters.unique {other : List String} (enters : Enters root here name next)
    (again : Enters root here name other) : next = other := by
  obtain ⟨_, _, _, leads⟩ := enters
  obtain ⟨_, _, _, leadsAgain⟩ := again
  exact leads.unique leadsAgain

theorem Enters.exists_iff {property : List String → Prop} (enters : Enters root here name next) :
    (∃ other, Enters root here name other ∧ property other) ↔ property next :=
  ⟨fun ⟨_, again, holds⟩ => again.unique enters ▸ holds, fun holds => ⟨next, enters, holds⟩⟩

/-- Entries are entered from directories only. -/
theorem Enters.isDirectoryAt (enters : Enters root here name next) : IsDirectoryAt root here :=
  have ⟨entries, found, _⟩ := enters
  ⟨entries, found⟩

theorem Chain.append (first : Chain root here list passed between)
    (second : Chain root between more others place) :
    Chain root here (list ++ more) (passed ++ others) place := by
  induction first with
  | stop => exact second
  | step enters _ ih => exact .step enters (ih second)

theorem Chain.isDirectoryAt (chain : Chain root here list passed place) :
    ∀ visited ∈ passed, IsDirectoryAt root visited := by
  induction chain with
  | stop => exact nofun
  | step enters _ ih =>
      intro visited member
      rcases List.mem_cons.1 member with rfl | member
      · exact enters.isDirectoryAt
      · exact ih visited member

/-- A chain goes no further than to what is no directory. -/
theorem Chain.eq_stop (chain : Chain root here list passed place)
    (noDirectory : ¬ IsDirectoryAt root here) : list = [] ∧ passed = [] ∧ place = here := by
  cases chain with
  | stop => exact ⟨rfl, rfl, rfl⟩
  | step enters _ => exact absurd enters.isDirectoryAt noDirectory

/-- A chain may stop at any of the directories that it passes. -/
theorem Chain.exists_prefix (chain : Chain root here list passed place) {visited : List String}
    (member : visited ∈ passed ++ [place]) :
    ∃ names passed, Chain root here names passed visited := by
  induction chain with
  | stop here =>
      obtain rfl := List.mem_singleton.1 member
      exact ⟨[], [], .stop _⟩
  | step enters _ ih =>
      rcases List.mem_cons.1 member with rfl | member
      · exact ⟨[], [], .stop _⟩
      · obtain ⟨names, passed, chain⟩ := ih member
        exact ⟨_, _, .step enters chain⟩

/-- A chain that visits a directory twice comes back to it. -/
theorem Chain.returns (chain : Chain root here list passed place)
    (twice : ¬ (passed ++ [place]).Nodup) : Returns root [] here := by
  induction chain with
  | stop here => exact absurd (List.nodup_singleton here) twice
  | @step here next names place passed name enters chain ih =>
      rw [List.cons_append, List.nodup_cons, not_and_or, not_not] at twice
      rcases twice with back | later
      · obtain ⟨names, passed, chain⟩ := chain.exists_prefix back
        exact ⟨_, _, here, .step enters chain, .inr List.mem_cons_self⟩
      · obtain ⟨names, passed, place, chain, back⟩ := ih later
        refine ⟨_, _, place, .step enters chain, ?_⟩
        exact back.imp_right (List.mem_cons_of_mem _)

theorem loops_iff_returns : Loops root here ↔ Returns root [] here := by
  constructor
  · rintro ⟨names, passed, place, chain, twice⟩
    exact chain.returns twice
  · rintro ⟨names, passed, place, chain, back⟩
    refine ⟨names, passed, place, chain, fun distinct => ?_⟩
    have member : place ∈ passed := back.resolve_left List.not_mem_nil
    exact List.disjoint_of_nodup_append distinct member (List.mem_singleton.2 rfl)

/-- From a directory that is not above, chains come back when they do from one of its entries. -/
theorem returns_iff (found : root.descend? here = some (.directory entries))
    (fresh : here ∉ above) :
    Returns root above here ↔
      ∃ name ∈ names (.directory entries), ∃ next, Enters root here name next ∧
        Returns root (here :: above) next := by
  constructor
  · rintro ⟨names, passed, place, chain, back⟩
    cases chain with
    | stop => exact absurd (back.resolve_right List.not_mem_nil) fresh
    | @step _ next names _ passed name enters chain =>
        obtain ⟨others, again, member, _⟩ := id enters
        cases found.symm.trans again
        refine ⟨name, mem_names.2 member, next, enters, names, passed, place, chain, ?_⟩
        rcases back with back | back
        · exact .inl (List.mem_cons_of_mem _ back)
        · rcases List.mem_cons.1 back with rfl | back
          · exact .inl List.mem_cons_self
          · exact .inr back
  · rintro ⟨name, _, next, enters, names, passed, place, chain, back⟩
    refine ⟨_, _, place, .step enters chain, ?_⟩
    rcases back with back | back
    · rcases List.mem_cons.1 back with rfl | back
      · exact .inr List.mem_cons_self
      · exact .inl back
    · exact .inr (List.mem_cons_of_mem _ back)

/-- The files of a directory are those that its entries lead to. -/
theorem leadsToFile_iff (found : root.descend? here = some (.directory entries)) :
    LeadsToFile root here list ↔
      ∃ name ∈ names (.directory entries), ∃ rest, list = name :: rest ∧
        ∃ next, Enters root here name next ∧ LeadsToFile root next rest := by
  constructor
  · rintro ⟨passed, place, content, chain, file⟩
    cases chain with
    | stop => cases found.symm.trans file
    | @step _ next names _ passed name enters chain =>
        obtain ⟨others, again, member, _⟩ := id enters
        cases found.symm.trans again
        exact ⟨name, mem_names.2 member, _, rfl, next, enters, passed, place, content, chain, file⟩
  · rintro ⟨name, _, rest, rfl, next, enters, passed, place, content, chain, file⟩
    exact ⟨_, place, content, .step enters chain, file⟩

/-- What is no directory leads to a file only if it is one. -/
theorem leadsToFile_of_noDirectory {entry : Entry} (found : root.descend? here = some entry)
    (noDirectory : ¬ IsDirectoryAt root here) :
    LeadsToFile root here list ↔ list = [] ∧ entry.isFile = true := by
  constructor
  · rintro ⟨passed, place, content, chain, file⟩
    obtain ⟨rfl, rfl, rfl⟩ := chain.eq_stop noDirectory
    cases found.symm.trans file
    exact ⟨rfl, rfl⟩
  · rintro ⟨rfl, isFile⟩
    cases entry with
    | file content => exact ⟨[], here, content, .stop here, found⟩
    | _ => cases isFile

/-- Chains do not come back from what is no directory. -/
theorem not_returns (trail : Trail root above)
    (noDirectory : ¬ IsDirectoryAt root here) : ¬ Returns root above here := by
  rintro ⟨names, passed, place, chain, back⟩
  obtain ⟨rfl, rfl, rfl⟩ := chain.eq_stop noDirectory
  exact noDirectory (trail.directories place (back.resolve_right List.not_mem_nil))

/-- There is no room for a directory when there is room for none. -/
theorem exceeds_of_zero (directory : IsDirectoryAt root here) : Exceeds root 0 above here :=
  ⟨[], [], here, .stop here, .nil, nofun, directory, Nat.zero_le _⟩

/-- From a directory that is not above, chains are too long when they are from one of its
entries, with room for one less. -/
theorem exceeds_iff {room : Nat} (found : root.descend? here = some (.directory entries))
    (fresh : here ∉ above) :
    Exceeds root (room + 1) above here ↔
      ∃ name ∈ names (.directory entries), ∃ next, Enters root here name next ∧
        Exceeds root room (here :: above) next := by
  constructor
  · rintro ⟨names, passed, place, chain, distinct, apart, directory, long⟩
    cases chain with
    | stop => cases long
    | @step _ next names _ passed name enters chain =>
        obtain ⟨others, again, member, _⟩ := id enters
        cases found.symm.trans again
        obtain ⟨notBehind, distinct⟩ := List.nodup_cons.1 distinct
        refine ⟨name, mem_names.2 member, next, enters, names, passed, place, chain, distinct, ?_,
          directory, Nat.le_of_succ_le_succ long⟩
        intro visited inside
        rw [List.mem_cons, not_or]
        exact ⟨fun same => notBehind (same ▸ inside), apart visited (List.mem_cons_of_mem _ inside)⟩
  · rintro ⟨name, _, next, enters, names, passed, place, chain, distinct, apart, directory, long⟩
    have notBehind : here ∉ passed := fun back => apart here back List.mem_cons_self
    refine ⟨_, _, place, .step enters chain, List.nodup_cons.2 ⟨notBehind, distinct⟩, ?_, directory,
      Nat.succ_le_succ long⟩
    refine List.forall_mem_cons.2 ⟨fresh, fun visited inside => ?_⟩
    exact fun back => apart visited inside (List.mem_cons_of_mem _ back)

theorem not_exceeds {room : Nat} (noDirectory : ¬ IsDirectoryAt root here) :
    ¬ Exceeds root room above here := by
  rintro ⟨names, passed, place, chain, -, -, directory, -⟩
  obtain ⟨-, -, rfl⟩ := chain.eq_stop noDirectory
  exact noDirectory directory

/-- With room for more directories than there are, no chain is too long. -/
theorem room_le_of_exceeds {room : Nat} (exceeds : Exceeds root room [] here) :
    room ≤ root.directoryCount := by
  obtain ⟨names, passed, place, chain, distinct, -, -, long⟩ := exceeds
  exact Nat.le_trans long (Trail.length_le ⟨distinct, chain.isDirectoryAt⟩)

end Chains

end FileSystem

end Interlock
