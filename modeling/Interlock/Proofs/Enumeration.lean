import Interlock.Proofs.Chain
import Interlock.StackRoom

/-!
# Enumerating every file

A walk follows every chain of entries.  It fails when some chain visits a directory twice, or passes
more directories than there is room for, and otherwise it lists the chains that lead to a file, in
order.  On its way down it never enters a directory again, so it is not deeper than there are
directories, and with room for all of them only a loop makes it fail.
-/

namespace Interlock

namespace FileSystem

/-! ## One directory -/

/-- An enumeration in the walk from `root`.  It fails with a loop only where there is one and for
want of room only where a chain is too long.  Where there is neither, it lists in increasing order
the names that lead to files. -/
inductive Enumerates (root path : Path) (loops exceeds : Prop) (isFile : List String → Prop) :
    Except Failure (List Path) → Prop where
  | loop (looping : loops) (shown : String) :
      Enumerates root path loops exceeds isFile (.error (.root shown "symlink loop"))
  | deep (long : exceeds) :
      Enumerates root path loops exceeds isFile
        (.error (.root root.display "directory tree too deep"))
  | done (straight : ¬ loops) (within : ¬ exceeds) (lists : List (List String)) :
      lists.Pairwise (· < ·) → (∀ names, names ∈ lists ↔ isFile names) →
      Enumerates root path loops exceeds isFile (.ok (lists.map path.under))

namespace Enumerates

variable {root path : Path} {loops exceeds other long : Prop}
  {isFile isOther : List String → Prop} {result : Except Failure (List Path)}

theorem congr (enumerates : Enumerates root path loops exceeds isFile result)
    (sameLoops : other ↔ loops) (sameExceeds : long ↔ exceeds)
    (sameFiles : ∀ names, isOther names ↔ isFile names) :
    Enumerates root path other long isOther result := by
  cases enumerates with
  | loop looping shown => exact .loop (sameLoops.2 looping) shown
  | deep exceeding => exact .deep (sameExceeds.2 exceeding)
  | done straight within lists sorted files =>
      refine .done (mt sameLoops.1 straight) (mt sameExceeds.1 within) lists sorted fun names => ?_
      rw [files, sameFiles]

theorem empty (root path : Path) :
    Enumerates root path False False (fun _ => False) (.ok []) :=
  .done not_false not_false [] .nil fun _ => iff_of_false List.not_mem_nil not_false

theorem single (root path : Path) : Enumerates root path False False (· = []) (.ok [path]) := by
  have one : Enumerates root path False False (· = []) (.ok ([[]].map path.under)) :=
    .done not_false not_false [[]] (List.pairwise_singleton _ _) fun _ => List.mem_singleton
  rwa [List.map_singleton, Path.under_nil] at one

/-- Two enumerations, one after the other: the first one is of what is behind a name, and the second
one lists greater names only. -/
theorem append {name : String} {loop deep : Prop} {file : List String → Prop}
    {part : Except Failure (List Path)}
    (first : Enumerates root (path.child name) loop deep file part)
    (second : Enumerates root path loops exceeds isFile result)
    (later : ∀ names, isFile names → ∃ other rest, names = other :: rest ∧ name < other) :
    Enumerates root path (loop ∨ loops) (deep ∨ exceeds)
      (fun names => (∃ rest, names = name :: rest ∧ file rest) ∨ isFile names)
      (part >>= fun found => result.map (found ++ ·)) := by
  cases first with
  | loop looping shown => exact .loop (.inl looping) shown
  | deep exceeding => exact .deep (.inl exceeding)
  | done straight within lists increasing files =>
      cases second with
      | loop looping shown => exact .loop (.inr looping) shown
      | deep exceeding => exact .deep (.inr exceeding)
      | done straightLater withinLater more increasingLater others =>
          have shown : lists.map (path.child name).under ++ more.map path.under =
              (lists.map (name :: ·) ++ more).map path.under := by
            rw [List.map_append, List.map_map]
            exact congrArg (· ++ _)
              (List.map_congr_left fun rest _ => (path.under_cons name rest).symm)
          change Enumerates _ _ _ _ _
            (.ok (lists.map (path.child name).under ++ more.map path.under))
          rw [shown]
          refine .done (not_or.2 ⟨straight, straightLater⟩) (not_or.2 ⟨within, withinLater⟩) _ ?_ ?_
          · refine List.pairwise_append.2 ⟨?_, increasingLater, ?_⟩
            · refine increasing.map _ fun left right less => ?_
              exact List.cons_lt_cons_iff.2 (.inr ⟨rfl, less⟩)
            · intro left inLists right inMore
              obtain ⟨rest, _, rfl⟩ := List.mem_map.1 inLists
              obtain ⟨other, behind, rfl, less⟩ := later right ((others right).1 inMore)
              exact List.cons_lt_cons_iff.2 (.inl less)
          · intro names
            rw [List.mem_append, List.mem_map, others]
            refine or_congr_left ⟨?_, ?_⟩
            · rintro ⟨rest, member, rfl⟩
              exact ⟨rest, rfl, (files rest).1 member⟩
            · rintro ⟨rest, rfl, isFile⟩
              exact ⟨rest, (files rest).2 isFile, rfl⟩

/-- The enumerations of some entries in order enumerate what is behind all of them. -/
theorem gather {part : String → Except Failure (List Path)} {names : List String}
    {loop deep : String → Prop} {file : String → List String → Prop}
    (sorted : names.Pairwise (· < ·))
    (parts : ∀ name ∈ names,
      Enumerates root (path.child name) (loop name) (deep name) (file name) (part name)) :
    Enumerates root path (∃ name ∈ names, loop name) (∃ name ∈ names, deep name)
      (fun list => ∃ name ∈ names, ∃ rest, list = name :: rest ∧ file name rest)
      ((names.mapM part).map List.flatten) := by
  induction names with
  | nil => exact (empty root path).congr (by simp) (by simp) (by simp)
  | cons name names ih =>
      obtain ⟨before, sorted⟩ := List.pairwise_cons.1 sorted
      have behind := ih sorted fun other member => parts other (List.mem_cons_of_mem _ member)
      have both := append (parts name List.mem_cons_self) behind <| by
        rintro _ ⟨other, member, rest, rfl, _⟩
        exact ⟨other, rest, rfl, before other member⟩
      have result : ((name :: names).mapM part).map List.flatten =
          part name >>= fun found => ((names.mapM part).map List.flatten).map (found ++ ·) := by
        rw [List.mapM_cons]
        cases part name with
        | error failure => rfl
        | ok found => cases names.mapM part <;> rfl
      rw [result]
      exact both.congr (by simp) (by simp) (by simp)

end Enumerates

section Walk

variable {system : FileSystem} {root path : Path} {here : List String}
  {above : List (List String)} {entries : List (String × Entry)} {room : Nat}

theorem hasNull_child {name : String} (clean : hasNull path = false)
    (plain : name.toList.contains '\x00' = false) : hasNull (path.child name) = false := by
  rw [hasNull, Path.child, List.any_append, Bool.or_eq_false_iff]
  exact ⟨clean, by simpa using plain⟩

/-- The files that one entry of a directory leads to. -/
def partBelow (system : FileSystem) (root : Path) (room : Nat) (path : Path)
    (above : List (List String)) (name : String) : Except Failure (List Path) := do
  match ← system.inspect (path.child name) with
  | some (.directory _) => filesBelow system root room (path.child name) above
  | some (.file _) => pure [path.child name]
  | _ => pure []

theorem filesBelow_succ {entry : Entry} (found : system.resolve path = .ok (here, entry))
    (fresh : here ∉ above) :
    system.filesBelow root (room + 1) path above =
      ((names entry).mapM (system.partBelow root room path (here :: above))).map List.flatten := by
  rw [filesBelow, found]
  simp only [List.contains_iff_mem, fresh, if_false]
  rfl

/-- No limit keeps a walk from following a chain that visits no directory twice, nor one of those
above. -/
def FitsBelow (system : FileSystem) (path : Path) (here : List String)
    (above : List (List String)) : Prop :=
  ∀ names passed place entries, Chain system.root here names passed place →
    (passed ++ [place]).Nodup → (∀ visited ∈ passed ++ [place], visited ∉ above) →
    system.root.descend? place = some (.directory entries) →
    ∀ name ∈ entries.map (·.1), system.WithinLimits ((path.under names).child name)

theorem FitsBelow.child (fits : system.FitsBelow path here above) (fresh : here ∉ above)
    {name : String} {next : List String} (enters : Enters system.root here name next) :
    system.FitsBelow (path.child name) next (here :: above) := by
  intro names passed place entries chain distinct apart found other member
  have notHere : here ∉ passed ++ [place] := fun back => apart here back List.mem_cons_self
  rw [← Path.under_cons]
  refine fits (name :: names) (here :: passed) place entries (.step enters chain)
    (List.nodup_cons.2 ⟨notHere, distinct⟩) ?_ found other member
  intro visited back
  rcases List.mem_cons.1 back with rfl | back
  · exact fresh
  · exact fun inside => apart visited back (List.mem_cons_of_mem _ inside)

/-- An entry leads to the files behind it. -/
theorem partBelow_enumerates {name : String} (leads : system.LeadsTo path here)
    (found : system.root.descend? here = some (.directory entries))
    (member : name ∈ entries.map (·.1)) (clean : hasNull (path.child name) = false)
    (within : system.WithinLimits (path.child name))
    (trail : Trail system.root above)
    (below : ∀ next inner, Enters system.root here name next →
      system.resolve (path.child name) = .ok (next, .directory inner) →
      Enumerates root (path.child name) (Returns system.root above next)
        (Exceeds system.root room above next) (LeadsToFile system.root next)
        (system.filesBelow root room (path.child name) above)) :
    Enumerates root (path.child name)
      (∃ next, Enters system.root here name next ∧ Returns system.root above next)
      (∃ next, Enters system.root here name next ∧ Exceeds system.root room above next)
      (fun names => ∃ next, Enters system.root here name next ∧
        LeadsToFile system.root next names)
      (system.partBelow root room path above name) := by
  rw [partBelow]
  by_cases somewhere : ∃ next, system.LeadsTo (path.child name) next
  · obtain ⟨next, leadsOn⟩ := somewhere
    obtain ⟨entry, there⟩ := leadsOn.exists_place
    have enters : Enters system.root here name next :=
      ⟨entries, found, member, (leadsTo_child_iff leads).1 leadsOn⟩
    rw [within.inspect clean leadsOn there]
    simp only [enters.exists_iff]
    by_cases isDirectory : IsDirectoryAt system.root next
    · obtain ⟨inner, again⟩ := isDirectory
      cases there.symm.trans again
      exact below next inner enters (within.resolve leadsOn there)
    · have straight := not_returns trail isDirectory
      have within : ¬ Exceeds system.root room above next := not_exceeds isDirectory
      have files (names : List String) :
          LeadsToFile system.root next names ↔ names = [] ∧ entry.isFile = true :=
        leadsToFile_of_noDirectory there isDirectory
      cases entry with
      | directory inner => exact absurd ⟨inner, there⟩ isDirectory
      | file content =>
          refine (Enumerates.single _ _).congr (iff_false_intro straight)
            (iff_false_intro within) fun names => ?_
          exact (files names).trans (and_iff_left rfl)
      | link target =>
          refine (Enumerates.empty _ _).congr (iff_false_intro straight)
            (iff_false_intro within) fun names => ?_
          exact (files names).trans (iff_false_intro fun both => nomatch both.2)
  · -- A broken link, or one in a circle of links.
    have blocked (next : List String) : ¬ Enters system.root here name next :=
      fun ⟨_, _, _, onward⟩ => somewhere ⟨next, (leadsTo_child_iff leads).2 onward⟩
    rw [within.inspect_nowhere fun place leadsOn => somewhere ⟨place, leadsOn⟩]
    exact (Enumerates.empty _ _).congr (by simp [blocked]) (by simp [blocked])
      (by simp [blocked])

/-- A walk below a directory enumerates the files, unless there is a loop or too long a chain. -/
theorem filesBelow_enumerates (sound : system.root.isSound = true) (clean : hasNull path = false)
    (found : system.resolve path = .ok (here, .directory entries))
    (trail : Trail system.root above) (fits : system.FitsBelow path here above) :
    Enumerates root path (Returns system.root above here) (Exceeds system.root room above here)
      (LeadsToFile system.root here) (system.filesBelow root room path above) := by
  induction room generalizing path here entries above with
  | zero => exact .deep (exceeds_of_zero ⟨entries, (leadsTo_of_resolve found).2⟩)
  | succ room ih =>
      by_cases met : here ∈ above
      · rw [filesBelow, found]
        simp only [List.contains_iff_mem, met, if_true]
        exact .loop ⟨[], [], here, .stop here, .inl met⟩ _
      obtain ⟨leads, there⟩ := leadsTo_of_resolve found
      obtain ⟨different, plain⟩ :=
        Entry.names_of_sound (Entry.isSound_of_descend? sound there)
      rw [filesBelow_succ found met]
      refine (Enumerates.gather (names_increasing different) fun name member => ?_).congr
        (returns_iff there met) (exceeds_iff there met) fun _ => leadsToFile_iff there
      have named : name ∈ entries.map (·.1) := mem_names.1 member
      have cleanChild : hasNull (path.child name) = false := hasNull_child clean (plain name named)
      have within : system.WithinLimits (path.child name) := by
        have fitting := fits [] [] here entries (.stop here) (List.nodup_singleton here)
        rw [Path.under_nil] at fitting
        exact fitting (by simpa using met) there name named
      have longer : Trail system.root (here :: above) := trail.cons ⟨entries, there⟩ met
      refine partBelow_enumerates leads there named cleanChild within longer ?_
      exact fun next inner enters resolved =>
        ih cleanChild resolved longer (fits.child met enters)

end Walk

/-! ## Whole walks -/

theorem walk_of_directory {system : FileSystem} {room : Nat} {root : Path}
    {entries : List (String × Entry)}
    (seen : system.inspect root = .ok (some (.directory entries))) :
    system.walk room root = system.filesBelow root room root [] := by
  simp only [walk, seen, bind, Except.bind]

section Alike

variable {system other : FileSystem} (alike : system.root.Alike other.root)
  (same : other.workingDirectory = system.workingDirectory)

/-- Directories that match have the same names in order. -/
theorem names_of_matches {entries others : List (String × Entry)}
    (matching : (Entry.directory entries).Matches (.directory others)) :
    names (.directory others) = names (.directory entries) := by
  refine List.Perm.eq_of_pairwise (fun _ _ _ _ => String.le_antisymm) (names_sorted others)
    (names_sorted entries) ?_
  exact ((List.mergeSort_perm _ _).trans matching).trans (List.mergeSort_perm _ _).symm

include alike same

theorem partBelow_alike {room : Nat} {root path : Path} {above : List (List String)}
    {name : String}
    (below : ∀ next inner, system.resolve (path.child name) = .ok (next, .directory inner) →
      other.filesBelow root room (path.child name) above =
        system.filesBelow root room (path.child name) above) :
    other.partBelow root room path above name =
      system.partBelow root room path above name := by
  rcases inspect_alike alike same (path.child name) with
    ⟨entry, matched, seen, seenOther, matching⟩ | ⟨seen, seenOther⟩ | ⟨failure, seen, seenOther⟩
  · cases entry with
    | directory inner =>
        obtain ⟨others, rfl⟩ := matching.exists_directory
        obtain ⟨next, found⟩ := exists_resolve_of_inspect seen
        simp only [partBelow, seen, seenOther, bind, Except.bind]
        exact below next inner found
    | file =>
        cases matched with
        | directory | link => cases matching
        | file => simp only [partBelow, seen, seenOther, bind, Except.bind]
    | link =>
        cases matched with
        | directory | file => cases matching
        | link => simp only [partBelow, seen, seenOther, bind, Except.bind]
  · simp only [partBelow, seen, seenOther, bind, Except.bind]
  · simp only [partBelow, seen, seenOther, bind, Except.bind]

/-- A walk below a directory is the same in file systems that are alike. -/
theorem filesBelow_alike {room : Nat} {root path : Path} {here : List String}
    {entries : List (String × Entry)} {above : List (List String)}
    (found : system.resolve path = .ok (here, .directory entries)) :
    other.filesBelow root room path above = system.filesBelow root room path above := by
  induction room generalizing path here entries above with
  | zero => rfl
  | succ room ih =>
      obtain ⟨matched, again, matching⟩ := resolve_alike_of_ok alike same found
      obtain ⟨others, rfl⟩ := matching.exists_directory
      by_cases met : here ∈ above
      · rw [filesBelow, filesBelow, found, again]
        simp only [List.contains_iff_mem, met, if_true]
      rw [filesBelow_succ found met, filesBelow_succ again met, names_of_matches matching]
      have parts (name : String) : other.partBelow root room path (here :: above) name =
          system.partBelow root room path (here :: above) name :=
        partBelow_alike alike same fun next inner resolved => ih resolved
      rw [funext parts]

/-- A walk does not depend on the order in which directories list what is in them. -/
theorem walk_alike (room : Nat) (root : Path) : other.walk room root = system.walk room root := by
  rcases inspect_alike alike same root with
    ⟨entry, matched, seen, seenOther, matching⟩ | ⟨seen, seenOther⟩ | ⟨failure, seen, seenOther⟩
  · cases entry with
    | directory inner =>
        obtain ⟨others, rfl⟩ := matching.exists_directory
        obtain ⟨start, found⟩ := exists_resolve_of_inspect seen
        rw [walk_of_directory seen, walk_of_directory seenOther]
        exact filesBelow_alike alike same found
    | file | link =>
        cases matched with
        | directory => cases matching
        | file | link => simp only [walk, seen, seenOther, bind, Except.bind]
  · simp only [walk, seen, seenOther, bind, Except.bind]
  · simp only [walk, seen, seenOther, bind, Except.bind]

end Alike

/-- A walk of a directory enumerates what its entries lead to. -/
theorem walk_enumerates {system : FileSystem} (room : Nat) {root : Path} {start : List String}
    {entries : List (String × Entry)} (sound : system.root.isSound = true)
    (clean : hasNull root = false) (found : system.resolve root = .ok (start, .directory entries))
    (fits : system.FitsBelow root start []) :
    Enumerates root root (Loops system.root start) (Exceeds system.root room [] start)
      (LeadsToFile system.root start) (system.walk room root) := by
  have below : Enumerates root root (Returns system.root [] start) _
      (LeadsToFile system.root start) (system.filesBelow root room root []) :=
    filesBelow_enumerates sound clean found (.nil _) fits
  have seen : system.inspect root = .ok (some (.directory entries)) := by
    simp only [inspect, clean, found, Bool.false_eq_true, if_false]
  rw [walk_of_directory seen]
  exact below.congr loops_iff_returns .rfl fun _ => .rfl

/-- A walk of a directory fails with a loop exactly when some chain of entries from there visits a
directory twice, as long as no chain is too long for the room there is.  Otherwise it lists, each
once and in increasing order, the chains that lead to a file, also those that lead through one
directory in different ways.  With too long a chain it fails, with a loop that there is or for want
of room; but with room for more directories than there are, none is too long.  The order in which
directories list their entries makes no difference. -/
theorem walk_lists_every_file (system : FileSystem) (room : Nat) (root : Path)
    {start : List String} {entries : List (String × Entry)} (sound : system.root.isSound = true)
    (clean : hasNull root = false) (found : system.resolve root = .ok (start, .directory entries))
    (fits : system.FitsBelow root start []) :
    (¬ Exceeds system.root room [] start →
      ((∃ shown, system.walk room root = .error (.root shown "symlink loop")) ↔
        Loops system.root start) ∧
      (¬ Loops system.root start →
        ∃ lists : List (List String), system.walk room root = .ok (lists.map root.under) ∧
          lists.Pairwise (· < ·) ∧
          (∀ names, names ∈ lists ↔ LeadsToFile system.root start names) ∧
          ∀ first firstPassed second secondPassed place rest,
            Chain system.root start first firstPassed place →
            Chain system.root start second secondPassed place →
            LeadsToFile system.root place rest → first ++ rest ∈ lists ∧ second ++ rest ∈ lists)) ∧
    (Exceeds system.root room [] start →
      (∃ shown, system.walk room root = .error (.root shown "symlink loop") ∧
        Loops system.root start) ∨
      system.walk room root = .error (.root root.display "directory tree too deep")) ∧
    (system.root.directoryCount < room → ¬ Exceeds system.root room [] start) ∧
    ∀ other : FileSystem, system.root.Alike other.root →
      other.workingDirectory = system.workingDirectory →
      other.walk room root = system.walk room root := by
  have whole := walk_enumerates room sound clean found fits
  refine ⟨fun within => ?_, fun exceeds => ?_, fun enough exceeds => ?_,
    fun other alike same => walk_alike alike same room root⟩
  · generalize system.walk room root = result at whole
    cases whole with
    | loop looping shown =>
        exact ⟨iff_of_true ⟨shown, rfl⟩ looping, fun straight => absurd looping straight⟩
    | deep exceeding => exact absurd exceeding within
    | done straight _ lists sorted files =>
        refine ⟨iff_of_false nofun straight, fun _ => ⟨lists, rfl, sorted, files, ?_⟩⟩
        rintro first firstPassed second secondPassed place rest one another
          ⟨passed, last, content, chain, file⟩
        exact ⟨(files _).2 ⟨_, last, content, one.append chain, file⟩,
          (files _).2 ⟨_, last, content, another.append chain, file⟩⟩
  · generalize system.walk room root = result at whole
    cases whole with
    | loop looping shown => exact .inl ⟨shown, rfl, looping⟩
    | deep => exact .inr rfl
    | done _ within => exact absurd exceeds within
  · exact absurd (room_le_of_exceeds exceeds) (Nat.not_le.2 enough)

/-! ## A sample -/

/-- A directory with one file, and a link to the directory. -/
def sharedSystem : FileSystem where
  root := .directory [("lib", .directory [("A.sol", .file .empty)]), ("copy", .link "lib")]
  workingDirectory := []

/-- The chains of entries from the root directory, with what they pass and where they lead. -/
def sharedChains : List (List String × List (List String) × List String) :=
  [([], [], []), (["lib"], [[]], ["lib"]), (["copy"], [[]], ["lib"]),
   (["lib", "A.sol"], [[], ["lib"]], ["lib", "A.sol"]),
   (["copy", "A.sol"], [[], ["lib"]], ["lib", "A.sol"])]

theorem enters_shared {here next : List String} {name : String}
    (enters : Enters sharedSystem.root here name next) :
    (here = [] ∧ (name = "lib" ∨ name = "copy") ∧ next = ["lib"]) ∨
      here = ["lib"] ∧ name = "A.sol" ∧ next = ["lib", "A.sol"] := by
  obtain ⟨entries, found, member, leads⟩ := enters
  have places : here ∈ [[], ["lib"]] := Entry.mem_directories found
  have lib : Leads sharedSystem.root [] ["lib"] ["lib"] := .step rfl (.stop rfl)
  have copy : Leads sharedSystem.root [] ["copy"] ["lib"] := .step rfl lib
  have file : Leads sharedSystem.root ["lib"] ["A.sol"] ["lib", "A.sol"] := .step rfl (.stop rfl)
  rcases List.mem_cons.1 places with rfl | place
  · cases found
    have named : name = "lib" ∨ name = "copy" := by simpa using member
    refine .inl ⟨rfl, named, ?_⟩
    rcases named with rfl | rfl
    · exact leads.unique lib
    · exact leads.unique copy
  · obtain rfl := List.mem_singleton.1 place
    cases found
    obtain rfl : name = "A.sol" := by simpa using member
    exact .inr ⟨rfl, rfl, leads.unique file⟩

theorem mem_sharedChains {names place : List String} {passed : List (List String)}
    (chain : Chain sharedSystem.root [] names passed place) :
    (names, passed, place) ∈ sharedChains := by
  cases chain with
  | stop => decide
  | step enters chain =>
      obtain ⟨_, named, rfl⟩ | ⟨absurdly, _⟩ := enters_shared enters
      · cases chain with
        | stop => rcases named with rfl | rfl <;> decide
        | step enters chain =>
            obtain ⟨absurdly, _⟩ | ⟨_, rfl, rfl⟩ := enters_shared enters
            · cases absurdly
            · cases chain with
              | stop => rcases named with rfl | rfl <;> decide
              | step enters _ =>
                  obtain ⟨absurdly, _⟩ | ⟨absurdly, _⟩ := enters_shared enters <;> cases absurdly
      · cases absurdly

/-- Both entries of the root directory lead to the other directory. -/
theorem follow_shared {name : String} (named : name = "lib" ∨ name = "copy")
    (rest : List String) :
    ∃ left, follow sharedSystem.root linkLimit [] (name :: rest) =
      follow sharedSystem.root left ["lib"] rest := by
  have direct (links : Nat) : follow sharedSystem.root links [] ("lib" :: rest) =
      follow sharedSystem.root links ["lib"] rest := by
    rw [follow]
    rfl
  rcases named with rfl | rfl
  · exact ⟨_, direct linkLimit⟩
  · refine ⟨39, ?_⟩
    rw [follow]
    exact direct 39

theorem withinLimits_shared {parts place : List String} {entry : Entry}
    (short : ¬ pathLimit < (Path.display ⟨0, parts⟩).utf8ByteSize)
    (found : follow sharedSystem.root linkLimit [] parts = .ok (place, entry)) :
    sharedSystem.WithinLimits ⟨0, parts⟩ := by
  apply withinLimits_of_resolve
  rw [resolve, if_neg short]
  exact found

theorem sharedSystem_fits : sharedSystem.FitsBelow ⟨0, []⟩ [] [] := by
  intro names passed place entries chain _ _ found name member
  have directory (links : Nat) : ∃ entry,
      follow sharedSystem.root links ["lib"] [] = .ok (["lib"], entry) := by
    rw [follow]
    exact ⟨_, rfl⟩
  have file (links : Nat) : ∃ entry,
      follow sharedSystem.root links ["lib"] ["A.sol"] = .ok (["lib", "A.sol"], entry) := by
    rw [follow]
    change ∃ entry, follow sharedSystem.root links ["lib", "A.sol"] [] = .ok (_, entry)
    rw [follow]
    exact ⟨_, rfl⟩
  have inRoot {name : String} (named : name = "lib" ∨ name = "copy") :
      sharedSystem.WithinLimits ⟨0, [name]⟩ := by
    obtain ⟨left, same⟩ := follow_shared named []
    obtain ⟨entry, found⟩ := directory left
    refine withinLimits_shared ?_ (same.trans found)
    rcases named with rfl | rfl <;> decide +kernel
  have inDirectory {name : String} (named : name = "lib" ∨ name = "copy") :
      sharedSystem.WithinLimits ⟨0, [name, "A.sol"]⟩ := by
    obtain ⟨left, same⟩ := follow_shared named ["A.sol"]
    obtain ⟨entry, found⟩ := file left
    refine withinLimits_shared ?_ (same.trans found)
    rcases named with rfl | rfl <;> decide +kernel
  have listed := mem_sharedChains chain
  simp only [sharedChains, List.mem_cons, Prod.mk.injEq, List.not_mem_nil, or_false] at listed
  obtain ⟨rfl, _, rfl⟩ | ⟨rfl, _, rfl⟩ | ⟨rfl, _, rfl⟩ | ⟨_, _, rfl⟩ | ⟨_, _, rfl⟩ := listed
  · cases found
    exact inRoot (by simpa using member)
  · cases found
    obtain rfl : name = "A.sol" := by simpa using member
    exact inDirectory (.inl rfl)
  · cases found
    obtain rfl : name = "A.sol" := by simpa using member
    exact inDirectory (.inr rfl)
  · cases found
  · cases found

open StackRoom in
/-- Both ways to the file are listed. -/
theorem sharedSystem_listed :
    ∃ lists : List (List String),
      sharedSystem.walk StackRoom.directories ⟨0, []⟩ = .ok (lists.map (Path.under ⟨0, []⟩)) ∧
        ["lib", "A.sol"] ∈ lists ∧ ["copy", "A.sol"] ∈ lists := by
  have here : sharedSystem.resolve ⟨0, []⟩ = .ok ([], sharedSystem.root) := by
    rw [resolve, if_neg (by decide)]
    simp only [if_true]
    rw [follow]
    rfl
  have straight : ¬ Loops sharedSystem.root [] := by
    rintro ⟨names, passed, place, chain, twice⟩
    have distinct : ∀ chain ∈ sharedChains, (chain.2.1 ++ [chain.2.2]).Nodup := by decide
    exact twice (distinct _ (mem_sharedChains chain))
  have enters {name : String} (named : name ∈ ["lib", "copy"])
      (leads : Leads sharedSystem.root [] [name] ["lib"]) :
      Chain sharedSystem.root [] [name] [[]] ["lib"] :=
    .step ⟨_, rfl, named, leads⟩ (.stop _)
  have lib : Leads sharedSystem.root [] ["lib"] ["lib"] := .step rfl (.stop rfl)
  have file : LeadsToFile sharedSystem.root ["lib"] ["A.sol"] :=
    ⟨_, _, .empty, .step ⟨_, rfl, List.mem_singleton.2 rfl, .step rfl (.stop rfl)⟩ (.stop _), rfl⟩
  obtain ⟨listed, -, roomy, -⟩ :=
    walk_lists_every_file sharedSystem StackRoom.directories ⟨0, []⟩ rfl rfl here sharedSystem_fits
  obtain ⟨lists, done, -, -, shared⟩ := (listed (roomy (by decide))).2 straight
  exact ⟨lists, done, shared _ _ _ _ _ _ (enters (by decide) lib)
    (enters (by decide) (.step rfl lib)) file⟩

/-! ## A walk without room -/

/-- Directories inside one another, with a file in the innermost one. -/
def nested : Nat → Entry
  | 0 => .directory [("A.sol", .file .empty)]
  | depth + 1 => .directory [("d", nested depth)]

/-- The only name in the outermost of these directories. -/
def nestedName : Nat → String
  | 0 => "A.sol"
  | _ + 1 => "d"

/-- The names that lead some directories further in. -/
def inwards (count : Nat) : List String := List.replicate count "d"

section Nested

variable {depth : Nat} {here names place : List String} {passed : List (List String)}

theorem nested_eq (depth : Nat) :
    ∃ inner, nested depth = .directory [(nestedName depth, inner)] ∧
      ∀ target, inner ≠ .link target := by
  cases depth with
  | zero => exact ⟨_, rfl, nofun⟩
  | succ depth => exact ⟨nested depth, rfl, by cases depth <;> exact nofun⟩

theorem nestedName_plain (depth : Nat) :
    nestedName depth ≠ "." ∧ nestedName depth ≠ ".." ∧
      (nestedName depth).toList.contains '\x00' = false ∧ (nestedName depth).utf8ByteSize ≤ 5 := by
  cases depth <;> simp only [nestedName] <;> decide

theorem isSound_nested (depth : Nat) : (nested depth).isSound = true := by
  induction depth with
  | zero => decide
  | succ depth ih => simp [nested, Entry.isSound, Entry.areSound, ih]

theorem descend?_nested (count more : Nat) :
    (nested (count + more)).descend? (inwards count) = some (nested more) := by
  induction count with
  | zero =>
      rw [Nat.zero_add]
      rfl
  | succ count ih =>
      rw [Nat.add_right_comm]
      exact ih

theorem exists_inwards (member : place ∈ (nested depth).directories) :
    ∃ count more, depth = count + more ∧ place = inwards count := by
  induction depth generalizing place with
  | zero => exact ⟨0, 0, rfl, List.mem_singleton.1 member⟩
  | succ depth ih =>
      rw [nested, Entry.directories, Entry.directoriesIn, Entry.directoriesIn, List.append_nil]
        at member
      rcases List.mem_cons.1 member with rfl | inside
      · exact ⟨0, depth + 1, (Nat.zero_add _).symm, rfl⟩
      · obtain ⟨inner, further, rfl⟩ := List.mem_map.1 inside
        obtain ⟨count, more, rfl, rfl⟩ := ih further
        exact ⟨count + 1, more, Nat.add_right_comm .., rfl⟩

/-- What is in one of these directories stands there itself. -/
theorem onward_nested (count more : Nat) :
    onward? (nested (count + more)) (inwards count) (nestedName more) =
        some (inwards count ++ [nestedName more], []) ∧
      ∃ entry, (nested (count + more)).descend? (inwards count ++ [nestedName more]) =
        some entry := by
  obtain ⟨inner, shape, noLink⟩ := nested_eq more
  obtain ⟨notDot, notDots, -⟩ := nestedName_plain more
  have there := descend?_nested count more
  have child : (nested more).child? (nestedName more) = some inner := by
    simp [shape, Entry.child?, Entry.entries]
  refine ⟨?_, inner, (Entry.descend?_concat _ there).trans child⟩
  rw [onward?, there]
  simp only [notDot, notDots, child, if_false]
  rw [shape]
  cases inner with
  | link target => exact absurd rfl (noLink target)
  | _ => rfl

theorem enters_nested {name : String} {next : List String} :
    Enters (nested depth) here name next ↔ ∃ count more, depth = count + more ∧
      here = inwards count ∧ name = nestedName more ∧ next = here ++ [name] := by
  have leads (count more : Nat) : Leads (nested (count + more)) (inwards count)
      [nestedName more] (inwards count ++ [nestedName more]) := by
    obtain ⟨onward, entry, found⟩ := onward_nested count more
    exact .step onward (.stop found)
  constructor
  · rintro ⟨entries, found, member, onward⟩
    obtain ⟨count, more, rfl, rfl⟩ := exists_inwards (Entry.mem_directories found)
    obtain ⟨inner, shape, -⟩ := nested_eq more
    rw [descend?_nested, shape] at found
    cases found
    obtain rfl : name = nestedName more := by simpa using member
    exact ⟨count, more, rfl, rfl, rfl, onward.unique (leads count more)⟩
  · rintro ⟨count, more, rfl, rfl, rfl, rfl⟩
    obtain ⟨inner, shape, -⟩ := nested_eq more
    exact ⟨_, (descend?_nested count more).trans (congrArg some shape), List.mem_cons_self,
      leads count more⟩

/-- Every entry leads further in. -/
theorem chain_nested (chain : Chain (nested depth) here names passed place) :
    place = here ++ names ∧
      (passed ++ [place]).Pairwise (fun outer inner => outer.length < inner.length) ∧
      ∀ visited ∈ passed ++ [place], here.length ≤ visited.length := by
  induction chain with
  | stop here => simp
  | @step here next names place passed name enters chain ih =>
      obtain ⟨_, _, -, -, -, rfl⟩ := enters_nested.1 enters
      obtain ⟨rfl, longer, atLeast⟩ := ih
      have further : ∀ visited ∈ passed ++ [here ++ [name] ++ names],
          here.length < visited.length := by
        intro visited member
        have above := atLeast visited member
        rwa [List.length_append, List.length_singleton] at above
      refine ⟨by simp, List.pairwise_cons.2 ⟨further, longer⟩, ?_⟩
      exact List.forall_mem_cons.2 ⟨Nat.le_refl _, fun visited member =>
        Nat.le_of_lt (further visited member)⟩

theorem nodup_of_chain_nested (chain : Chain (nested depth) here names passed place) :
    (passed ++ [place]).Nodup := by
  refine (chain_nested chain).2.1.imp fun less same => ?_
  rw [same] at less
  exact Nat.lt_irrefl _ less

theorem not_loops_nested (depth : Nat) : ¬ Loops (nested depth) [] :=
  fun ⟨_, _, _, chain, twice⟩ => twice (nodup_of_chain_nested chain)

theorem chain_inwards (count more : Nat) :
    ∃ passed, passed.length = count ∧
      Chain (nested (count + more)) [] (inwards count) passed (inwards count) := by
  induction count generalizing more with
  | zero => exact ⟨[], rfl, .stop _⟩
  | succ count ih =>
      obtain ⟨passed, length, chain⟩ := ih (more + 1)
      have further : inwards (count + 1) = inwards count ++ ["d"] := List.replicate_succ'
      have last : Enters (nested (count + (more + 1))) (inwards count) "d" (inwards (count + 1)) :=
        enters_nested.2 ⟨count, more + 1, rfl, rfl, rfl, further⟩
      refine ⟨passed ++ [inwards count], by simp [length], ?_⟩
      rw [Nat.add_right_comm]
      have longer := chain.append (.step last (.stop _))
      rwa [← further] at longer

theorem exceeds_nested {room : Nat} (deep : room ≤ depth) : Exceeds (nested depth) room [] [] := by
  obtain ⟨more, rfl⟩ := Nat.exists_eq_add_of_le deep
  obtain ⟨passed, length, chain⟩ := chain_inwards room more
  obtain ⟨inner, shape, -⟩ := nested_eq more
  refine ⟨_, passed, _, chain, (List.nodup_append.1 (nodup_of_chain_nested chain)).1,
    fun _ _ => List.not_mem_nil, ⟨_, (descend?_nested room more).trans (congrArg some shape)⟩,
    Nat.le_of_eq length.symm⟩

theorem leadsToFile_nested (depth : Nat) :
    LeadsToFile (nested depth) [] (inwards depth ++ ["A.sol"]) := by
  obtain ⟨passed, -, chain⟩ := chain_inwards depth 0
  have last : Enters (nested depth) (inwards depth) "A.sol" (inwards depth ++ ["A.sol"]) :=
    enters_nested.2 ⟨depth, 0, rfl, rfl, rfl, rfl⟩
  refine ⟨_, _, .empty, chain.append (.step last (.stop _)), ?_⟩
  exact Entry.descend?_concat "A.sol" (descend?_nested depth 0)

/-- These directories, in the working directory. -/
def nestedSystem (depth : Nat) : FileSystem := ⟨nested depth, []⟩

theorem utf8ByteSize_inwards (count : Nat) (name : String) :
    ("/".intercalate (inwards count ++ [name])).utf8ByteSize =
      2 * count + name.utf8ByteSize := by
  induction count with
  | zero => simp [inwards]
  | succ count ih =>
      have shape : inwards (count + 1) ++ [name] = "d" :: (inwards count ++ [name]) := rfl
      have more : ∃ first rest, inwards count ++ [name] = first :: rest := by
        cases count <;> exact ⟨_, _, rfl⟩
      obtain ⟨first, rest, same⟩ := more
      rw [shape, same, String.intercalate_cons_cons, ← same, String.utf8ByteSize_append,
        String.utf8ByteSize_append, ih]
      change 1 + 1 + _ = _
      omega

/-- No link is followed on the way in. -/
theorem follow_nested (count more links : Nat) (rest : List String) :
    follow (nested (count + more)) links (inwards count) (nestedName more :: rest) =
      follow (nested (count + more)) links (inwards count ++ [nestedName more]) rest := by
  obtain ⟨inner, shape, noLink⟩ := nested_eq more
  obtain ⟨notDot, notDots, -, small⟩ := nestedName_plain more
  have child : (nested more).child? (nestedName more) = some inner := by
    simp [shape, Entry.child?, Entry.entries]
  have isDirectory : (nested more).isDirectory = true := by rw [shape]; rfl
  have fits : ¬ nameLimit < (nestedName more).utf8ByteSize := by
    rw [nameLimit]
    omega
  rw [follow, descend?_nested]
  simp only [isDirectory, notDot, notDots, fits, child, if_false, Bool.not_true,
    Bool.false_eq_true]

theorem follow_inwards (start count more links : Nat) :
    ∃ entry, follow (nested (start + count + more)) links (inwards start)
        (inwards count ++ [nestedName more]) =
      .ok (inwards (start + count) ++ [nestedName more], entry) := by
  induction count generalizing start with
  | zero =>
      obtain ⟨-, entry, found⟩ := onward_nested start more
      refine ⟨entry, (follow_nested start more links []).trans ?_⟩
      rw [follow, Nat.add_zero, found]
  | succ count ih =>
      have shape : start + (count + 1) = start + 1 + count := by omega
      have depth : start + 1 + count + more = start + (count + more + 1) := by omega
      have further : inwards (start + 1) = inwards start ++ ["d"] := List.replicate_succ'
      obtain ⟨entry, found⟩ := ih (start + 1)
      refine ⟨entry, ?_⟩
      rw [shape, ← found, depth]
      exact (follow_nested start (count + more + 1) links _).trans
        (congrArg (follow _ links · _) further.symm)

/-- Their paths are within the limits as long as there are not too many of them. -/
theorem nestedSystem_fits (short : depth ≤ 2000) :
    (nestedSystem depth).FitsBelow ⟨0, []⟩ [] [] := by
  intro names passed place entries chain _ _ found name member
  obtain ⟨rfl, -⟩ := chain_nested chain
  obtain ⟨count, more, rfl, rfl⟩ := exists_inwards (Entry.mem_directories found)
  obtain ⟨inner, shape, -⟩ := nested_eq more
  have same := found.symm.trans (descend?_nested count more)
  rw [shape] at same
  cases same
  obtain rfl : name = nestedName more := by simpa using member
  obtain ⟨entry, followed⟩ := follow_inwards 0 count more linkLimit
  rw [Nat.zero_add] at followed
  have size := utf8ByteSize_inwards count (nestedName more)
  obtain ⟨-, -, -, small⟩ := nestedName_plain more
  have shown : Path.display ⟨0, inwards count ++ [nestedName more]⟩ =
      "/".intercalate (inwards count ++ [nestedName more]) := by
    simp [Path.display]
  apply withinLimits_of_resolve
  change (if pathLimit < (Path.display ⟨0, inwards count ++ [nestedName more]⟩).utf8ByteSize then _
    else _) = _
  rw [shown, size, pathLimit, if_neg (by omega)]
  exact followed

open StackRoom in
/-- A tree without loops of which nothing is listed: no path in it is too long, but it is deeper
than there is room for. -/
theorem nestedSystem_not_listed :
    (nestedSystem 1000).resolve ⟨0, []⟩ = .ok ([], (nestedSystem 1000).root) ∧
      (nestedSystem 1000).root.isSound = true ∧ (nestedSystem 1000).FitsBelow ⟨0, []⟩ [] [] ∧
      ¬ Loops (nestedSystem 1000).root [] ∧
      LeadsToFile (nestedSystem 1000).root [] (inwards 1000 ++ ["A.sol"]) ∧
      (nestedSystem 1000).walk StackRoom.directories ⟨0, []⟩ =
        .error (.root "." "directory tree too deep") := by
  have fits := nestedSystem_fits (show 1000 ≤ 2000 by decide)
  have found : (nestedSystem 1000).resolve ⟨0, []⟩ = .ok ([], (nestedSystem 1000).root) := by
    rw [resolve, if_neg (by decide)]
    simp only [if_true]
    rw [follow]
    rfl
  refine ⟨found, isSound_nested 1000, fits, not_loops_nested 1000, leadsToFile_nested 1000, ?_⟩
  obtain ⟨inner, shape, -⟩ := nested_eq 1000
  have directory : (nestedSystem 1000).root = .directory [(nestedName 1000, inner)] := shape
  rw [directory] at found
  have whole := @walk_enumerates (nestedSystem 1000) StackRoom.directories _ _ _
    (isSound_nested 1000) rfl found fits
  generalize (nestedSystem 1000).walk StackRoom.directories ⟨0, []⟩ = result at whole
  cases whole with
  | loop looping => exact absurd looping (not_loops_nested 1000)
  | deep => rfl
  | done _ within => exact absurd (exceeds_nested (by decide)) within

end Nested

end FileSystem

end Interlock
