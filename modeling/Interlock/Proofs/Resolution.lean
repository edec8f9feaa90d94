import Interlock.FileSystem

/-!
# Where paths lead

A path is followed component by component, and each component leads from a directory to one place
at most: a link is only another way there.  So where a path leads depends on the components and on
the directory it starts from, and the components of a path may be followed one part after the other.
The system gives up on long paths and on many links; but within its limits it finds the place that a
path leads to, or finds that there is none.
-/

namespace Interlock

namespace Entry

theorem descend?_append (place more : List String) (entry : Entry) :
    entry.descend? (place ++ more) = (entry.descend? place).bind (descend? more) := by
  induction place generalizing entry with
  | nil => rfl
  | cons name place ih =>
      rw [List.cons_append, descend?, descend?, Option.bind_assoc]
      exact congrArg _ (funext ih)

/-- What is in a directory is found below its place. -/
theorem descend?_concat {place : List String} {entry directory : Entry} (name : String)
    (found : entry.descend? place = some directory) :
    entry.descend? (place ++ [name]) = directory.child? name := by
  rw [descend?_append, found, Option.bind_some, descend?]
  exact Option.bind_fun_some _

end Entry

namespace FileSystem

/-- Where one component leads from a place, and the components to follow from there. -/
def onward? (root : Entry) (here : List String) (part : String) :
    Option (List String × List String) :=
  match root.descend? here with
  | none => none
  | some entry =>
      if !entry.isDirectory then none
      else if part = "." then some (here, [])
      else if part = ".." then some (here.dropLast, [])
      else
        match entry.child? part with
        | none => none
        | some (.link target) =>
            some (if target.toList.head? = some '/' then [] else here, targetParts target)
        | some _ => some (here ++ [part], [])

/-- Components lead from one place to another, whatever their number and that of the links. -/
inductive Leads (root : Entry) : (here pending place : List String) → Prop where
  | stop {here : List String} {entry : Entry} :
      root.descend? here = some entry → Leads root here [] here
  | step {here next expansion rest place : List String} {part : String} :
      onward? root here part = some (next, expansion) →
      Leads root next (expansion ++ rest) place → Leads root here (part :: rest) place

/-- Whether there is a directory at a place. -/
def IsDirectoryAt (root : Entry) (place : List String) : Prop :=
  ∃ entries, root.descend? place = some (.directory entries)

theorem isDirectoryAt_of_onward {root : Entry} {here : List String} {part : String}
    {answer : List String × List String} (leads : onward? root here part = some answer) :
    IsDirectoryAt root here := by
  rw [onward?] at leads
  split at leads
  next => cases leads
  next entry found =>
    cases entry with
    | directory entries => exact ⟨entries, found⟩
    | _ => cases leads

namespace Leads

variable {root : Entry} {here pending more place other : List String}

theorem exists_place (leads : Leads root here pending place) :
    ∃ entry, root.descend? place = some entry := by
  induction leads with
  | stop found => exact ⟨_, found⟩
  | step _ _ ih => exact ih

/-- Components lead to one place only. -/
theorem unique (leads : Leads root here pending place) (again : Leads root here pending other) :
    place = other := by
  induction leads with
  | stop => cases again; rfl
  | step onward _ ih =>
      cases again with
      | step same rest =>
          cases onward.symm.trans same
          exact ih rest

/-- Components behind one another lead where the later ones lead from where the first ones do. -/
theorem append_iff :
    Leads root here (pending ++ more) place ↔
      ∃ between, Leads root here pending between ∧ Leads root between more place := by
  constructor
  · intro leads
    generalize all : pending ++ more = parts at leads
    induction leads generalizing pending with
    | @stop here entry found =>
        obtain ⟨rfl, rfl⟩ := List.append_eq_nil_iff.1 all
        exact ⟨here, .stop found, .stop found⟩
    | @step here next expansion rest place part onward leads ih =>
        cases pending with
        | nil =>
            obtain ⟨entries, found⟩ := isDirectoryAt_of_onward onward
            refine ⟨here, .stop found, ?_⟩
            rw [List.nil_append] at all
            exact all ▸ .step onward leads
        | cons first pending =>
            obtain ⟨rfl, rfl⟩ := List.cons.inj all
            obtain ⟨between, leadsThere, leadsOn⟩ := ih (List.append_assoc ..)
            exact ⟨between, .step onward leadsThere, leadsOn⟩
  · rintro ⟨between, first, second⟩
    induction first with
    | stop => exact second
    | step onward _ ih =>
        have onwards := ih second
        rw [List.append_assoc] at onwards
        exact .step onward onwards

end Leads

/-! ## Within the limits -/

section Follow

variable {root entry : Entry} {links : Nat} {here pending place : List String}

/-- What is found is where the components lead. -/
theorem leads_of_follow (found : follow root links here pending = .ok (place, entry)) :
    Leads root here pending place ∧ root.descend? place = some entry := by
  fun_induction follow root links here pending with
  | case1 | case3 | case6 | case7 | case8 => cases found
  | case2 links here entry there =>
      cases found
      exact ⟨.stop there, there⟩
  | case4 links here directory there rest isDirectory ih =>
      have onward : onward? root here "." = some (here, []) := by simp [onward?, *]
      exact (ih found).imp_left (.step onward)
  | case5 links here directory there rest isDirectory _ ih =>
      have onward : onward? root here ".." = some (here.dropLast, []) := by simp [onward?, *]
      exact (ih found).imp_left (.step onward)
  | case9 here directory there part rest isDirectory notHere notAbove _ target isLink links
      start ih =>
      have onward : onward? root here part = some (start, targetParts target) := by
        simp [onward?, start, *]
      exact (ih found).imp_left (.step onward)
  | case10 links here directory there part rest isDirectory notHere notAbove _ inner noLink
      child ih =>
      have onward : onward? root here part = some (here ++ [part], []) := by
        simp [onward?, *]
      exact (ih found).imp_left (.step onward)

/-- A component that leads on is followed, unless a limit is in the way. -/
theorem follow_of_onward {next expansion : List String} {part : String}
    (onward : onward? root here part = some (next, expansion)) (rest : List String) (links : Nat) :
    (∃ left, follow root links here (part :: rest) = follow root left next (expansion ++ rest)) ∨
      follow root links here (part :: rest) = .error .tooManyLinks ∨
      follow root links here (part :: rest) = .error .nameTooLong := by
  rw [follow]
  revert onward
  fun_cases onward? root here part with
  | case1 | case2 | case5 => exact nofun
  | case3 directory there isDirectory | case4 directory there isDirectory =>
      rintro ⟨⟩
      exact .inl ⟨links, by simp [*]⟩
  | case6 directory there isDirectory notHere notAbove target isLink =>
      rintro ⟨⟩
      simp only [there, notHere, notAbove, isLink, if_false]
      rw [if_neg isDirectory]
      split
      · exact .inr (.inr rfl)
      · cases links with
        | zero => exact .inr (.inl rfl)
        | succ links => exact .inl ⟨links, rfl⟩
  | case7 directory there isDirectory notHere notAbove inner noLink child =>
      rintro ⟨⟩
      simp only [there, notHere, notAbove, child, if_false]
      rw [if_neg isDirectory]
      split
      · exact .inr (.inr rfl)
      · exact .inl ⟨links, rfl⟩

/-- Where components lead is found, unless a limit is in the way. -/
theorem Leads.follow (leads : Leads root here pending place) (links : Nat) :
    (∃ entry, follow root links here pending = .ok (place, entry)) ∨
      follow root links here pending = .error .tooManyLinks ∨
      follow root links here pending = .error .nameTooLong := by
  induction leads generalizing links with
  | @stop here entry there =>
      rw [FileSystem.follow, there]
      exact .inl ⟨entry, rfl⟩
  | @step here next expansion rest place part onward _ ih =>
      rcases follow_of_onward onward rest links with ⟨left, same⟩ | failed
      · rw [same]
        exact ih left
      · exact .inr failed

end Follow

section Path

variable {system : FileSystem} {path : Path} {here place : List String} {entry : Entry}

/-- Where a path is followed from. -/
def origin (system : FileSystem) (path : Path) : List String :=
  if path.slashes = 0 then system.workingDirectory else []

/-- A path leads to a place. -/
def LeadsTo (system : FileSystem) (path : Path) (place : List String) : Prop :=
  Leads system.root (system.origin path) path.parts place

/-- No limit keeps a path from being followed: it is not too long, and the system does not give up
on its links if they lead anywhere. -/
structure WithinLimits (system : FileSystem) (path : Path) : Prop where
  short : system.resolve path ≠ .error .nameTooLong
  straight : ∀ place, system.LeadsTo path place → system.resolve path ≠ .error .tooManyLinks

theorem leadsTo_of_resolve (found : system.resolve path = .ok (place, entry)) :
    system.LeadsTo path place ∧ system.root.descend? place = some entry := by
  rw [resolve] at found
  split at found
  · cases found
  · exact leads_of_follow found

/-- What is seen at a path is what the path leads to. -/
theorem exists_resolve_of_inspect (seen : system.inspect path = .ok (some entry)) :
    ∃ place, system.resolve path = .ok (place, entry) := by
  rw [inspect] at seen
  split at seen
  · cases seen
  · split at seen
    next place there found =>
      cases seen
      exact ⟨place, found⟩
    all_goals cases seen

/-- Only a name that is too long keeps a path from being looked at. -/
theorem inspect_error {failure : Failure} (failed : system.inspect path = .error failure) :
    failure = .system .nameTooLong path.display ∧ system.resolve path = .error .nameTooLong := by
  rw [inspect] at failed
  split at failed
  · cases failed
  · split at failed
    next => cases failed
    next resolved =>
      cases failed
      exact ⟨rfl, resolved⟩
    next => cases failed

/-- Behind a path a name leads where it leads from the place of the path. -/
theorem leadsTo_child_iff {name : String} (leads : system.LeadsTo path here) :
    system.LeadsTo (path.child name) place ↔ Leads system.root here [name] place := by
  refine Leads.append_iff.trans ⟨?_, fun onward => ⟨here, leads, onward⟩⟩
  rintro ⟨between, first, second⟩
  exact leads.unique first ▸ second

theorem withinLimits_of_resolve (found : system.resolve path = .ok (place, entry)) :
    system.WithinLimits path where
  short failed := by cases found.symm.trans failed
  straight _ _ failed := by cases found.symm.trans failed

/-- Within the limits the place that a path leads to is found. -/
theorem WithinLimits.resolve (within : system.WithinLimits path)
    (leads : system.LeadsTo path place) (there : system.root.descend? place = some entry) :
    system.resolve path = .ok (place, entry) := by
  have short := within.short
  have straight := within.straight place leads
  rw [FileSystem.resolve] at short straight ⊢
  split
  next long => exact absurd (if_pos long) short
  next fits =>
    rw [if_neg fits] at short straight
    rcases leads.follow linkLimit with ⟨found, same⟩ | failed | failed
    · have again := (leads_of_follow same).2
      cases there.symm.trans again
      exact same
    · exact absurd failed straight
    · exact absurd failed short

theorem WithinLimits.inspect (within : system.WithinLimits path) (clean : hasNull path = false)
    (leads : system.LeadsTo path place) (there : system.root.descend? place = some entry) :
    system.inspect path = .ok (some entry) := by
  simp only [FileSystem.inspect, clean, within.resolve leads there, Bool.false_eq_true, if_false]

/-- Within the limits nothing is found where a path leads nowhere. -/
theorem WithinLimits.inspect_nowhere (within : system.WithinLimits path)
    (nowhere : ∀ place, ¬ system.LeadsTo path place) : system.inspect path = .ok none := by
  rw [FileSystem.inspect]
  split
  · rfl
  · split
    next place entry found => exact absurd (leadsTo_of_resolve found).1 (nowhere place)
    next failed => exact absurd failed within.short
    next => rfl

end Path

end FileSystem

/-! ## The order of directories -/

namespace Entry

/-- Entries of one kind with the same content, target or names, in whatever order. -/
def Matches : Entry → Entry → Prop
  | file content, file other => other = content
  | link target, link other => other = target
  | directory entries, directory others => (others.map (·.1)).Perm (entries.map (·.1))
  | _, _ => False

/-- Trees that differ only in the order in which their directories list what is in them. -/
def Alike (left right : Entry) : Prop :=
  ∀ place, Option.Rel Matches (left.descend? place) (right.descend? place)

theorem Matches.exists_directory {entries : List (String × Entry)} {matched : Entry}
    (same : (directory entries).Matches matched) : ∃ others, matched = directory others := by
  cases matched with
  | directory others => exact ⟨others, rfl⟩
  | _ => cases same

theorem Matches.isDirectory {left right : Entry} (same : left.Matches right) :
    right.isDirectory = left.isDirectory := by
  cases left <;> cases right <;> first | rfl | cases same

section Alike

variable {left right entry : Entry} {place : List String}

theorem Alike.nothing (alike : left.Alike right) (nothing : left.descend? place = none) :
    right.descend? place = none := by
  have same := alike place
  rw [nothing] at same
  cases found : right.descend? place with
  | none => rfl
  | some other =>
      rw [found] at same
      cases same

theorem Alike.exists_other (alike : left.Alike right) (found : left.descend? place = some entry) :
    ∃ other, right.descend? place = some other ∧ entry.Matches other := by
  have same := alike place
  rw [found] at same
  cases again : right.descend? place with
  | none =>
      rw [again] at same
      cases same
  | some other =>
      rw [again] at same
      cases same with
      | some matching => exact ⟨other, rfl, matching⟩

variable {other inner : Entry} {name : String}

theorem Alike.child_nothing (alike : left.Alike right) (found : left.descend? place = some entry)
    (again : right.descend? place = some other) (absent : entry.child? name = none) :
    other.child? name = none := by
  rw [← descend?_concat name found] at absent
  rw [← descend?_concat name again]
  exact alike.nothing absent

/-- In directories at one place the same names stand for entries that match. -/
theorem Alike.exists_child (alike : left.Alike right) (found : left.descend? place = some entry)
    (again : right.descend? place = some other) (child : entry.child? name = some inner) :
    ∃ others, other.child? name = some others ∧ inner.Matches others := by
  rw [← descend?_concat name found] at child
  rw [← descend?_concat name again]
  exact alike.exists_other child

end Alike

end Entry

namespace FileSystem

variable {left right : Entry}

/-- Components lead to the same place in trees that are alike, and fail in the same way. -/
theorem follow_alike (alike : left.Alike right) (links : Nat) (here pending : List String) :
    (follow right links here pending).map (·.1) = (follow left links here pending).map (·.1) := by
  fun_induction follow left links here pending with
  | case1 links here pending nothing => rw [follow, alike.nothing nothing]
  | case2 links here entry there =>
      obtain ⟨other, again, -⟩ := alike.exists_other there
      rw [follow, again]
      rfl
  | case3 links here directory there | case4 links here directory there
  | case5 links here directory there | case6 links here directory there =>
      obtain ⟨other, again, matching⟩ := alike.exists_other there
      rw [follow]
      simp [matching.isDirectory, *]
  | case7 links here directory there part rest isDirectory notHere notAbove short absent =>
      obtain ⟨other, again, matching⟩ := alike.exists_other there
      have child := alike.child_nothing there again absent
      rw [follow]
      simp [matching.isDirectory, *]
  | case8 here directory there part rest isDirectory notHere notAbove short target isLink =>
      obtain ⟨other, again, matching⟩ := alike.exists_other there
      obtain ⟨inner, child, same⟩ := alike.exists_child there again isLink
      cases inner with
      | link target =>
          rw [follow]
          simp [matching.isDirectory, *]
      | _ => cases same
  | case9 here directory there part rest isDirectory notHere notAbove short target isLink links
      start ih =>
      obtain ⟨other, again, matching⟩ := alike.exists_other there
      obtain ⟨inner, child, same⟩ := alike.exists_child there again isLink
      cases inner with
      | link otherTarget =>
          cases same
          rw [← ih, follow]
          simp [matching.isDirectory, start, *]
      | _ => cases same
  | case10 links here directory there part rest isDirectory notHere notAbove short inner noLink
      found ih =>
      obtain ⟨other, again, matching⟩ := alike.exists_other there
      obtain ⟨others, child, same⟩ := alike.exists_child there again found
      have noOther (target : String) : others ≠ .link target := by
        rintro rfl
        cases inner with
        | link target => exact noLink target rfl
        | _ => cases same
      rw [follow]
      simp [matching.isDirectory, *]

section Alike

variable {system other : FileSystem} (alike : system.root.Alike other.root)
  (same : other.workingDirectory = system.workingDirectory)
include alike same

theorem resolve_alike (path : Path) :
    (other.resolve path).map (·.1) = (system.resolve path).map (·.1) := by
  rw [resolve, resolve, same]
  split
  · rfl
  · exact follow_alike alike ..

theorem resolve_alike_of_error {path : Path} {fault : SystemFault}
    (failed : system.resolve path = .error fault) : other.resolve path = .error fault := by
  have places := resolve_alike alike same path
  rw [failed] at places
  cases again : other.resolve path with
  | error otherFault =>
      rw [again] at places
      cases places
      rfl
  | ok answer =>
      rw [again] at places
      cases places

theorem resolve_alike_of_ok {path : Path} {place : List String} {entry : Entry}
    (found : system.resolve path = .ok (place, entry)) :
    ∃ matched, other.resolve path = .ok (place, matched) ∧ entry.Matches matched := by
  have places := resolve_alike alike same path
  rw [found] at places
  cases again : other.resolve path with
  | error fault =>
      rw [again] at places
      cases places
  | ok answer =>
      obtain ⟨otherPlace, otherEntry⟩ := answer
      rw [again] at places
      cases places
      obtain ⟨matched, there, matching⟩ := alike.exists_other (leadsTo_of_resolve found).2
      cases there.symm.trans (leadsTo_of_resolve again).2
      exact ⟨_, rfl, matching⟩

/-- Looking at a path shows the same in file systems that are alike. -/
theorem inspect_alike (path : Path) :
    (∃ entry matched, system.inspect path = .ok (some entry) ∧
        other.inspect path = .ok (some matched) ∧ entry.Matches matched) ∨
      system.inspect path = .ok none ∧ other.inspect path = .ok none ∨
      ∃ failure, system.inspect path = .error failure ∧ other.inspect path = .error failure := by
  rw [inspect, inspect]
  split
  · exact .inr (.inl ⟨rfl, rfl⟩)
  · cases found : system.resolve path with
    | error fault =>
        rw [resolve_alike_of_error alike same found]
        cases fault with
        | nameTooLong => exact .inr (.inr ⟨_, rfl, rfl⟩)
        | _ => exact .inr (.inl ⟨rfl, rfl⟩)
    | ok answer =>
        obtain ⟨place, entry⟩ := answer
        obtain ⟨matched, again, matching⟩ := resolve_alike_of_ok alike same found
        rw [again]
        exact .inl ⟨entry, matched, rfl, rfl, matching⟩

end Alike

end FileSystem

end Interlock
