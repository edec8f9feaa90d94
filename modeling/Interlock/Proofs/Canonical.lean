import Interlock.Proofs.Path
import Mathlib.Data.List.Induction
import Mathlib.Data.List.Infix

/-!
# Canonical paths

The components of a path lead some steps up and from there down along names.  A relative path keeps
both; an absolute path keeps the names only, since there is nothing above the root.  So a path that
has been made normal is made of steps up, if it is relative, and names behind them, and making it
normal again changes nothing.

The key of a path is its normal form, seen from the working directory.  It is the same for all
spellings of a path, and a relative path has the key of the absolute path that it stands for,
unless it leads out of the working directory.
-/

namespace Interlock

/-- Only an absolute path begins with a slash. -/
def IsAbsolute (text : String) : Prop := text.toList.head? = some '/'

instance (text : String) : Decidable (IsAbsolute text) :=
  inferInstanceAs (Decidable (text.toList.head? = some '/'))

namespace Path

/-! ## Names and steps up -/

/-- A component that is the name of an entry. -/
structure IsName (part : String) : Prop where
  isPart : isPart part = true
  down : part ≠ ".."
  apart : '/' ∉ part.toList

/-- Components lead some steps up and from there down along names, which stand last first. -/
structure Climbs (parts : List String) (ups : Nat) (names : List String) : Prop where
  own : ∀ name ∈ names, name ∈ parts ∧ name ≠ ".."
  relative : parts.foldl (climb false) [] = names ++ List.replicate ups ".."
  absolute : ∀ above, ".." ∉ above → parts.foldl (climb true) above = names ++ above.drop ups

section Climbing

variable {absolute : Bool} {above parts names : List String} {ups : Nat}

theorem climb_down {part : String} (down : part ≠ "..") :
    climb absolute above part = part :: above := if_pos down

theorem climb_up {name : String} (down : name ≠ "..") :
    climb absolute (name :: above) ".." = above := if_neg down

theorem climb_up_replicate (ups : Nat) :
    climb false (List.replicate ups "..") ".." = List.replicate (ups + 1) ".." := by
  cases ups <;> rfl

theorem climb_up_drop (top : ".." ∉ above) (ups : Nat) :
    climb true (above.drop ups) ".." = above.drop (ups + 1) := by
  have rest : ".." ∉ above.drop ups := fun member => top (List.mem_of_mem_drop member)
  rw [← List.drop_drop]
  cases left : above.drop ups with
  | nil => rfl
  | cons name others =>
      rw [left] at rest
      exact climb_up fun isUp => rest (isUp ▸ List.mem_cons_self)

theorem foldl_climb_names (down : ∀ name ∈ names, name ≠ "..") :
    names.foldl (climb absolute) above = names.reverse ++ above := by
  induction names generalizing above with
  | nil => rfl
  | cons name names ih =>
      rw [List.foldl_cons, climb_down (down name List.mem_cons_self),
        ih fun other member => down other (List.mem_cons_of_mem _ member), List.reverse_cons,
        List.append_assoc, List.singleton_append]

theorem foldl_concat (part : String) :
    (parts ++ [part]).foldl (climb absolute) above =
      climb absolute (parts.foldl (climb absolute) above) part := by
  rw [List.foldl_append]
  rfl

namespace Climbs

theorem name {part : String} (climbs : Climbs parts ups names) (down : part ≠ "..") :
    Climbs (parts ++ [part]) ups (part :: names) where
  own := by
    refine List.forall_mem_cons.2 ⟨⟨by simp, down⟩, fun name member => ?_⟩
    exact (climbs.own name member).imp_left (List.mem_append_left _)
  relative := by rw [foldl_concat, climbs.relative, climb_down down, List.cons_append]
  absolute := fun above top => by
    rw [foldl_concat, climbs.absolute above top, climb_down down, List.cons_append]

theorem back {name : String} (climbs : Climbs parts ups (name :: names)) :
    Climbs (parts ++ [".."]) ups names where
  own := fun other member =>
    (climbs.own other (List.mem_cons_of_mem _ member)).imp_left (List.mem_append_left _)
  relative := by
    rw [foldl_concat, climbs.relative]
    exact climb_up (climbs.own name List.mem_cons_self).2
  absolute := fun above top => by
    rw [foldl_concat, climbs.absolute above top]
    exact climb_up (climbs.own name List.mem_cons_self).2

theorem up (climbs : Climbs parts ups []) : Climbs (parts ++ [".."]) (ups + 1) [] where
  own := nofun
  relative := by
    rw [foldl_concat, climbs.relative]
    exact climb_up_replicate ups
  absolute := fun above top => by
    rw [foldl_concat, climbs.absolute above top]
    exact climb_up_drop top ups

end Climbs

theorem exists_climbs (parts : List String) : ∃ ups names, Climbs parts ups names := by
  induction parts using List.reverseRecOn with
  | nil => exact ⟨0, [], nofun, rfl, fun _ _ => rfl⟩
  | append_singleton parts part ih =>
      obtain ⟨ups, names, climbs⟩ := ih
      by_cases isUp : part = ".."
      · subst isUp
        cases names with
        | nil => exact ⟨ups + 1, [], climbs.up⟩
        | cons name names => exact ⟨ups, names, climbs.back⟩
      · exact ⟨ups, part :: names, climbs.name isUp⟩

theorem Climbs.normal_relative (climbs : Climbs parts ups names) :
    normal ⟨0, parts⟩ = ⟨0, List.replicate ups ".." ++ names.reverse⟩ := by
  simp [normal, climbs.relative]

theorem Climbs.normal_absolute (climbs : Climbs parts ups names) {slashes : Nat}
    (rooted : slashes ≠ 0) : normal ⟨slashes, parts⟩ = ⟨slashes, names.reverse⟩ := by
  simp [normal, rooted, climbs.absolute [] List.not_mem_nil]

end Climbing

/-! ## Normal paths -/

/-- A normal path has steps up only at its front, and only if it is relative. -/
structure IsNormal (path : Path) : Prop where
  slashes : path.slashes ≤ 2
  parts : ∃ ups names, path.parts = List.replicate ups ".." ++ names ∧
    (path.slashes ≠ 0 → ups = 0) ∧ ∀ name ∈ names, IsName name

section Normal

variable {path other : Path} {directory : List String}

theorem isNormal_normal (read : path.IsRead) : path.normal.IsNormal := by
  obtain ⟨slashes, parts⟩ := path
  obtain ⟨ups, names, climbs⟩ := exists_climbs parts
  have named : ∀ name ∈ names.reverse, IsName name := fun name member =>
    have own := climbs.own name (List.mem_reverse.1 member)
    ⟨(read.parts name own.1).1, own.2, (read.parts name own.1).2⟩
  by_cases relative : slashes = 0
  · subst relative
    rw [climbs.normal_relative]
    exact ⟨Nat.zero_le _, ups, _, rfl, fun rooted => absurd rfl rooted, named⟩
  · rw [climbs.normal_absolute relative]
    exact ⟨read.slashes, 0, _, rfl, fun _ => rfl, named⟩

theorem IsNormal.isRead (isNormal : path.IsNormal) : path.IsRead := by
  obtain ⟨slashes, ups, names, parts, -, named⟩ := isNormal
  refine ⟨slashes, fun part member => ?_⟩
  rw [parts] at member
  rcases List.mem_append.1 member with up | name
  · obtain rfl := List.eq_of_mem_replicate up
    decide
  · exact ⟨(named part name).isPart, (named part name).apart⟩

/-- Steps up and names behind them stay as they are. -/
theorem foldl_climb_replicate (ups : Nat) :
    (List.replicate ups "..").foldl (climb false) [] = List.replicate ups ".." := by
  induction ups with
  | zero => rfl
  | succ ups ih =>
      rw [List.replicate_succ', foldl_concat, ih, climb_up_replicate, List.replicate_succ']

theorem IsNormal.normal_eq (isNormal : path.IsNormal) : path.normal = path := by
  obtain ⟨slashes, parts⟩ := path
  obtain ⟨-, ups, names, rfl, rooted, named⟩ := isNormal
  have down : ∀ name ∈ names, name ≠ ".." := fun name member => (named name member).down
  rw [normal]
  by_cases relative : slashes = 0
  · simp [relative, List.foldl_append, foldl_climb_replicate, foldl_climb_names down]
  · simp [rooted relative, foldl_climb_names down]

/-! ## Paths seen from a directory -/

theorem seenFrom_relative (relative : path.slashes = 0) : path.seenFrom directory = path :=
  if_pos relative

theorem seenFrom_below (rooted : path.slashes ≠ 0) {rest : List String}
    (below : path.parts = directory ++ rest) : path.seenFrom directory = ⟨0, rest⟩ := by
  have found : directory.isPrefixOf? path.parts = some rest :=
    List.isPrefixOf?_eq_some_iff_append_eq.2 below.symm
  rw [seenFrom, if_neg rooted, found]

theorem seenFrom_elsewhere (elsewhere : ¬ directory <+: path.parts) :
    path.seenFrom directory = path := by
  rw [seenFrom]
  split
  · rfl
  · split
    next rest found =>
      exact absurd ⟨rest, List.isPrefixOf?_eq_some_iff_append_eq.1 found⟩ elsewhere
    next => rfl

/-- A path is relative when it is seen from a directory exactly if it was relative before, or is
at or below that directory. -/
theorem slashes_seenFrom_eq_zero_iff :
    (path.seenFrom directory).slashes = 0 ↔ path.slashes = 0 ∨ directory <+: path.parts := by
  by_cases relative : path.slashes = 0
  · simp [seenFrom_relative relative, relative]
  by_cases below : directory <+: path.parts
  · obtain ⟨rest, split⟩ := below
    simp [seenFrom_below relative split.symm, ← split]
  · simp [seenFrom_elsewhere below, relative, below]

theorem parts_seenFrom_suffix : (path.seenFrom directory).parts <:+ path.parts := by
  by_cases relative : path.slashes = 0
  · exact (seenFrom_relative relative).symm ▸ List.suffix_rfl
  by_cases below : directory <+: path.parts
  · obtain ⟨rest, split⟩ := below
    rw [seenFrom_below relative split.symm, ← split]
    exact List.suffix_append _ _
  · exact (seenFrom_elsewhere below).symm ▸ List.suffix_rfl

theorem seenFrom_seenFrom : (path.seenFrom directory).seenFrom directory =
    path.seenFrom directory := by
  by_cases relative : (path.seenFrom directory).slashes = 0
  · exact seenFrom_relative relative
  · obtain ⟨-, elsewhere⟩ := not_or.1 (mt slashes_seenFrom_eq_zero_iff.2 relative)
    rw [seenFrom_elsewhere elsewhere, seenFrom_elsewhere elsewhere]

theorem IsNormal.seenFrom (isNormal : path.IsNormal) : (path.seenFrom directory).IsNormal := by
  by_cases relative : path.slashes = 0
  · exact (seenFrom_relative relative).symm ▸ isNormal
  by_cases below : directory <+: path.parts
  · obtain ⟨rest, split⟩ := below
    obtain ⟨-, ups, names, parts, rooted, named⟩ := isNormal
    rw [seenFrom_below relative split.symm]
    refine ⟨Nat.zero_le _, 0, rest, rfl, fun absurdly => absurd rfl absurdly, ?_⟩
    intro name member
    refine named name ?_
    rw [rooted relative, List.replicate_zero, List.nil_append] at parts
    rw [← parts, ← split]
    exact List.mem_append_right _ member
  · exact (seenFrom_elsewhere below).symm ▸ isNormal

end Normal

/-! ## Keys -/

section Keys

variable {directory : List String} {path other : Path} {text : String}

/-- Paths that were read are told apart by their texts. -/
theorem IsRead.display_inj (read : path.IsRead) (readOther : other.IsRead) :
    path.display = other.display ↔ path = other := by
  refine ⟨fun same => ?_, congrArg display⟩
  rw [← read.parse_display, same, readOther.parse_display]

/-- The path that a key is the text of. -/
theorem isNormal_key (directory : List String) (text : String) :
    ((parse text).normal.seenFrom directory).IsNormal :=
  (isNormal_normal (isRead_parse text)).seenFrom

theorem key_idem (directory : List String) (text : String) :
    key directory (key directory text) = key directory text := by
  have isNormal := isNormal_key directory text
  have again : parse (key directory text) = (parse text).normal.seenFrom directory :=
    isNormal.isRead.parse_display
  rw [key, again, isNormal.normal_eq, seenFrom_seenFrom, key]

theorem leadingSlashes_eq_zero_iff {chars : List Char} :
    leadingSlashes chars = 0 ↔ chars.head? ≠ some '/' := by
  fun_cases leadingSlashes chars with
  | case1 | case2 | case3 => simp
  | case4 _ _ _ other => simpa [List.head?_eq_some_iff] using other

theorem slashes_parse_eq_zero_iff : (parse text).slashes = 0 ↔ ¬ IsAbsolute text :=
  leadingSlashes_eq_zero_iff

/-- The key of an absolute path is relative exactly when the path is at or below the working
directory. -/
theorem not_isAbsolute_key_iff :
    ¬ IsAbsolute (key directory text) ↔
      ¬ IsAbsolute text ∨ directory <+: (parse text).normal.parts := by
  rw [← slashes_parse_eq_zero_iff, ← slashes_parse_eq_zero_iff, key,
    (isNormal_key directory text).isRead.parse_display, slashes_seenFrom_eq_zero_iff]
  rfl

/-! ## Keys of joined paths -/

theorem parts_parse_append (front rest : String) :
    (parse (front ++ "/" ++ rest)).parts = (parse front).parts ++ (parse rest).parts := by
  have chars : (front ++ "/" ++ rest).toList = front.toList ++ '/' :: rest.toList := by simp
  rw [parse, Text.fields, chars, Text.fieldsOf_append, List.map_append, List.filter_append]
  rfl

theorem parse_display_directory (named : ∀ name ∈ directory, IsName name) :
    parse (display ⟨1, directory⟩) = ⟨1, directory⟩ :=
  IsRead.parse_display
    ⟨Nat.le_succ 1, fun name member => ⟨(named name member).isPart, (named name member).apart⟩⟩

theorem isAbsolute_append {front : String} (rooted : IsAbsolute front) (rest : String) :
    IsAbsolute (front ++ rest) := by
  rw [IsAbsolute, String.toList_append, List.head?_append, rooted]
  rfl

section Climbing

variable {parts names : List String} {ups slashes : Nat}

/-- Behind a directory, steps up take names of the directory away. -/
theorem Climbs.normal_behind (climbs : Climbs parts ups names)
    (named : ∀ name ∈ directory, IsName name) (rooted : slashes ≠ 0) :
    normal ⟨slashes, directory ++ parts⟩ =
      ⟨slashes, (names ++ directory.reverse.drop ups).reverse⟩ := by
  have down : ∀ name ∈ directory, name ≠ ".." := fun name member => (named name member).down
  have top : ".." ∉ directory.reverse := fun member => down _ (List.mem_reverse.1 member) rfl
  have start : directory.foldl (climb true) [] = directory.reverse := by
    rw [foldl_climb_names down, List.append_nil]
  simp [normal, rooted, List.foldl_append, start, climbs.absolute _ top]

/-- What is left is seen as the names alone when no step is up.  Else it is seen without steps up,
which the names have in front of them. -/
theorem Climbs.seenFrom_behind_iff (climbs : Climbs parts ups names)
    (named : ∀ name ∈ directory, IsName name) (rooted : slashes ≠ 0) :
    seenFrom directory ⟨slashes, (names ++ directory.reverse.drop ups).reverse⟩ =
        ⟨0, List.replicate ups ".." ++ names.reverse⟩ ↔ ups = 0 := by
  cases ups with
  | zero =>
      refine iff_of_true ?_ rfl
      apply seenFrom_below
      · exact rooted
      · simp
  | succ ups =>
      refine iff_of_false (fun same => ?_) (Nat.succ_ne_zero ups)
      have up : ".." ∈ (seenFrom directory ⟨slashes,
          (names ++ directory.reverse.drop (ups + 1)).reverse⟩).parts := by
        rw [same]
        simp [List.replicate_succ]
      have within := parts_seenFrom_suffix.mem up
      rcases List.mem_append.1 (List.mem_reverse.1 within) with own | above
      · exact (climbs.own _ own).2 rfl
      · exact (named _ (List.mem_reverse.1 (List.mem_of_mem_drop above))).down rfl

theorem Climbs.head?_ne_iff (climbs : Climbs parts ups names) :
    (List.replicate ups ".." ++ names.reverse).head? ≠ some ".." ↔ ups = 0 := by
  cases ups with
  | zero =>
      refine iff_of_true (fun isUp => ?_) rfl
      exact (climbs.own _ (List.mem_reverse.1 (List.mem_of_head? isUp))).2 rfl
  | succ ups => simp [List.replicate_succ]

end Climbing

/-- A relative path has the same key behind the working directory, unless it leads out of it. -/
theorem key_append_iff (named : ∀ name ∈ directory, IsName name) (relative : ¬ IsAbsolute text) :
    key directory (display ⟨1, directory⟩ ++ "/" ++ text) = key directory text ↔
      (parse text).normal.parts.head? ≠ some ".." := by
  have flat := slashes_parse_eq_zero_iff.2 relative
  have start : IsAbsolute (display ⟨1, directory⟩) := by
    by_contra relative
    have slashes := slashes_parse_eq_zero_iff.2 relative
    rw [parse_display_directory named] at slashes
    cases slashes
  have rooted : (parse (display ⟨1, directory⟩ ++ "/" ++ text)).slashes ≠ 0 :=
    mt slashes_parse_eq_zero_iff.1 (not_not.2 (isAbsolute_append (isAbsolute_append start _) _))
  have joined := parts_parse_append (display ⟨1, directory⟩) text
  rw [parse_display_directory named] at joined
  rw [key, key, (isNormal_key _ _).isRead.display_inj (isNormal_key _ _).isRead]
  generalize parse (display ⟨1, directory⟩ ++ "/" ++ text) = whole at rooted joined ⊢
  generalize parse text = path at flat joined ⊢
  obtain ⟨slashes, parts⟩ := path
  obtain ⟨slashesWhole, partsWhole⟩ := whole
  obtain rfl : slashes = 0 := flat
  obtain rfl : partsWhole = directory ++ parts := joined
  obtain ⟨ups, names, climbs⟩ := exists_climbs parts
  have stays : seenFrom directory ⟨0, List.replicate ups ".." ++ names.reverse⟩ =
      ⟨0, List.replicate ups ".." ++ names.reverse⟩ := seenFrom_relative rfl
  rw [climbs.normal_relative, climbs.normal_behind named rooted, stays]
  exact (climbs.seenFrom_behind_iff named rooted).trans climbs.head?_ne_iff.symm

end Keys

/-! ## Spellings -/

/-- Components among which others have been put that say nothing: empty ones, dots, and names with
a step up behind them.  They stand behind the first component that is not empty. -/
inductive Padded (fields : List String) : List String → Prop where
  | same : Padded fields fields
  | silent {before after : List String} {part : String} :
      Padded fields (before ++ after) → (∃ field ∈ before, field ≠ "") →
      part = "" ∨ part = "." → Padded fields (before ++ part :: after)
  | detour {before after : List String} {name : String} :
      Padded fields (before ++ after) → (∃ field ∈ before, field ≠ "") →
      IsName name → Padded fields (before ++ name :: ".." :: after)

/-- Components with slashes between them. -/
def spelled (fields : List String) : List Char := ['/'].intercalate (fields.map String.toList)

theorem spelled_fields (text : String) : spelled (Text.fields '/' text) = text.toList := by
  have back : String.toList ∘ String.ofList = id := funext fun _ => String.toList_ofList
  rw [spelled, Text.fields, List.map_map, back, List.map_id, Text.intercalate_fieldsOf]

section Spelling

variable {fields before : List String}

theorem exists_spelled_append (nonempty : before ≠ []) (after : List String) :
    ∃ rest, spelled (before ++ after) = spelled before ++ rest := by
  by_cases none : after = []
  · exact ⟨[], by rw [none, List.append_nil, List.append_nil]⟩
  · refine ⟨'/' :: spelled after, ?_⟩
    rw [spelled, List.map_append, Text.intercalate_append (by simpa using nonempty)
      (by simpa using none)]
    rfl

theorem mem_spelled {field : String} (member : field ∈ before) {c : Char}
    (among : c ∈ field.toList) : c ∈ spelled before := by
  induction before with
  | nil => cases member
  | cons part before ih =>
      cases before with
      | nil => simpa [spelled, ← List.mem_singleton.1 member] using among
      | cons next before =>
          simp only [spelled, List.map_cons, List.intercalate_cons_cons] at ih ⊢
          rcases List.mem_cons.1 member with rfl | member
          · simp [among]
          · exact List.mem_append_right _ (ih member)

theorem exists_slashes {front : List Char} (some : ∃ c ∈ front, c ≠ '/') :
    ∃ count c rest, front = List.replicate count '/' ++ c :: rest ∧ c ≠ '/' := by
  induction front with
  | nil => exact absurd some (by simp)
  | cons c front ih =>
      by_cases slash : c = '/'
      · obtain ⟨count, other, rest, rfl, apart⟩ := ih (by simpa [slash] using some)
        exact ⟨count + 1, other, rest, by simp [slash, List.replicate_succ], apart⟩
      · exact ⟨0, c, front, rfl, slash⟩

/-- Leading slashes end at the first character that is none. -/
theorem leadingSlashes_append {front : List Char} (some : ∃ c ∈ front, c ≠ '/')
    (rest : List Char) : leadingSlashes (front ++ rest) = leadingSlashes front := by
  obtain ⟨count, c, more, rfl, apart⟩ := exists_slashes some
  rw [List.append_assoc, List.cons_append]
  by_cases few : count ≤ 2
  · rw [leadingSlashes_replicate few (by simpa using apart),
      leadingSlashes_replicate few (by simpa using apart)]
  · obtain ⟨others, rfl⟩ := Nat.exists_eq_add_of_le' (Nat.lt_of_not_le few)
    rfl

/-- What stands behind a component that is not empty has no part in the leading slashes. -/
theorem leadingSlashes_spelled (apart : ∀ field ∈ before, '/' ∉ field.toList)
    (some : ∃ field ∈ before, field ≠ "") (after other : List String) :
    leadingSlashes (spelled (before ++ after)) = leadingSlashes (spelled (before ++ other)) := by
  obtain ⟨field, member, nonempty⟩ := some
  obtain ⟨c, more, chars⟩ := List.exists_cons_of_ne_nil (mt String.toList_eq_nil_iff.1 nonempty)
  have among : c ∈ field.toList := by simp [chars]
  have noSlash : ∃ c ∈ spelled before, c ≠ '/' := by
    refine ⟨c, mem_spelled member among, ?_⟩
    rintro rfl
    exact apart field member among
  obtain ⟨rest, whole⟩ := exists_spelled_append (List.ne_nil_of_mem member) after
  obtain ⟨restOther, wholeOther⟩ := exists_spelled_append (List.ne_nil_of_mem member) other
  rw [whole, wholeOther, leadingSlashes_append noSlash, leadingSlashes_append noSlash]

/-- What is put into a path leaves its leading slashes, and leads to where the path leads. -/
theorem Padded.keeps {padded : List String} (pads : Padded fields padded)
    (apart : ∀ field ∈ fields, '/' ∉ field.toList) :
    (∀ field ∈ padded, '/' ∉ field.toList) ∧
      leadingSlashes (spelled padded) = leadingSlashes (spelled fields) ∧
      ∀ absolute, (padded.filter isPart).foldl (climb absolute) [] =
        (fields.filter isPart).foldl (climb absolute) [] := by
  induction pads with
  | same => exact ⟨apart, rfl, fun _ => rfl⟩
  | @silent before after part pads some blank ih =>
      obtain ⟨whole, count, climbs⟩ := ih
      obtain ⟨front, back⟩ := List.forall_mem_append.1 whole
      refine ⟨?_, (leadingSlashes_spelled front some _ _).trans count, fun absolute => ?_⟩
      · refine List.forall_mem_append.2 ⟨front, List.forall_mem_cons.2 ⟨?_, back⟩⟩
        rcases blank with rfl | rfl <;> decide
      · have skipped : isPart part = false := by rcases blank with rfl | rfl <;> rfl
        rw [List.filter_append, List.filter_cons_of_neg (by simp [skipped]), ← List.filter_append,
          climbs]
  | @detour before after name pads some named ih =>
      obtain ⟨whole, count, climbs⟩ := ih
      obtain ⟨front, back⟩ := List.forall_mem_append.1 whole
      refine ⟨?_, (leadingSlashes_spelled front some _ _).trans count, fun absolute => ?_⟩
      · refine List.forall_mem_append.2 ⟨front, List.forall_mem_cons.2 ⟨named.apart,
          List.forall_mem_cons.2 ⟨by decide, back⟩⟩⟩
      · rw [List.filter_append, List.filter_cons_of_pos named.isPart,
          List.filter_cons_of_pos (by decide), List.foldl_append, List.foldl_cons, List.foldl_cons,
          climb_down named.down, climb_up named.down, ← List.foldl_append, ← List.filter_append,
          climbs]

end Spelling

section Keys

variable {directory : List String} {text other : String}

/-- Spellings that differ in what says nothing have one key. -/
theorem key_of_padded (pads : Padded (Text.fields '/' text) (Text.fields '/' other)) :
    key directory other = key directory text := by
  have apart : ∀ field ∈ Text.fields '/' text, '/' ∉ field.toList := by
    intro field member
    obtain ⟨chars, among, rfl⟩ := List.mem_map.1 member
    rw [String.toList_ofList]
    exact Text.not_mem_of_mem_fieldsOf among
  obtain ⟨-, count, climbs⟩ := pads.keeps apart
  rw [spelled_fields, spelled_fields] at count
  have same : (parse other).normal = (parse text).normal := by
    rw [normal, normal, parse, parse, count, climbs]
  rw [key, key, same]

end Keys

/-- A text with at most two slashes at its front, then steps up if there is no slash, then names,
with one slash between each of them; or a dot. -/
def IsCanonical (text : String) : Prop :=
  text = "." ∨ ∃ slashes ups names,
    text = String.ofList (List.replicate slashes '/') ++
      "/".intercalate (List.replicate ups ".." ++ names) ∧
    slashes ≤ 2 ∧ (slashes ≠ 0 → ups = 0) ∧ (∀ name ∈ names, IsName name) ∧
    (slashes = 0 → ups = 0 → names ≠ [])

theorem IsNormal.isCanonical {path : Path} (isNormal : path.IsNormal) :
    IsCanonical path.display := by
  obtain ⟨slashes, parts⟩ := path
  obtain ⟨few, ups, names, rfl, rooted, named⟩ := isNormal
  rw [display]
  split
  next => exact .inl rfl
  next some =>
    refine .inr ⟨slashes, ups, names, rfl, few, rooted, named, ?_⟩
    rintro rfl rfl rfl
    exact some rfl

/-- Keys are canonical.  The key of a key is the key itself; a path has one key for all its
spellings, and also when it is read and written out plainly.  A key has nothing in it that says
nothing, and steps up only at the front of a relative one.  It is relative for an absolute path
exactly when the path is at or below the working directory, and a relative path has the same key
behind the working directory exactly when it does not lead out of it. -/
theorem key_canonical (directory : List String) (named : ∀ name ∈ directory, IsName name)
    (text : String) :
    key directory (key directory text) = key directory text ∧
    (∀ other, Padded (Text.fields '/' text) (Text.fields '/' other) →
      key directory other = key directory text) ∧
    key directory (parse text).display = key directory text ∧
    IsCanonical (key directory text) ∧
    (IsAbsolute text →
      (¬ IsAbsolute (key directory text) ↔ directory <+: (parse text).normal.parts)) ∧
    (¬ IsAbsolute text →
      (key directory (display ⟨1, directory⟩ ++ "/" ++ text) = key directory text ↔
        (parse text).normal.parts.head? ≠ some "..")) := by
  refine ⟨key_idem directory text, fun _ => key_of_padded, key_display_parse directory text,
    (isNormal_key directory text).isCanonical, fun absolute => ?_, key_append_iff named⟩
  rw [not_isAbsolute_key_iff]
  exact or_iff_right (not_not.2 absolute)

/-- Three spellings of one path below the working directory. -/
theorem key_contracts :
    (∀ name ∈ ["home", "work"], IsName name) ∧
      key ["home", "work"] "/home/work/lib/../A.sol" = key ["home", "work"] "/home/work/A.sol" ∧
      ¬ IsAbsolute (key ["home", "work"] "/home/work/A.sol") ∧
      key ["home", "work"] "/home/work/A.sol" = key ["home", "work"] "A.sol" := by
  have named : ∀ name ∈ ["home", "work"], IsName name := by
    intro name member
    rcases List.mem_cons.1 member with rfl | member
    · exact ⟨rfl, by decide, by decide⟩
    · obtain rfl := List.mem_singleton.1 member
      exact ⟨rfl, by decide, by decide⟩
  have lib : IsName "lib" := ⟨rfl, by decide, by decide⟩
  obtain ⟨-, spellings, -, -, seen, -⟩ := key_canonical _ named "/home/work/A.sol"
  obtain ⟨-, -, -, -, -, joined⟩ := key_canonical _ named "A.sol"
  refine ⟨named, spellings _ ?_, (seen (by decide +kernel)).2 ?_, ?_⟩
  · have fields : Text.fields '/' "/home/work/A.sol" = ["", "home", "work"] ++ ["A.sol"] := by
      decide +kernel
    have longer : Text.fields '/' "/home/work/lib/../A.sol" =
        ["", "home", "work"] ++ "lib" :: ".." :: ["A.sol"] := by
      decide +kernel
    rw [fields, longer]
    exact .detour .same ⟨"home", by decide, by decide⟩ lib
  · decide +kernel
  · exact (joined (by decide +kernel)).2 (by decide +kernel)

end Path

end Interlock
