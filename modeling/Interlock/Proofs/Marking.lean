import Interlock.Proofs.Outcome

/-!
# What a summary marks

A summary has a line for each function of a contract, and the mark can be read off the end of the
line.  Under the first contract that is no interface and no library, the functions that are marked
as missing a guard are those that a check of the same source reports, and the functions that are
marked as unchecked are those that a check does not look at.
-/

namespace Interlock

/-! ## Lines and marks -/

namespace Mark

/-- The words for a mark, as they end a line. -/
def ending (mark : Mark) : List Char := ' ' :: mark.words.toList

theorem ending_ne_nil (mark : Mark) : mark.ending ≠ [] := List.cons_ne_nil _ _

/-- The words for different marks end in different letters. -/
theorem eq_of_getLast?_ending {mark other : Mark}
    (same : mark.ending.getLast? = other.ending.getLast?) : mark = other := by
  revert same
  cases mark <;> cases other <;> decide

/-- Whether a line ends in the words for a mark. -/
def endsLine (mark : Mark) (line : String) : Bool := mark.ending.isSuffixOf line.toList

/-- A line that ends in the words for one mark does not end in those for another one. -/
theorem endsLine_iff {mark written : Mark} {line : String} {front : List Char}
    (ends : line.toList = front ++ written.ending) :
    mark.endsLine line = true ↔ written = mark := by
  rw [endsLine, List.isSuffixOf_iff_suffix, ends]
  constructor
  · rintro ⟨before, same⟩
    have last := congrArg List.getLast? same
    rw [List.getLast?_append_of_ne_nil _ mark.ending_ne_nil,
      List.getLast?_append_of_ne_nil _ written.ending_ne_nil] at last
    exact (eq_of_getLast?_ending last).symm
  · rintro rfl
    exact List.suffix_append ..

end Mark

namespace Policy

variable {policy : Policy}

/-- The line for a function begins with what the function is called. -/
theorem functionLine_front (policy : Policy) (function : Tree.Function) :
    ∃ rest, policy.functionLine function = "  " ++ Text.padded 40 function.label ++ rest := by
  unfold functionLine
  generalize "  " ++ Text.padded 40 function.label = front
  simp only [String.append_assoc]
  exact ⟨_, rfl⟩

/-- The mark of a function can be read off its line. -/
theorem endsLine_functionLine (mark : Mark) (function : Tree.Function) :
    mark.endsLine (policy.functionLine function) = true ↔ policy.mark function = mark := by
  apply Mark.endsLine_iff
  rw [functionLine, String.toList_append, String.toList_append, List.append_assoc]
  rfl

theorem mark_eq_missingGuard_iff {function : Tree.Function} :
    policy.mark function = .missingGuard ↔
      function.name ≠ "" ∧ policy.accepts function = false := by
  rw [mark]
  split
  · simp [*]
  · split <;> simp [*]

theorem mark_eq_unchecked_iff {function : Tree.Function} :
    policy.mark function = .unchecked ↔ function.name = "" := by
  rw [mark]
  split
  · simp [*]
  · split <;> simp [*]

/-! ## The lines for a contract -/

/-- The functions whose lines end in the words for a mark. -/
def marked (mark : Mark) (functions : List Tree.Function) (lines : List String) :
    List Tree.Function :=
  ((functions.zip lines).filter (mark.endsLine ·.2)).map (·.1)

theorem marked_functionLines (mark : Mark) (functions : List Tree.Function) :
    marked mark functions (functions.map policy.functionLine) =
      functions.filter (policy.mark · = mark) := by
  have own : functions.zip (functions.map policy.functionLine) =
      functions.map fun function => (function, policy.functionLine function) :=
    List.map_prod_left_eq_zip.symm
  have sameMark (function : Tree.Function) :
      mark.endsLine (policy.functionLine function) = decide (policy.mark function = mark) := by
    rw [Bool.eq_iff_iff, endsLine_functionLine, decide_eq_true_iff]
  rw [marked, own, List.filter_map, List.map_map]
  simp only [Function.comp_def, sameMark, List.map_id']

/-- The functions that miss a guard are the named ones that are not accepted. -/
theorem filter_missingGuard (contract : Tree.Contract) :
    contract.functions.filter (policy.mark · = .missingGuard) =
      contract.named.filter (!policy.accepts ·) := by
  rw [Tree.Contract.named, List.filter_filter]
  apply List.filter_congr
  intro function _
  rw [Bool.eq_iff_iff, decide_eq_true_iff, mark_eq_missingGuard_iff]
  simp [and_comm]

/-- The functions that are not checked are those without a name. -/
theorem filter_unchecked (contract : Tree.Contract) :
    contract.functions.filter (policy.mark · = .unchecked) =
      contract.functions.filter (· ∉ contract.named) := by
  apply List.filter_congr
  intro function member
  rw [decide_eq_decide, mark_eq_unchecked_iff, Tree.Contract.named, List.mem_filter]
  simp [member]

/-- How a summary shows the contract that the rule looks at. -/
structure Shows (policy : Policy) (path : String) (contract : Tree.Contract)
    (lines : List String) (found : List Violation) : Prop where
  /-- Each function has one line, which begins with what the function is called. -/
  each : List.Forall₂ (fun function line => ∃ rest,
    line = "  " ++ Text.padded 40 function.label ++ rest) contract.functions lines
  missingGuard : (marked .missingGuard contract.functions lines).map (fun function =>
    ⟨path, function.name, contract.name, function.position, function.exposure⟩) = found
  unchecked : marked .unchecked contract.functions lines =
    contract.functions.filter (· ∉ contract.named)

theorem shows_functionLines (policy : Policy) (path : String) (contract : Tree.Contract) :
    policy.Shows path contract (contract.functions.map policy.functionLine)
      (policy.violations path contract) where
  each := by
    rw [List.forall₂_map_right_iff, List.forall₂_same]
    exact fun function _ => policy.functionLine_front function
  missingGuard := by
    rw [marked_functionLines, filter_missingGuard]
    rfl
  unchecked := by rw [marked_functionLines, filter_unchecked]

theorem summary_split (policy : Policy) (file : String) {unit : Tree.SourceUnit}
    {earlier later : List Tree.Contract} {contract : Tree.Contract}
    (split : unit.contracts = earlier ++ contract :: later) :
    policy.summary file unit =
      ("Parsed: " ++ file) :: earlier.flatMap policy.contractLines ++
        contract.heading :: contract.functions.map policy.functionLine ++
        later.flatMap policy.contractLines := by
  rw [summary, split, List.flatMap_append, List.flatMap_cons, contractLines]
  simp only [List.cons_append, List.append_assoc]

end Policy

/-- The primary contract is the first one that is no interface and no library. -/
theorem Tree.SourceUnit.primary?_eq_some_of_split {unit : Tree.SourceUnit}
    {earlier later : List Tree.Contract} {contract : Tree.Contract}
    (split : unit.contracts = earlier ++ contract :: later) (isContract : contract.kind = .contract)
    (first : ∀ other ∈ earlier, other.kind ≠ .contract) : unit.primary? = some contract := by
  rw [primary?, split, List.find?_eq_some_iff_append]
  exact ⟨decide_eq_true isContract, earlier, later, rfl, by simpa using first⟩

/-- A summary of a file without errors shows what a check decides.  The check fails on no such
file, and without a contract that is no interface and no library it finds nothing.  Under the
first such contract each function has one line; the functions marked as missing a guard are, in
order, those of the violations, and the functions marked as unchecked are those that the check
leaves out. -/
theorem Policy.summary_shows_verdict [StackRoom] (policy : Policy) (path text : String)
    (unit : Tree.SourceUnit) (read : (Reading.ofSource path text).tree path = .ok unit) :
    (∀ system file, FileSystem.load system file = .ok ⟨path, text⟩ →
      (CommandLine.parse system policy file false).result =
        .ok (CommandLine.allGood, CommandLine.printed (policy.summary file unit))) ∧
    (policy.checkSource path text).failure = none ∧
    ((∀ contract ∈ unit.contracts, contract.kind ≠ .contract) →
      (policy.checkSource path text).violations = []) ∧
    ∀ earlier contract later, unit.contracts = earlier ++ contract :: later →
      contract.kind = .contract → (∀ other ∈ earlier, other.kind ≠ .contract) →
      ∃ lines,
        (∀ file, policy.summary file unit =
          ("Parsed: " ++ file) :: earlier.flatMap policy.contractLines ++
            contract.heading :: lines ++ later.flatMap policy.contractLines) ∧
        policy.Shows path contract lines (policy.checkSource path text).violations := by
  refine ⟨?_, ?_, ?_, ?_⟩
  · intro system file loaded
    rw [CommandLine.summary_result loaded, read]
    rfl
  · rw [checkSource, read]
    cases primary : unit.primary? <;> simp [primary]
  · intro none
    have primary : unit.primary? = Option.none :=
      List.find?_eq_none.2 fun contract member => by simpa using none contract member
    rw [checkSource, read]
    simp only [primary]
  · intro earlier contract later split isContract first
    have judged : HasPrimary path text contract :=
      ⟨unit, read, Tree.SourceUnit.primary?_eq_some_of_split split isContract first⟩
    rw [(policy.checkSource_of_hasPrimary judged).1]
    exact ⟨_, fun file => policy.summary_split file split, policy.shows_functionLines path contract⟩

/-! ## A sample -/

/-- An interface in front of a contract, which has a constructor, a function without a guard and one
with a guard. -/
def mixedSource : String :=
  "interface I \x7b function f(); \x7d\n" ++
    "contract A \x7b constructor() \x7b \x7d function f(); function g() guarded; \x7d"

/-- A function without anything in its header. -/
def plainFunction (name : String) (kind : Tree.FunctionKind) (hasBody : Bool)
    (position : Position) : Tree.Function :=
  ⟨name, kind, "", none, none, none, [], false, none, hasBody, position⟩

/-- The interface. -/
def mixedInterface : Tree.Contract :=
  ⟨"I", .interface, false, [], [.function (plainFunction "f" .function false ⟨1, 15⟩)], ⟨1, 1⟩⟩

/-- The contract. -/
def mixedContract : Tree.Contract :=
  ⟨"A", .contract, false, [],
    [.function (plainFunction "" .constructor true ⟨2, 14⟩),
     .function (plainFunction "f" .function false ⟨2, 32⟩),
     .function { plainFunction "g" .function false ⟨2, 46⟩ with
       modifiers := [⟨"guarded", none, ⟨2, 59⟩⟩] }], ⟨2, 1⟩⟩

open StackRoom in
/-- The function of the interface has no guard either, but only that of the contract is reported,
and it is the one marked under the contract. -/
theorem mixedSource_shown :
    (samplePolicy.checkSource "A.sol" mixedSource).violations.map (·.position) = [⟨2, 32⟩] ∧
      ∃ lines,
        samplePolicy.summary "./A.sol" ⟨"A.sol", [.contract mixedInterface,
            .contract mixedContract]⟩ =
          ["Parsed: ./A.sol", "interface I", samplePolicy.functionLine
            (plainFunction "f" .function false ⟨1, 15⟩), "contract A"] ++ lines ∧
        samplePolicy.Shows "A.sol" mixedContract lines
          (samplePolicy.checkSource "A.sol" mixedSource).violations := by
  have read : (Reading.ofSource "A.sol" mixedSource).tree "A.sol" =
      .ok ⟨"A.sol", [.contract mixedInterface, .contract mixedContract]⟩ := by decide +kernel
  obtain ⟨-, -, -, shown⟩ := samplePolicy.summary_shows_verdict _ _ _ read
  obtain ⟨lines, summary, shows⟩ := shown [mixedInterface] mixedContract [] rfl rfl (by decide)
  refine ⟨by decide +kernel, lines, ?_, shows⟩
  rw [summary]
  simp [Policy.contractLines, mixedInterface, mixedContract, Tree.Contract.heading,
    Tree.Contract.functions, Tree.ContractKind.word]

end Interlock
