import Interlock.Proofs.Body

/-!
# Moving tokens

Readers and parsers look at the kinds and texts of tokens and never at their
positions.  When the tokens are moved, by whatever function on positions, the
answer, the faults and what is left are the same up to that move.
-/

namespace Interlock

/-! ## Moved data -/

section Data

variable (move : Position → Position)

/-- A token at another position. -/
def Token.moved (token : Token) : Token := { token with position := move token.position }

@[simp] theorem Token.moved_kind (token : Token) : (token.moved move).kind = token.kind := rfl

@[simp] theorem Token.moved_text (token : Token) : (token.moved move).text = token.text := rfl

@[simp] theorem Token.moved_isWord (token : Token) (word : String) :
    (token.moved move).isWord word = token.isWord word := rfl

@[simp] theorem Token.moved_isDangling (token : Token) :
    (token.moved move).isDangling = token.isDangling := rfl

/-- A group of moved tokens. -/
def Group.moved (group : Group) : Group :=
  ⟨group.opener.moved move, group.inner.map (·.moved move), group.closer.moved move⟩

/-- An open bracket at another position. -/
def Group.Frame.moved (frame : Group.Frame) : Group.Frame :=
  { frame with opener := frame.opener.moved move }

/-- A problem whose tokens are moved. -/
def Problem.moved : Problem → Problem
  | .expectedKind kind found => .expectedKind kind (found.map (·.moved move))
  | .unclosedGroup shape opener => .unclosedGroup shape (opener.moved move)
  | .mismatchedCloser closer shape => .mismatchedCloser (closer.moved move) shape
  | problem => problem

theorem Problem.moved_eq_tooDeep (problem : Problem) :
    problem.moved move = .tooDeep ↔ problem = .tooDeep := by
  cases problem <;> simp [Problem.moved]

/-- A fault at a moved token. -/
def Fault.moved (fault : Fault) : Fault :=
  ⟨fault.problem.moved move, fault.token.map (·.moved move)⟩

namespace Tree

def Pragma.moved (node : Pragma) : Pragma := { node with position := move node.position }

def Import.moved (node : Import) : Import := { node with position := move node.position }

def Invocation.moved (node : Invocation) : Invocation :=
  { node with position := move node.position }

/-- The modifiers of a function are moved with it. -/
def Function.moved (node : Function) : Function :=
  { node with modifiers := node.modifiers.map (·.moved move), position := move node.position }

def Modifier.moved (node : Modifier) : Modifier := { node with position := move node.position }

def Event.moved (node : Event) : Event := { node with position := move node.position }

def Struct.moved (node : Struct) : Struct := { node with position := move node.position }

def Enum.moved (node : Enum) : Enum := { node with position := move node.position }

def UsingFor.moved (node : UsingFor) : UsingFor := { node with position := move node.position }

def Variable.moved (node : Variable) : Variable := { node with position := move node.position }

def Declaration.moved (node : Declaration) : Declaration :=
  { node with position := move node.position }

/-- A member at another position. -/
def Member.moved : Member → Member
  | .function node => .function (node.moved move)
  | .modifier node => .modifier (node.moved move)
  | .event node => .event (node.moved move)
  | .struct node => .struct (node.moved move)
  | .enum node => .enum (node.moved move)
  | .usingFor node => .usingFor (node.moved move)
  | .stateVariable node => .stateVariable (node.moved move)
  | .declaration node => .declaration (node.moved move)

/-- The members of a contract are moved with it. -/
def Contract.moved (node : Contract) : Contract :=
  { node with members := node.members.map (·.moved move), position := move node.position }

/-- An element at another position, with all that is in it. -/
def Element.moved : Element → Element
  | .pragma node => .pragma (node.moved move)
  | .importPath node => .importPath (node.moved move)
  | .contract node => .contract (node.moved move)
  | .member node => .member (node.moved move)

/-- A source unit whose elements are moved. -/
def SourceUnit.moved (unit : SourceUnit) : SourceUnit :=
  { unit with elements := unit.elements.map (·.moved move) }

end Tree

end Data

/-! ## Runs on changed states -/

section Carries

variable {ε σ α β : Type} {onState : σ → σ} {onFault : ε → ε}

/-- The end of a run with its answer, its fault and what is left changed. -/
def carried (onState : σ → σ) (onFault : ε → ε) (onValue : α → α) :
    EStateM.Result ε σ α → EStateM.Result ε σ α
  | .ok value after => .ok (onValue value) (onState after)
  | .error fault after => .error (onFault fault) (onState after)

@[simp] theorem carried_ok (onState : σ → σ) (onFault : ε → ε) (onValue : α → α) (value : α)
    (after : σ) :
    carried onState onFault onValue (.ok value after) = .ok (onValue value) (onState after) := rfl

@[simp] theorem carried_error (onState : σ → σ) (onFault : ε → ε) (onValue : α → α) (fault : ε)
    (after : σ) :
    carried onState onFault onValue (.error fault after) = .error (onFault fault) (onState after) :=
  rfl

/-- A change of states and answers carries the runs of one computation to the runs of
another. -/
def Carries (onState : σ → σ) (onFault : ε → ε) (onValue : α → α)
    (first second : EStateM ε σ α) : Prop :=
  ∀ before, second (onState before) = carried onState onFault onValue (first before)

/-- The change of the value inside a step. -/
def onStep (onValue : β → β) : ForInStep β → ForInStep β
  | .done value => .done (onValue value)
  | .yield value => .yield (onValue value)

namespace Carries

variable {onValue : α → α} {onResult : β → β} {first second : EStateM ε σ α}

theorem pure {value other : α} (same : other = onValue value) :
    Carries onState onFault onValue (pure value) (pure other) := by
  intro before
  rw [same]
  rfl

theorem bind {next other : α → EStateM ε σ β}
    (opening : Carries onState onFault onValue first second)
    (rest : ∀ value, Carries onState onFault onResult (next value) (other (onValue value))) :
    Carries onState onFault onResult (first >>= next) (second >>= other) := by
  intro before
  have opened := opening before
  cases run : first before with
  | ok value between =>
      rw [run] at opened
      rw [bind_of_ok run, bind_of_ok opened, rest value]
  | error fault after =>
      rw [run] at opened
      rw [bind_of_error run, bind_of_error opened]
      rfl

/-- Both take the same branch. -/
theorem ite {condition other : Prop} [Decidable condition] [Decidable other]
    {third fourth : EStateM ε σ α} (same : other ↔ condition)
    (yes : Carries onState onFault onValue first second)
    (no : Carries onState onFault onValue third fourth) :
    Carries onState onFault onValue (if condition then first else third)
      (if other then second else fourth) := by
  by_cases holds : condition
  · rw [if_pos holds, if_pos (same.2 holds)]
    exact yes
  · rw [if_neg holds, if_neg (fun holding => holds (same.1 holding))]
    exact no

theorem repeatSteps {size : σ → Nat} {step other : β → EStateM ε σ (ForInStep β)}
    (sizes : ∀ state, size (onState state) = size state)
    (steps : ∀ value, Carries onState onFault (onStep onResult) (step value)
      (other (onResult value))) (value : β) :
    Carries onState onFault onResult (repeatSteps size step value)
      (repeatSteps size other (onResult value)) := by
  intro before
  fun_induction Interlock.repeatSteps size step value before with
  | case1 value before fault left run =>
      have taken := steps value before
      rw [run] at taken
      rw [Interlock.repeatSteps, taken]
      rfl
  | case2 value before result left run =>
      have taken := steps value before
      rw [run] at taken
      rw [repeatSteps_of_done taken]
      rfl
  | case3 value before found left run smaller ih =>
      have taken := steps value before
      rw [run] at taken
      rw [repeatSteps_of_yield taken (by rwa [sizes, sizes]), ih]
  | case4 value before found left run stuck =>
      have taken := steps value before
      rw [run] at taken
      rw [Interlock.repeatSteps, taken]
      simp only [carried, onStep, sizes, stuck, if_false]

end Carries

end Carries

/-! ## Readers -/

namespace Reader

variable {α β : Type} {move : Position → Position}

/-- A reader on moved tokens runs as another one does on the tokens. -/
abbrev Moves (move : Position → Position) (onValue : α → α) (first second : Reader α) : Prop :=
  Carries (List.map (Token.moved move)) (Fault.moved move) onValue first second

theorem Moves.loop {onValue : β → β} {step other : β → Reader (ForInStep β)}
    (steps : ∀ value, Moves move (onStep onValue) (step value) (other (onValue value)))
    (value : β) : Moves move onValue (loop value step) (loop (onValue value) other) :=
  Carries.repeatSteps (fun _ => List.length_map _) steps value

theorem moves_current : Moves move (Option.map (·.moved move)) current current := by
  intro tokens
  cases tokens <;> rfl

theorem moves_peek (offset : Nat) :
    Moves move (Option.map (·.moved move)) (peek offset) (peek offset) := by
  intro tokens
  change EStateM.Result.ok _ _ = EStateM.Result.ok _ _
  rw [List.getElem?_map]

theorem moves_advance : Moves move (Option.map (·.moved move)) advance advance := by
  intro tokens
  cases tokens <;> rfl

theorem moves_atEnd : Moves move id atEnd atEnd := by
  intro tokens
  cases tokens <;> rfl

theorem moves_at? (kind : Token.Kind) : Moves move id (at? kind) (at? kind) := by
  intro tokens
  cases tokens <;> rfl

theorem moves_atWord? (word : String) : Moves move id (atWord? word) (atWord? word) := by
  intro tokens
  cases tokens <;> rfl

theorem moves_failAt {onValue : α → α} (problem : Problem) (token : Option Token) :
    Moves move onValue (failAt problem token)
      (failAt (problem.moved move) (token.map (·.moved move))) :=
  fun _ => rfl

theorem moves_fail {onValue : α → α} (problem : Problem) :
    Moves move onValue (fail problem) (fail (problem.moved move)) :=
  moves_current.bind fun token => moves_failAt problem token

theorem moves_front : Moves move (·.moved move) front front := by
  intro tokens
  cases tokens <;> rfl

theorem moves_expectElse (kind : Token.Kind) (problem : Problem) :
    Moves move (·.moved move) (expectElse kind problem)
      (expectElse kind (problem.moved move)) := by
  intro tokens
  cases tokens with
  | nil => rfl
  | cons token rest =>
      by_cases refused : (decide (token.kind = .endOfFile) || decide (token.kind ≠ kind)) = true
      · have failed : expectElse kind problem (token :: rest) =
            .error ⟨problem, some token⟩ (token :: rest) := if_pos refused
        rw [failed]
        exact if_pos refused
      · have taken : expectElse kind problem (token :: rest) = .ok token rest := if_neg refused
        rw [taken]
        exact if_neg refused

theorem moves_expectName (what : String) :
    Moves move (·.moved move) (expectName what) (expectName what) :=
  moves_expectElse .identifier (.expectedName what)

/-! ### Groups, statements and blocks -/

theorem moves_groupFrom (opener : Token) (frame : Group.Frame) (outer : List Group.Frame)
    (seen : List Token) :
    Moves move (Group.moved move) (groupFrom opener frame outer seen)
      (groupFrom (opener.moved move) (frame.moved move) (outer.map (·.moved move))
        (seen.map (·.moved move))) := by
  intro tokens
  induction tokens generalizing frame outer seen with
  | nil => rfl
  | cons token rest ih =>
      simp only [groupFrom, List.map_cons, Token.moved_kind]
      cases token.kind with
      | endOfFile => rfl
      | opening shape => exact ih ⟨shape, token⟩ (frame :: outer) (token :: seen)
      | closing shape =>
          by_cases answers : shape = frame.shape
          · simp only [Group.Frame.moved, answers, if_true]
            cases outer with
            | nil => simp only [List.map_nil, carried, Group.moved, List.map_reverse]
            | cons next below => exact ih next below (token :: seen)
          · simp only [Group.Frame.moved, answers, if_false]
            rfl
      | _ => exact ih frame outer (token :: seen)

theorem moves_group : Moves move (Group.moved move) group group := by
  intro tokens
  cases tokens with
  | nil => rfl
  | cons token rest =>
      simp only [group, List.map_cons, Token.moved_kind]
      cases token.kind with
      | opening shape => exact moves_groupFrom token ⟨shape, token⟩ [] [] rest
      | _ => rfl

theorem group_moved (move : Position → Position) (token : Token) (rest : List Token) :
    group (token.moved move :: rest.map (Token.moved move)) =
      carried (List.map (Token.moved move)) (Fault.moved move) (Group.moved move)
        (group (token :: rest)) :=
  moves_group (token :: rest)

theorem moved_tokens (result : Group) :
    (result.moved move).tokens = result.tokens.map (·.moved move) := by
  simp [Group.tokens, Group.moved]

/-- A statement goes on behind a group, or fails as the group does. -/
theorem statementFrom_of_opening {start : Option Token} {seen : List Token} (token : Token)
    (rest : List Token) {shape : Bracket} (opens : token.kind = .opening shape) :
    statementFrom start seen (token :: rest) =
      match group (token :: rest) with
      | .ok result left => statementFrom start (result.tokens.reverse ++ seen) left
      | .error fault left => .error fault left := by
  rw [statementFrom]
  simp only [opens]
  split <;> simp_all

theorem statementFrom_of_other {start : Option Token} {seen : List Token} (token : Token)
    (rest : List Token) (notEnd : token.kind ≠ .endOfFile) (notSemicolon : token.kind ≠ .semicolon)
    (notClosing : token.kind ≠ .closing .brace)
    (notOpening : ∀ shape, token.kind ≠ .opening shape) :
    statementFrom start seen (token :: rest) = statementFrom start (token :: seen) rest := by
  rw [statementFrom]
  split <;> simp_all

theorem moves_statementFrom (start : Option Token) (seen : List Token) :
    Moves move (List.map (·.moved move)) (statementFrom start seen)
      (statementFrom (start.map (·.moved move)) (seen.map (·.moved move))) := by
  intro tokens
  fun_induction statementFrom start seen tokens with
  | case1 =>
      rw [List.map_nil, statementFrom]
      rfl
  | case2 seen token rest isEnd =>
      rw [List.map_cons, statementFrom]
      simp only [Token.moved_kind, isEnd]
      rfl
  | case3 seen token rest ends =>
      rw [List.map_cons, statementFrom]
      simp only [Token.moved_kind, ends, carried_ok, List.map_reverse]
  | case4 seen token rest closes =>
      rw [List.map_cons, statementFrom]
      simp only [Token.moved_kind, closes]
      rfl
  | case5 seen token rest shape opens result left read ih =>
      rw [List.map_cons, statementFrom_of_opening (token.moved move) _ opens, group_moved, read]
      simp only [carried_ok, moved_tokens]
      rw [← ih, List.map_append, List.map_reverse]
  | case6 seen token rest shape opens fault left read =>
      rw [List.map_cons, statementFrom_of_opening (token.moved move) _ opens, group_moved, read]
      rfl
  | case7 seen token rest notEnd notSemicolon notClosing notOpening ih =>
      rw [List.map_cons, statementFrom_of_other (token.moved move) _ notEnd notSemicolon notClosing
        notOpening]
      exact ih

theorem moves_statement : Moves move (List.map (·.moved move)) statement statement := by
  intro tokens
  rw [statement, statement, List.head?_map]
  exact moves_statementFrom tokens.head? [] tokens

theorem assembly_of_brace (token : Token) (rest : List Token)
    (opens : token.kind = .opening .brace) :
    assembly (token :: rest) =
      match group (token :: rest) with
      | .ok _ left => .ok () left
      | .error fault left => .error fault left := by
  rw [assembly]
  split
  next isEnd => simp [opens] at isEnd
  next => rfl
  next paren => simp [opens] at paren
  next notBrace _ => exact absurd opens notBrace

theorem assembly_of_paren (token : Token) (rest : List Token)
    (opens : token.kind = .opening .paren) :
    assembly (token :: rest) =
      match group (token :: rest) with
      | .ok _ left => assembly left
      | .error fault left => .error fault left := by
  rw [assembly]
  simp only [opens]
  split <;> simp_all

theorem moves_assembly : Moves move id (assembly : Reader Unit) assembly := by
  intro tokens
  fun_induction assembly tokens with
  | case1 =>
      rw [List.map_nil, assembly]
      rfl
  | case2 token rest isEnd =>
      rw [List.map_cons, assembly]
      simp only [Token.moved_kind, isEnd]
      rfl
  | case3 token rest opens result left read =>
      rw [List.map_cons, assembly_of_brace (token.moved move) _ opens, group_moved, read]
      rfl
  | case4 token rest opens fault left read =>
      rw [List.map_cons, assembly_of_brace (token.moved move) _ opens, group_moved, read]
      rfl
  | case5 token rest opens result left read ih =>
      rw [List.map_cons, assembly_of_paren (token.moved move) _ opens, group_moved, read]
      exact ih
  | case6 token rest opens fault left read =>
      rw [List.map_cons, assembly_of_paren (token.moved move) _ opens, group_moved, read]
      rfl
  | case7 token rest notEnd notBrace notParen ih =>
      rw [List.map_cons, assembly_flag]
      · exact ih
      · exact notEnd
      · exact notBrace
      · exact notParen

theorem blockFrom_of_group {limit depth : Nat} {pending : Option Token} (token : Token)
    (rest : List Token) {shape : Bracket} (opens : token.kind = .opening shape)
    (notBrace : shape ≠ .brace) :
    blockFrom limit depth pending (token :: rest) =
      match group (token :: rest) with
      | .ok result left => blockFrom limit depth (some result.closer) left
      | .error fault left => .error fault left := by
  rw [blockFrom.eq_def]
  cases shape <;> simp only [opens] <;> first | contradiction | (split <;> simp_all)

theorem blockFrom_of_assembly {limit depth : Nat} (token : Token) (rest : List Token)
    (word : token.isWord "assembly") :
    blockFrom limit depth none (token :: rest) =
      match assembly rest with
      | .ok _ left => blockFrom limit depth none left
      | .error fault left => .error fault left := by
  have kind : token.kind = .identifier := by
    simp only [Token.isWord, Bool.and_eq_true, decide_eq_true_eq] at word
    exact word.1
  rw [blockFrom.eq_def]
  simp only [kind, word, Option.isNone_none, Bool.and_self, if_true]
  split <;> simp_all

/-- Whether the statement at hand lacks an operand does not change with a move. -/
theorem filter_isDangling_moved (pending : Option Token) :
    (pending.map (·.moved move)).filter (·.isDangling) =
      (pending.filter (·.isDangling)).map (·.moved move) := by
  cases pending with
  | none => rfl
  | some last =>
      rw [Option.map_some, Option.filter_some, Option.filter_some, Token.moved_isDangling]
      cases last.isDangling <;> rfl

theorem moves_blockFrom (limit depth : Nat) (pending : Option Token) :
    Moves move id (blockFrom limit depth pending : Reader Unit)
      (blockFrom limit depth (pending.map (·.moved move))) := by
  intro tokens
  fun_induction blockFrom limit depth pending tokens with
  | case1 =>
      rw [List.map_nil, blockFrom]
      rfl
  | case2 depth pending token rest isEnd =>
      rw [List.map_cons, blockFrom.eq_def]
      simp only [Token.moved_kind, isEnd]
      rfl
  | case3 depth token rest closes last =>
      rw [List.map_cons, blockFrom.eq_def]
      simp only [Token.moved_kind, closes]
      rfl
  | case4 token rest closes =>
      rw [List.map_cons, Option.map_none, blockFrom_close]
      · rfl
      · exact closes
  | case5 token rest closes depth ih =>
      rw [List.map_cons, Option.map_none, blockFrom_close]
      · exact ih
      · exact closes
  | case6 depth pending token rest shape notBrace closes =>
      rw [List.map_cons, blockFrom.eq_def]
      cases shape with
      | brace => exact absurd rfl notBrace
      | _ =>
          simp only [Token.moved_kind, closes]
          rfl
  | case7 depth pending token rest opens room ih =>
      rw [List.map_cons, blockFrom_open]
      · exact ih
      · exact opens
      · exact room
  | case8 depth pending token rest opens noRoom =>
      rw [List.map_cons, blockFrom_tooDeep]
      · rfl
      · exact opens
      · exact noRoom
  | case9 depth pending token rest shape notBrace opens result left read ih =>
      rw [List.map_cons, blockFrom_of_group (token.moved move) _ opens notBrace, group_moved, read]
      exact ih
  | case10 depth pending token rest shape notBrace opens fault left read =>
      rw [List.map_cons, blockFrom_of_group (token.moved move) _ opens notBrace, group_moved, read]
      rfl
  | case11 depth pending token rest ends last dangling =>
      rw [List.map_cons, blockFrom.eq_def]
      simp only [Token.moved_kind, ends, filter_isDangling_moved, dangling]
      rfl
  | case12 depth pending token rest ends settled ih =>
      rw [List.map_cons, blockFrom_semicolon]
      · exact ih
      · exact ends
      · rw [filter_isDangling_moved, settled]
        rfl
  | case13 depth pending token rest isAssembly _ left read _ _ _ _ _ _ ih =>
      simp only [Bool.and_eq_true, Option.isNone_iff_eq_none] at isAssembly
      obtain ⟨rfl, word⟩ := isAssembly
      have again : assembly (rest.map (Token.moved move)) = _ := moves_assembly rest
      rw [List.map_cons, Option.map_none, blockFrom_of_assembly (token.moved move) _ word, again,
        read]
      exact ih
  | case14 depth pending token rest isAssembly fault left read =>
      simp only [Bool.and_eq_true, Option.isNone_iff_eq_none] at isAssembly
      obtain ⟨rfl, word⟩ := isAssembly
      have again : assembly (rest.map (Token.moved move)) = _ := moves_assembly rest
      rw [List.map_cons, Option.map_none, blockFrom_of_assembly (token.moved move) _ word, again,
        read]
      rfl
  | case15 depth pending token rest notAssembly notEnd _ notClosing _ notOpening notSemicolon
      ih =>
      have plain : token.kind.isPlain := Token.Kind.isPlain_of_ne notEnd notOpening notClosing
      rw [List.map_cons, blockFrom_token]
      · exact ih
      · exact plain
      · exact notSemicolon
      · rwa [Option.isNone_map]

theorem moves_block (limit : Nat) : Moves move id (block limit) (block limit) :=
  (moves_expectElse _ .expectedBlock).bind fun _ => moves_blockFrom limit 0 none

end Reader

end Interlock
