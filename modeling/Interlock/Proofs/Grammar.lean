import Interlock.Proofs.Acceptance

/-!
# The grammar of blocks

A block is a sequence of statements in braces.  A statement ends in a semicolon, in a
block of its own, or it is inline assembly:

    block     ::= { statement* }
    statement ::= term* ;  |  term* block  |  assembly head body

A term is a group in parentheses or square brackets, or a token that is neither a
bracket nor a semicolon.  The reader of blocks keeps a counter of open blocks and the
last token of the statement at hand; here it is shown to read exactly the blocks of
this grammar that nest within its limit, each up to its own last token.  The grammar
knows no limit, so a block that nests deeper is derived and is not read.
-/

namespace Interlock

theorem Group.getLast?_tokens (group : Group) : group.tokens.getLast? = some group.closer :=
  List.getLast?_concat ..

namespace Grammar

/-- What stands in a statement in front of its semicolon or its block. -/
inductive Terms : List Token → Prop where
  | nil : Terms []
  | token {token : Token} {rest : List Token} :
      token.kind.isPlain → token.kind ≠ .semicolon → Terms rest → Terms (token :: rest)
  | group {shape : Bracket} {group : Group} {rest : List Token} :
      shape ≠ .brace → group.Encloses shape → Terms rest → Terms (group.tokens ++ rest)

theorem Terms.append {first second : List Token} (left : Terms first) (right : Terms second) :
    Terms (first ++ second) := by
  induction left with
  | nil => exact right
  | token plain notSemicolon _ ih => exact .token plain notSemicolon ih
  | group notBrace encloses _ ih =>
      rw [List.append_assoc]
      exact .group notBrace encloses ih

theorem Terms.of_group {shape : Bracket} {group : Group} (notBrace : shape ≠ .brace)
    (encloses : group.Encloses shape) : Terms group.tokens := by
  rw [← List.append_nil group.tokens]
  exact .group notBrace encloses .nil

/-- Whether tokens begin with the word that announces inline assembly. -/
def AnnouncesAssembly (tokens : List Token) : Prop :=
  ∃ token ∈ tokens.head?, token.isWord "assembly"

/-- Whether tokens end on an operator that lacks its operand. -/
def Dangles (tokens : List Token) : Prop :=
  ∃ token ∈ tokens.getLast?, token.isDangling

theorem not_announcesAssembly_nil : ¬ AnnouncesAssembly [] := by
  rintro ⟨_, ⟨⟩, -⟩

theorem AnnouncesAssembly.append {first : List Token} (announces : AnnouncesAssembly first)
    (second : List Token) : AnnouncesAssembly (first ++ second) := by
  cases first with
  | nil => exact absurd announces not_announcesAssembly_nil
  | cons token first => exact announces

/-- Only the first token announces inline assembly. -/
theorem AnnouncesAssembly.of_append {first second : List Token}
    (announces : AnnouncesAssembly (first ++ second)) (apart : ¬ AnnouncesAssembly first) :
    first = [] ∧ AnnouncesAssembly second := by
  cases first with
  | nil => exact ⟨rfl, announces⟩
  | cons token first => exact absurd announces apart

inductive Symbol where
  | block
  | statement
  | statements
  deriving DecidableEq, Repr

/-- The token lists that a symbol of the grammar stands for, where blocks are nested at most `room`
deep inside. -/
inductive Derives : Nat → Symbol → List Token → Prop where
  | block {room : Nat} {opener closer : Token} {body : List Token} :
      opener.kind = .opening .brace → Derives room .statements body →
      closer.kind = .closing .brace → Derives room .block (opener :: (body ++ [closer]))
  | simple {room : Nat} {terms : List Token} {semicolon : Token} :
      Terms terms → ¬ AnnouncesAssembly terms → ¬ Dangles terms →
      semicolon.kind = .semicolon → Derives room .statement (terms ++ [semicolon])
  | nested {room : Nat} {terms block : List Token} :
      Terms terms → ¬ AnnouncesAssembly terms → Derives room .block block →
      Derives (room + 1) .statement (terms ++ block)
  | assembly {room : Nat} {word : Token} {loose head : List Token} {body : Group} :
      word.isWord "assembly" → AssemblyHead loose head → body.Encloses .brace →
      Derives room .statement (word :: (head ++ body.tokens))
  | none {room : Nat} : Derives room .statements []
  | some {room : Nat} {first rest : List Token} :
      Derives room .statement first → Derives room .statements rest →
      Derives room .statements (first ++ rest)

/-- The token lists that a symbol stands for, however deep blocks are nested. -/
def Derivable (symbol : Symbol) (tokens : List Token) : Prop := ∃ room, Derives room symbol tokens

/-- Tokens of a block up to a brace that nests deeper than `room`: whole statements, then the terms
of one more, then the brace of its block and so on inside. -/
inductive Sinks : Nat → List Token → Prop where
  | last {body terms : List Token} {opener : Token} :
      Derives 0 .statements body → Terms terms → ¬ AnnouncesAssembly terms →
      opener.kind = .opening .brace → Sinks 0 (body ++ (terms ++ [opener]))
  | next {room : Nat} {body terms rest : List Token} {opener : Token} :
      Derives (room + 1) .statements body → Terms terms → ¬ AnnouncesAssembly terms →
      opener.kind = .opening .brace → Sinks room rest →
      Sinks (room + 1) (body ++ (terms ++ opener :: rest))

theorem Sinks.prepend {room : Nat} {first tokens : List Token}
    (statement : Derives room .statement first) (sinks : Sinks room tokens) :
    Sinks room (first ++ tokens) := by
  cases sinks with
  | last statements reads notAssembly opens =>
      rw [← List.append_assoc]
      exact .last (.some statement statements) reads notAssembly opens
  | next statements reads notAssembly opens further =>
      rw [← List.append_assoc]
      exact .next (.some statement statements) reads notAssembly opens further

/-- How many braces are opened among some tokens. -/
def braces (tokens : List Token) : Nat := tokens.countP (·.kind = .opening .brace)

/-- Every level takes a brace. -/
theorem Sinks.lt_braces {room : Nat} {tokens : List Token} (sinks : Sinks room tokens) :
    room < braces tokens := by
  induction sinks with
  | last _ _ _ opens =>
      simp only [braces, List.countP_append, List.countP_singleton, opens, decide_true, if_true]
      omega
  | next _ _ _ opens _ ih =>
      rw [braces] at ih
      simp only [braces, List.countP_append, List.countP_cons, opens, decide_true, if_true]
      omega

/-- The front of a block up to a brace that nests deeper in it than `room`. -/
def Deepens (room : Nat) (tokens : List Token) : Prop :=
  ∃ opener rest, tokens = opener :: rest ∧ opener.kind = .opening .brace ∧ Sinks room rest

theorem Deepens.lt_braces {room : Nat} {tokens : List Token} (deepens : Deepens room tokens) :
    room < braces tokens := by
  obtain ⟨opener, rest, rfl, -, sinks⟩ := deepens
  exact sinks.lt_braces.trans_le (List.sublist_cons_self opener rest).countP_le

/-- Some front of what a symbol stands for nests deeper than `room`. -/
def Exceeds (room : Nat) (symbol : Symbol) (tokens : List Token) : Prop :=
  ∃ front, front <+: tokens ∧ if symbol = .block then Deepens room front else Sinks room front

/-- What is derived is derived within `room`, or it exceeds it. -/
theorem Derives.within_or_exceeds {room : Nat} {symbol : Symbol} {tokens : List Token}
    (derived : Derives room symbol tokens) (limit : Nat) :
    Derives limit symbol tokens ∨ Exceeds limit symbol tokens := by
  induction derived generalizing limit with
  | @block _ opener closer body opens _ closes ih =>
      refine (ih limit).imp (fun within => .block opens within closes) ?_
      rintro ⟨front, ⟨left, rfl⟩, sinks⟩
      exact ⟨opener :: front, ⟨left ++ [closer], by simp⟩, opener, front, rfl, opens, sinks⟩
  | simple reads notAssembly complete ends => exact .inl (.simple reads notAssembly complete ends)
  | @nested _ terms block reads notAssembly derived ih =>
      cases limit with
      | zero =>
          obtain @⟨_, opener, closer, body, opens, -, -⟩ := derived
          have front : terms ++ [opener] <+: terms ++ opener :: (body ++ [closer]) :=
            ⟨body ++ [closer], by simp⟩
          exact .inr ⟨_, front, .last .none reads notAssembly opens⟩
      | succ limit =>
          refine (ih limit).imp (.nested reads notAssembly) ?_
          rintro ⟨_, ⟨left, rfl⟩, opener, rest, rfl, opens, sinks⟩
          have front : terms ++ opener :: rest <+: terms ++ (opener :: rest ++ left) :=
            ⟨left, by simp⟩
          exact ⟨_, front, .next .none reads notAssembly opens sinks⟩
  | assembly isWord reads encloses => exact .inl (.assembly isWord reads encloses)
  | none => exact .inl .none
  | @some _ first rest _ _ firstIH restIH =>
      rcases firstIH limit with statement | ⟨front, within, sinks⟩
      · refine (restIH limit).imp (.some statement) ?_
        rintro ⟨front, within, sinks⟩
        exact ⟨first ++ front, (List.prefix_append_right_inj first).2 within,
          sinks.prepend statement⟩
      · exact .inr ⟨front, within.trans (List.prefix_append first rest), sinks⟩

end Grammar

namespace Reader

open Grammar

/-- Whether the stack has no room for a run. -/
def LacksRoom (result : EStateM.Result Fault (List Token) Unit) : Prop :=
  ∃ token left, result = .error ⟨.tooDeep, token⟩ left

/-! ## What is derived is read -/

section Derived

variable {limit depth : Nat} {pending : Option Token}

/-- Terms leave the last of their tokens pending. -/
theorem blockFrom_terms {terms : List Token} (reads : Terms terms)
    (within : pending = none → ¬ AnnouncesAssembly terms) (rest : List Token) :
    blockFrom limit depth pending (terms ++ rest) =
      blockFrom limit depth (terms.getLast?.or pending) rest := by
  induction reads generalizing pending with
  | nil => rfl
  | @token token terms plain notSemicolon _ ih =>
      have notAssembly : ¬ (pending.isNone && token.isWord "assembly") := by
        rw [Bool.and_eq_true, Option.isNone_iff_eq_none]
        rintro ⟨isNone, isWord⟩
        exact within isNone ⟨token, rfl, isWord⟩
      have behind := @ih (some token) (fun isNone => nomatch isNone)
      rw [List.cons_append, blockFrom_token plain notSemicolon notAssembly, behind]
      cases last : terms.getLast? <;> simp [List.getLast?_cons, last]
  | @group shape group terms notBrace encloses _ ih =>
      have behind := @ih (some group.closer) (fun isNone => nomatch isNone)
      have read := group_of_encloses encloses (terms ++ rest)
      rw [List.append_assoc]
      refine (blockFrom_group encloses.opens notBrace read).trans (behind.trans ?_)
      rw [List.getLast?_append, group.getLast?_tokens, Option.or_assoc, Option.some_or]

theorem assembly_of_head {loose head : List Token} {body : Group}
    (reads : AssemblyHead loose head) (encloses : body.Encloses .brace) (rest : List Token) :
    assembly (head ++ (body.tokens ++ rest)) = .ok () rest := by
  induction reads with
  | nil => exact assembly_brace encloses.opens (group_of_encloses encloses rest)
  | @plain token _ _ plain _ ih =>
      rw [List.cons_append, assembly_flag, ih] <;> intro kind <;> rw [kind] at plain <;> cases plain
  | group flag _ ih =>
      rw [List.append_assoc]
      exact (assembly_paren flag.opens (group_of_encloses flag _)).trans ih
  | @loose token _ _ isLoose _ ih =>
      rw [List.cons_append, assembly_flag, ih] <;>
        rcases isLoose with kind | ⟨shape, kind⟩ <;> simp [kind]

/-- What is derived within the room that is left is passed over: a block behind whatever is pending
but one level deeper, a statement where nothing is. -/
theorem blockFrom_derived {room : Nat} {symbol : Symbol} {tokens : List Token}
    (derived : Derives room symbol tokens) (depth : Nat) {pending : Option Token}
    (settled : symbol = .block ∨ pending = none)
    (fits : (if symbol = .block then room + 1 else room) + depth ≤ limit) (rest : List Token) :
    blockFrom limit depth pending (tokens ++ rest) = blockFrom limit depth none rest := by
  induction derived generalizing depth pending rest with
  | @block room opener closer body opens _ closes ih =>
      have fits : room + 1 + depth ≤ limit := fits
      have deeper : room + (depth + 1) ≤ limit := by omega
      rw [List.cons_append, blockFrom_open opens (by omega), List.append_assoc,
        ih _ (.inr rfl) deeper]
      exact blockFrom_close closes
  | @simple _ terms semicolon reads notAssembly complete ends =>
      obtain rfl := settled.resolve_left nofun
      rw [List.append_assoc, blockFrom_terms reads fun _ => notAssembly]
      apply blockFrom_semicolon ends
      rw [Option.or_none, Option.filter_eq_none_iff]
      exact fun token isLast dangling => complete ⟨token, isLast, dangling⟩
  | nested reads notAssembly _ ih =>
      obtain rfl := settled.resolve_left nofun
      rw [List.append_assoc, blockFrom_terms reads fun _ => notAssembly]
      exact ih depth (.inl rfl) fits rest
  | assembly isWord reads encloses =>
      obtain rfl := settled.resolve_left nofun
      rw [List.cons_append, List.append_assoc]
      exact blockFrom_assembly isWord (assembly_of_head reads encloses rest)
  | none =>
      obtain rfl := settled.resolve_left nofun
      rfl
  | some _ _ firstIH restIH =>
      obtain rfl := settled.resolve_left nofun
      rw [List.append_assoc, firstIH _ (.inr rfl) fits, restIH _ (.inr rfl) fits]

/-- Where tokens sink deeper than the room that is left, the stack has no room for a block. -/
theorem blockFrom_sinks {room : Nat} {tokens : List Token} (sinks : Sinks room tokens)
    (same : room + depth = limit) (rest : List Token) :
    LacksRoom (blockFrom limit depth none (tokens ++ rest)) := by
  induction sinks generalizing depth with
  | @last body terms opener statements reads notAssembly opens =>
      have full : ¬ depth < limit := by omega
      rw [List.append_assoc, blockFrom_derived statements depth (.inr rfl) same.le,
        List.append_assoc, blockFrom_terms reads fun _ => notAssembly]
      exact ⟨_, _, blockFrom_tooDeep opens full⟩
  | @next room body terms inner opener statements reads notAssembly opens _ ih =>
      have deeper : room + (depth + 1) = limit := by omega
      have room : depth < limit := by omega
      rw [List.append_assoc, blockFrom_derived statements depth (.inr rfl) same.le,
        List.append_assoc, blockFrom_terms reads fun _ => notAssembly, List.cons_append,
        blockFrom_open opens room]
      exact ih deeper

end Derived

section Block

variable {limit : Nat} {opener : Token} {taken tokens : List Token}

theorem block_of_opening (opens : opener.kind = .opening .brace) :
    block limit (opener :: tokens) = blockFrom limit 0 none tokens :=
  bind_of_ok (expectElse_eq_ok_iff.2 ⟨rfl, by simp [opens], opens⟩)

theorem block_of_derived {room : Nat} (derived : Derives room .block taken) (fits : room ≤ limit)
    (rest : List Token) : block limit (taken ++ rest) = .ok () rest := by
  cases derived with
  | @block _ opener closer body opens statements closes =>
      rw [List.cons_append, block_of_opening opens, List.append_assoc,
        blockFrom_derived statements 0 (.inr rfl) fits]
      exact blockFrom_close closes

theorem block_of_deepens (deepens : Deepens limit taken) (rest : List Token) :
    LacksRoom (block limit (taken ++ rest)) := by
  obtain ⟨opener, inside, rfl, opens, sinks⟩ := deepens
  rw [List.cons_append, block_of_opening opens]
  exact blockFrom_sinks sinks (Nat.add_zero limit) rest

end Block

/-! ## What is read is derived -/

/-- How a run inside a block may end, apart from faults of the source. -/
inductive Course where
  | finished
  | sunk
  deriving DecidableEq, Repr

/-- The tokens that a run takes with some blocks open around it and some room left.  It closes each
of them behind its statements, or it sinks on the way. -/
inductive Course.Takes : Course → Nat → Nat → List Token → Prop where
  | last {room : Nat} {body : List Token} {closer : Token} :
      Derives room .statements body → closer.kind = .closing .brace →
      Takes .finished room 0 (body ++ [closer])
  | sunk {room depth : Nat} {tokens : List Token} :
      Sinks room tokens → Takes .sunk room depth tokens
  | next {course : Course} {room depth : Nat} {body rest : List Token} {closer : Token} :
      Derives room .statements body → closer.kind = .closing .brace →
      Takes course (room + 1) depth rest →
      Takes course room (depth + 1) (body ++ closer :: rest)

namespace Course.Takes

variable {course : Course} {room depth : Nat}

theorem prepend {first tokens : List Token} (statement : Derives room .statement first)
    (takes : course.Takes room depth tokens) : course.Takes room depth (first ++ tokens) := by
  cases takes with
  | last statements closes =>
      rw [← List.append_assoc]
      exact .last (.some statement statements) closes
  | sunk sinks => exact .sunk (sinks.prepend statement)
  | next statements closes further =>
      rw [← List.append_assoc]
      exact .next (.some statement statements) closes further

/-- An opening brace is answered by the first closing one, and the block between them ends the
statement at hand.  If there is none, the run sinks inside. -/
theorem enter {terms tokens : List Token} {opener : Token} (reads : Terms terms)
    (notAssembly : ¬ AnnouncesAssembly terms) (opens : opener.kind = .opening .brace)
    (takes : course.Takes room (depth + 1) tokens) :
    course.Takes (room + 1) depth (terms ++ opener :: tokens) := by
  cases takes with
  | sunk sinks => exact .sunk (.next .none reads notAssembly opens sinks)
  | @next _ _ _ body rest closer statements closes further =>
      have statement := Derives.nested reads notAssembly (.block opens statements closes)
      simpa using further.prepend statement

/-- A statement that is begun afresh has no terms yet. -/
theorem afresh {taken : List Token}
    (further : ∀ terms, Terms terms → terms.getLast? = none → ¬ AnnouncesAssembly terms →
      course.Takes room depth (terms ++ taken)) : course.Takes room depth taken :=
  further [] .nil rfl not_announcesAssembly_nil

end Course.Takes

/-- How a run has ended, and what is left behind its course: the brace that it sinks with belongs to
the course. -/
inductive Course.Ends : Course → List Token → EStateM.Result Fault (List Token) Unit → Prop where
  | finished {left : List Token} : Ends .finished left (.ok () left)
  | sunk {token : Option Token} {after : List Token} :
      Ends .sunk after.tail (.error ⟨.tooDeep, token⟩ after)

theorem Course.Ends.tooDeep {course : Course} {left after : List Token} {fault : Fault}
    (ends : course.Ends left (.error fault after)) : fault.problem = .tooDeep := by
  cases ends
  rfl

/-- A run inside a block takes the tokens of its course, whatever terms of the statement at hand it
has passed. -/
theorem takes_of_blockFrom {limit depth room : Nat} {pending : Option Token}
    {tokens left : List Token} {course : Course} (same : room + depth = limit)
    (ends : course.Ends left (blockFrom limit depth pending tokens)) :
    ∃ taken, tokens = taken ++ left ∧ ∀ terms, Terms terms → terms.getLast? = pending →
      ¬ AnnouncesAssembly terms → course.Takes room depth (terms ++ taken) := by
  fun_induction blockFrom limit depth pending tokens generalizing room with
  | case1 => cases ends
  | case2 => cases ends
  | case3 => cases ends
  | case4 token rest closes =>
      cases ends
      refine ⟨[token], rfl, fun terms _ isLast _ => ?_⟩
      rw [List.getLast?_eq_none_iff.1 isLast]
      exact .last .none closes
  | case5 token rest closes depth ih =>
      have outside : room + 1 + depth = limit := by omega
      obtain ⟨taken, rfl, further⟩ := ih outside ends
      refine ⟨token :: taken, rfl, fun terms _ isLast notAssembly => ?_⟩
      rw [List.getLast?_eq_none_iff.1 isLast]
      exact .next .none closes (.afresh further)
  | case6 => cases ends
  | case7 depth pending token rest opens below ih =>
      obtain ⟨inside, rfl⟩ : ∃ inside, room = inside + 1 := ⟨room - 1, by omega⟩
      have deeper : inside + (depth + 1) = limit := by omega
      obtain ⟨taken, rfl, further⟩ := ih deeper ends
      refine ⟨token :: taken, rfl, fun terms reads _ notAssembly => ?_⟩
      exact .enter reads notAssembly opens (.afresh further)
  | case8 depth pending token rest opens full =>
      obtain rfl : room = 0 := by omega
      cases ends
      refine ⟨[token], rfl, fun terms reads _ notAssembly => ?_⟩
      exact .sunk (.last .none reads notAssembly opens)
  | case9 depth pending token rest shape notBrace opens result between read ih =>
      obtain ⟨encloses, split⟩ := group_encloses_of_opening opens read
      obtain ⟨taken, rfl, further⟩ := ih same ends
      refine ⟨result.tokens ++ taken, by simpa using split, fun terms reads _ notAssembly => ?_⟩
      rw [← List.append_assoc]
      refine further _ (reads.append (.of_group notBrace encloses)) ?_ fun announces => ?_
      · rw [List.getLast?_append, result.getLast?_tokens, Option.some_or]
      obtain ⟨-, first, same, isWord⟩ := announces.of_append notAssembly
      cases same
      have plain := Token.isPlain_of_isWord isWord
      rw [encloses.opens] at plain
      cases plain
  | case10 depth pending token rest shape notBrace opens fault after read =>
      exact absurd ends.tooDeep (sourced_group read).2
  | case11 => cases ends
  | case12 depth pending token rest isEnd settled ih =>
      obtain ⟨taken, rfl, further⟩ := ih same ends
      refine ⟨token :: taken, rfl, fun terms reads isLast notAssembly => ?_⟩
      have complete : ¬ Dangles terms := by
        rintro ⟨last, found, dangling⟩
        rw [isLast] at found
        exact Option.filter_eq_none_iff.1 settled last found dangling
      simpa using (Course.Takes.afresh further).prepend (.simple reads notAssembly complete isEnd)
  | case13 depth pending token rest isAssembly _ between read _ _ _ _ _ _ ih =>
      rw [Bool.and_eq_true, Option.isNone_iff_eq_none] at isAssembly
      obtain ⟨flags, head, body, reads, encloses, rfl⟩ := assembly_split read
      obtain ⟨taken, rfl, further⟩ := ih same ends
      refine ⟨token :: (head ++ body.tokens) ++ taken, by simp, fun terms _ isLast _ => ?_⟩
      rw [isAssembly.1, List.getLast?_eq_none_iff] at isLast
      rw [isLast, List.nil_append]
      exact (Course.Takes.afresh further).prepend (.assembly isAssembly.2 reads encloses)
  | case14 depth pending token rest isAssembly fault after read =>
      exact absurd ends.tooDeep (sourced_assembly read).2
  | case15 depth pending token rest notAssembly notEnd _ notClosing _ notOpening notSemicolon
      ih =>
      obtain ⟨taken, rfl, further⟩ := ih same ends
      have plain : token.kind.isPlain := Token.Kind.isPlain_of_ne notEnd notOpening notClosing
      refine ⟨token :: taken, rfl, fun terms reads isLast apart => ?_⟩
      rw [List.append_cons]
      refine further _ (reads.append (.token plain notSemicolon .nil)) (by simp)
        fun announces => notAssembly ?_
      obtain ⟨rfl, first, found, isWord⟩ := announces.of_append apart
      cases found
      rw [← isLast, isWord]
      rfl

section Block

variable {limit : Nat} {tokens left : List Token}

/-- The reader of blocks answers exactly where the grammar derives a block at the front that nests
within the limit. -/
theorem block_eq_ok_iff :
    block limit tokens = .ok () left ↔
      ∃ taken, Derives limit .block taken ∧ tokens = taken ++ left := by
  constructor
  · intro run
    obtain ⟨opener, between, opened, inside⟩ := bind_eq_ok_iff.1 run
    obtain ⟨rfl, -, opens⟩ := expectElse_eq_ok_iff.1 opened
    obtain ⟨taken, rfl, takes⟩ := takes_of_blockFrom (Nat.add_zero limit)
      (inside ▸ Course.Ends.finished)
    cases Course.Takes.afresh takes with
    | last statements closes => exact ⟨_, .block opens statements closes, rfl⟩
  · rintro ⟨taken, derived, rfl⟩
    exact block_of_derived derived le_rfl left

/-- The stack has no room for a block exactly where one at the front nests deeper than the limit. -/
theorem block_tooDeep_iff :
    LacksRoom (block limit tokens) ↔ ∃ front, Deepens limit front ∧ front <+: tokens := by
  constructor
  · rintro ⟨place, left, run⟩
    rcases bind_eq_error_iff.1 run with failed | ⟨opener, between, opened, inside⟩
    · exact absurd rfl ((sourced_expectElse _ (by simp)) failed).2
    · obtain ⟨rfl, -, opens⟩ := expectElse_eq_ok_iff.1 opened
      obtain ⟨taken, rfl, takes⟩ := takes_of_blockFrom (Nat.add_zero limit)
        (inside ▸ Course.Ends.sunk)
      cases Course.Takes.afresh takes with
      | sunk sinks => exact ⟨opener :: taken, ⟨opener, taken, rfl, opens, sinks⟩, _, rfl⟩
  · rintro ⟨front, deepens, left, rfl⟩
    exact block_of_deepens deepens left

end Block

/-- A block is read exactly where the grammar derives one at the front that nests within the limit,
up to its last token, and the grammar derives no other one there.  Everything else is a fault.  The
stack has no room exactly where a block at the front nests deeper than the limit, so also where the
grammar derives such a block. -/
theorem block_read_iff_derived (limit : Nat) (tokens : List Token) :
    (∀ left, block limit tokens = .ok () left ↔
      ∃ taken, Derives limit .block taken ∧ tokens = taken ++ left) ∧
    (∀ first second, Derivable .block first → Derivable .block second →
      first <+: tokens → second <+: tokens → first = second) ∧
    ((¬ ∃ taken, Derives limit .block taken ∧ taken <+: tokens) →
      ∃ fault left, block limit tokens = .error fault left ∧ fault.problem ≠ .nothingLeft) ∧
    (LacksRoom (block limit tokens) ↔ ∃ front, Deepens limit front ∧ front <+: tokens) ∧
    ∀ taken, Derivable .block taken → taken <+: tokens → ¬ Derives limit .block taken →
      LacksRoom (block limit tokens) := by
  refine ⟨fun left => block_eq_ok_iff, ?_, fun underived => ?_, block_tooDeep_iff, ?_⟩
  · rintro first second ⟨room, firstDerived⟩ ⟨other, secondDerived⟩ ⟨left, split⟩ ⟨rest, rfl⟩
    have read := block_of_derived firstDerived (le_max_left room other) left
    rw [split, block_of_derived secondDerived (le_max_right room other) rest] at read
    cases read
    exact List.append_cancel_right split
  · cases run : block limit tokens with
    | ok value left =>
        obtain ⟨taken, derived, split⟩ := block_eq_ok_iff.1 run
        exact absurd ⟨taken, derived, left, split.symm⟩ underived
    | error fault left =>
        have walk := walks_block limit tokens
        rw [run] at walk
        exact ⟨fault, left, rfl, walk.arises _ (List.mem_singleton.2 rfl)⟩
  · rintro taken ⟨room, derived⟩ within deeper
    obtain ⟨front, inside, deepens⟩ := (derived.within_or_exceeds limit).resolve_left deeper
    exact block_tooDeep_iff.2 ⟨front, deepens, inside.trans within⟩

end Reader

/-! ## Nested braces -/

namespace Grammar

def openBrace : Token := ⟨.opening .brace, "\x7b", ⟨1, 1⟩⟩

def closeBrace : Token := ⟨.closing .brace, "\x7d", ⟨1, 1⟩⟩

/-- An empty block inside some blocks that hold nothing else. -/
def nestedBraces : Nat → List Token
  | 0 => [openBrace, closeBrace]
  | depth + 1 => openBrace :: (nestedBraces depth ++ [closeBrace])

theorem kind_of_mem_nestedBraces {depth : Nat} {token : Token}
    (member : token ∈ nestedBraces depth) :
    token.kind = .opening .brace ∨ token.kind = .closing .brace := by
  induction depth with
  | zero =>
      simp only [nestedBraces, List.mem_cons, List.not_mem_nil, or_false] at member
      exact member.imp (congrArg Token.kind) (congrArg Token.kind)
  | succ depth ih =>
      simp only [nestedBraces, List.mem_cons, List.mem_append, List.not_mem_nil, or_false] at member
      rcases member with rfl | inside | rfl
      · exact .inl rfl
      · exact ih inside
      · exact .inr rfl

theorem derives_nestedBraces (depth : Nat) : Derives depth .block (nestedBraces depth) := by
  induction depth with
  | zero => exact .block rfl .none rfl
  | succ depth ih =>
      have statement : Derives (depth + 1) .statement (nestedBraces depth) :=
        .nested .nil not_announcesAssembly_nil ih
      rw [nestedBraces, ← List.append_nil (nestedBraces depth)]
      exact .block rfl (.some statement .none) rfl

theorem sinks_openBraces (room : Nat) : Sinks room (List.replicate (room + 1) openBrace) := by
  induction room with
  | zero => exact .last .none .nil not_announcesAssembly_nil rfl
  | succ room ih => exact .next .none .nil not_announcesAssembly_nil rfl ih

theorem nestedBraces_begins (depth : Nat) :
    List.replicate (depth + 1) openBrace <+: nestedBraces depth := by
  induction depth with
  | zero => exact ⟨[closeBrace], rfl⟩
  | succ depth ih =>
      exact (List.prefix_cons_inj openBrace).2 (ih.trans (List.prefix_append _ [closeBrace]))

/-- One block more than the stack has room for. -/
theorem lacksRoom_nestedBraces (limit : Nat) (rest : List Token) :
    Reader.LacksRoom (Reader.block limit (nestedBraces (limit + 1) ++ rest)) :=
  Reader.block_tooDeep_iff.2
    ⟨_, ⟨openBrace, _, rfl, rfl, sinks_openBraces limit⟩,
      (nestedBraces_begins (limit + 1)).trans (List.prefix_append _ rest)⟩

end Grammar

open Grammar StackRoom in
/-- The grammar derives a block that is nested deeper than there usually is room for, but the reader
does not answer for it. -/
theorem nestedBraces_unread :
    Derivable .block (nestedBraces (StackRoom.member + 1)) ∧
      ∀ left, Reader.block StackRoom.member (nestedBraces (StackRoom.member + 1)) ≠
        .ok () left := by
  refine ⟨⟨_, derives_nestedBraces _⟩, fun left read => ?_⟩
  obtain ⟨_, _, failed⟩ := lacksRoom_nestedBraces StackRoom.member []
  rw [List.append_nil] at failed
  cases read.symm.trans failed

end Interlock
