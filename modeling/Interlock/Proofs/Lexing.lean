import Interlock.Token.Lexer

/-!
# Tokens of a text

The tokens of a text stand one behind the other, so no two of them have the same
position, and a word is never empty.  Comments are gone.
-/

namespace Interlock

/-! ## Positions -/

/-- The order of positions in a text. -/
def Position.Before (first second : Position) : Prop :=
  first.line < second.line ∨ first.line = second.line ∧ first.column < second.column

namespace Position.Before

theorem irrefl (position : Position) : ¬ position.Before position := by
  rw [Position.Before]
  omega

theorem trans {first second third : Position} (left : first.Before second)
    (right : second.Before third) : first.Before third := by
  unfold Position.Before at *
  omega

theorem after (position : Position) (c : Char) : position.Before (position.after c) := by
  rw [Position.after, Position.Before]
  split
  · exact .inl (Int.lt_succ _)
  · exact .inr ⟨rfl, Int.lt_succ _⟩

theorem past (position : Position) (c : Char) (text : List Char) :
    position.Before (position.past (c :: text)) := by
  induction text generalizing position c with
  | nil => exact after position c
  | cons next text ih => exact (after position c).trans (ih (position.after c) next)

end Position.Before

/-! ## Scanning -/

namespace Token

/-- Tokens one behind the other. -/
def Placed (tokens : List Token) : Prop :=
  tokens.Pairwise fun first second => first.position.Before second.position

theorem Placed.snoc {tokens : List Token} {token : Token} (placed : Placed tokens)
    (before : ∀ earlier ∈ tokens, earlier.position.Before token.position) :
    Placed (tokens ++ [token]) := by
  refine List.pairwise_append.2 ⟨placed, List.pairwise_singleton _ _, ?_⟩
  intro earlier member last isLast
  rw [List.mem_singleton.1 isLast]
  exact before earlier member

/-- A scan places its tokens one behind the other, behind those already seen. -/
theorem placed_scanFrom {position : Position} {seen : List Token} {text : List Char}
    (placed : Placed seen.reverse)
    (before : ∀ earlier ∈ seen, earlier.position.Before position) :
    Placed (scanFrom position seen text).tokens := by
  fun_induction scanFrom position seen text with
  | case1 position seen =>
      rw [List.reverse_cons]
      exact placed.snoc fun earlier member => before earlier (List.mem_reverse.1 member)
  | case2 position seen c rest gap ih =>
      exact ih placed fun earlier member => (before earlier member).trans (.after position c)
  | case3 => exact placed
  | case4 position seen c rest gap lexeme read ih =>
      apply ih
      · rw [List.reverse_cons]
        exact placed.snoc fun earlier member => before earlier (List.mem_reverse.1 member)
      · intro earlier member
        rcases List.mem_cons.1 member with rfl | member
        · exact .past position c _
        · exact (before earlier member).trans (.past position c _)

/-- What holds of every lexeme wherever it stands, and of end marks, holds of every token. -/
theorem scanFrom_forall {holds : Token → Prop}
    (lexemes : ∀ {c rest lexeme}, Lexeme.read c rest = .ok lexeme → ∀ position,
      holds ⟨lexeme.kind, String.ofList lexeme.text, position⟩)
    (ends : ∀ position, holds ⟨.endOfFile, "", position⟩)
    {position : Position} {seen : List Token} {text : List Char}
    (earlier : ∀ token ∈ seen, holds token) :
    ∀ token ∈ (scanFrom position seen text).tokens, holds token := by
  fun_induction scanFrom position seen text with
  | case1 position seen =>
      intro token member
      rcases List.mem_cons.1 (List.mem_reverse.1 member) with rfl | member
      · exact ends position
      · exact earlier token member
  | case2 position seen c rest gap ih => exact ih earlier
  | case3 => exact fun token member => earlier token (List.mem_reverse.1 member)
  | case4 position seen c rest gap lexeme read ih =>
      apply ih
      intro token member
      rcases List.mem_cons.1 member with rfl | member
      · exact lexemes read position
      · exact earlier token member

end Token

/-! ## Words -/

namespace Lexeme

theorem punctuation?_ne_identifier {c : Char} {kind : Token.Kind}
    (found : punctuation? c = some kind) : kind ≠ .identifier := by
  rintro rfl
  rw [punctuation?] at found
  repeat' split at found
  all_goals cases found

theorem string_kind {offset : Nat} {quote : Char} {rest : List Char} {lexeme : Lexeme}
    (read : string offset quote rest = .ok lexeme) : lexeme.kind = .string := by
  rw [string] at read
  split at read <;> cases read
  rfl

theorem comment?_kind {text : List Char} {lexeme : Lexeme}
    (read : comment? text = some (.ok lexeme)) : lexeme.kind = .comment := by
  simp only [comment?] at read
  split at read
  · cases read
    rfl
  · split at read <;> cases read
    rfl
  · cases read

theorem word_text {c : Char} {rest : List Char} {lexeme : Lexeme}
    (starts : startsIdentifier c) (read : word (c :: rest) = .ok lexeme)
    (isWord : lexeme.kind = .identifier) : lexeme.text ≠ [] := by
  have continues : continuesIdentifier c := by
    simp only [startsIdentifier, continuesIdentifier, Bool.or_eq_true] at starts ⊢
    exact .inl starts
  have name : (c :: rest).takeWhile continuesIdentifier ≠ [] := by simp [continues]
  unfold word at read
  dsimp only at read
  split at read
  · split at read
    · rw [string_kind read] at isWord
      cases isWord
    · cases read
      exact name
  · cases read
    exact name

/-- A word has a first character. -/
theorem text_ne_nil_of_identifier {c : Char} {rest : List Char} {lexeme : Lexeme}
    (found : read c rest = .ok lexeme) (isWord : lexeme.kind = .identifier) :
    lexeme.text ≠ [] := by
  have other {kind : Token.Kind} (same : lexeme.kind = kind) (differs : kind ≠ .identifier) :
      lexeme.text ≠ [] := absurd (same.symm.trans isWord) differs
  rw [read] at found
  split at found
  next commented =>
    rw [found] at commented
    exact other (comment?_kind commented) nofun
  next =>
  split at found
  · exact other (string_kind found) nofun
  split at found
  next kind punctuation =>
    cases found
    exact other rfl (punctuation?_ne_identifier punctuation)
  next =>
  split at found
  · cases found
    exact other rfl nofun
  split at found
  · cases found
    exact other rfl nofun
  split at found
  next starts => exact word_text starts found isWord
  next =>
  split at found
  · cases found
    exact other rfl nofun
  · cases found

end Lexeme

namespace Token

variable {source : String} {tokens : List Token}

theorem tokenize_eq_ok_iff : tokenize source = .ok tokens ↔
    (scan source).error = none ∧ withoutComments (scan source).tokens = tokens := by
  simp only [tokenize]
  cases (scan source).error <;> simp

theorem withoutComments_of_tokenize (lexed : tokenize source = .ok tokens) :
    withoutComments tokens = tokens := by
  rw [← (tokenize_eq_ok_iff.1 lexed).2, withoutComments, withoutComments, List.filter_filter]
  simp

/-- Any of the tokens of a text are free of comments. -/
theorem withoutComments_of_mem (lexed : tokenize source = .ok tokens) {part : List Token}
    (inside : ∀ token ∈ part, token ∈ tokens) : withoutComments part = part := by
  rw [withoutComments, List.filter_eq_self]
  intro token member
  have kept := inside token member
  rw [← withoutComments_of_tokenize lexed] at kept
  exact (List.mem_filter.1 kept).2

/-- No two tokens of a text have the same position. -/
theorem nodup_positions (lexed : tokenize source = .ok tokens) :
    (tokens.map Token.position).Nodup := by
  have placed : Placed (scan source).tokens := placed_scanFrom .nil nofun
  rw [← (tokenize_eq_ok_iff.1 lexed).2, List.nodup_iff_pairwise_ne, List.pairwise_map]
  refine (placed.filter _).imp fun {first second} before same => ?_
  rw [same] at before
  exact Position.Before.irrefl _ before

/-- The words of a text are not empty. -/
theorem text_ne_of_identifier (lexed : tokenize source = .ok tokens) {token : Token}
    (member : token ∈ tokens) (isWord : token.kind = .identifier) : token.text ≠ "" := by
  have scanned : ∀ token ∈ (scan source).tokens, token.kind = .identifier → token.text ≠ "" :=
    scanFrom_forall
      (fun read position isWord empty => Lexeme.text_ne_nil_of_identifier read isWord
        (String.ofList_eq_empty_iff.1 empty))
      (fun _ => nofun) nofun
  rw [← (tokenize_eq_ok_iff.1 lexed).2] at member
  exact scanned token (List.mem_filter.1 member).1 isWord

end Token

end Interlock
