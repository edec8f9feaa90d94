import Interlock.Proofs.Boundary
import Mathlib.Data.List.Forall2

/-!
# Writing tokens out again

The tokens of a text can be written one behind the other with single blanks
between them: a string between quotes that do not occur in it without a
backslash, every other token as it is.  What is written has the same tokens,
whatever stood between them before.
-/

namespace Interlock

namespace Lexeme

variable {c quote : Char} {rest : List Char} {lexeme : Lexeme}

/-! ## Lexemes of their own -/

/-- A text that is one lexeme, with the kind and text of its token. -/
def Alone (kind : Token.Kind) (value own : List Char) : Prop :=
  ∃ c more, own = c :: more ∧ read c more = .ok ⟨kind, value, more.length⟩

theorem alone_of_read (found : read c rest = .ok lexeme) :
    Alone lexeme.kind lexeme.text (c :: rest.take lexeme.more) := by
  refine ⟨c, rest.take lexeme.more, rfl, ?_⟩
  rw [length_take_of_read found]
  exact read_take found

/-- Whatever is neither a string nor a comment is written as it reads. -/
theorem alone_self (found : read c rest = .ok lexeme) (notString : lexeme.kind ≠ .string)
    (notComment : lexeme.kind ≠ .comment) : Alone lexeme.kind lexeme.text lexeme.text := by
  have alone := alone_of_read found
  have spelled := spelled_read found
  generalize c :: rest.take lexeme.more = own at alone spelled
  obtain ⟨kind, value, more⟩ := lexeme
  dsimp only at *
  cases spelled with
  | lineComment => exact absurd rfl notComment
  | blockComment => exact absurd rfl notComment
  | string => exact absurd rfl notString
  | _ => exact alone

/-- A string can be written between quotes of any kind that is not bare in it. -/
theorem alone_quoted (isQuote : quote = '"' ∨ quote = '\'') {value : List Char}
    (bare : ∀ c ∈ [quote, '\n', '\\'], hasBare c value = false) :
    Alone .string value (quote :: (value ++ [quote])) := by
  refine ⟨quote, value ++ [quote], rfl, ?_⟩
  rw [read_eq_ok_iff]
  apply Front.string
  · rcases isQuote with rfl | rfl <;> rfl
  · simpa using isQuote
  · rw [string_eq_ok_iff isQuote]
    exact ⟨value, [], rfl, bare, by simp⟩

theorem punctuation?_ne_string {kind : Token.Kind} (found : punctuation? c = some kind) :
    kind ≠ .string := by
  rintro rfl
  rw [punctuation?] at found
  repeat' split at found
  all_goals cases found

/-- The text of a string stood between quotes. -/
theorem bare_of_string (found : read c rest = .ok lexeme) (isString : lexeme.kind = .string) :
    ∃ quote, (quote = '"' ∨ quote = '\'') ∧
      ∀ c ∈ [quote, '\n', '\\'], hasBare c lexeme.text = false := by
  have strings {offset : Nat} {quote : Char} {text : List Char}
      (isQuote : quote = '"' ∨ quote = '\'') (found : string offset quote text = .ok lexeme) :
      ∃ quote, (quote = '"' ∨ quote = '\'') ∧
        ∀ c ∈ [quote, '\n', '\\'], hasBare c lexeme.text = false := by
    obtain ⟨value, rest, -, bare, rfl⟩ := (string_eq_ok_iff isQuote).1 found
    exact ⟨quote, isQuote, bare⟩
  rw [read_eq_ok_iff] at found
  cases found with
  | comment found =>
      rw [comment?_kind found] at isString
      cases isString
  | string plain quoted found => exact strings (by simpa using quoted) found
  | punctuation plain unquoted found => exact absurd isString (punctuation?_ne_string found)
  | word plain unquoted other noDigit notDot starts found =>
      rcases word_cases found with rfl | ⟨mark, marks, quote, more, -, isQuote, found⟩
      · cases isString
      · exact strings isQuote found
  | _ => cases isString

end Lexeme

namespace Token

/-- The kind and the text of a token, without its position. -/
def content (token : Token) : Token.Kind × String := (token.kind, token.text)

/-- The texts that stand for a token: a string between quotes that are not bare in it, any other
token as itself. -/
inductive WrittenAs (token : Token) : String → Prop where
  | string {quote : Char} :
      token.kind = .string → (quote = '"' ∨ quote = '\'') →
      Lexeme.hasBare quote token.text.toList = false →
      WrittenAs token (String.ofList (quote :: (token.text.toList ++ [quote])))
  | plain : token.kind ≠ .string → WrittenAs token token.text

/-- One of the texts that stand for a token: double quotes are used where they can be. -/
def respelled (token : Token) : String :=
  if token.kind = .string then
    let quote := if Lexeme.hasBare '"' token.text.toList then '\'' else '"'
    String.ofList (quote :: (token.text.toList ++ [quote]))
  else token.text

variable {source : String} {tokens : List Token}

/-- The text of a string stood between quotes of some kind. -/
theorem bare_of_tokenize (lexed : tokenize source = .ok tokens) :
    ∀ token ∈ tokens, token.kind = .string →
      ∃ quote, (quote = '"' ∨ quote = '\'') ∧
        ∀ c ∈ [quote, '\n', '\\'], Lexeme.hasBare c token.text.toList = false := by
  have scanned : ∀ token ∈ (scan source).tokens, token.kind = .string →
      ∃ quote, (quote = '"' ∨ quote = '\'') ∧
        ∀ c ∈ [quote, '\n', '\\'], Lexeme.hasBare c token.text.toList = false := by
    apply scanFrom_forall
    · intro c rest lexeme read position isString
      rw [String.toList_ofList]
      exact Lexeme.bare_of_string read isString
    · intro position isString
      cases isString
    · nofun
  intro token member
  rw [← (tokenize_eq_ok_iff.1 lexed).2] at member
  exact scanned token (List.mem_filter.1 member).1

theorem writtenAs_respelled (lexed : tokenize source = .ok tokens) {token : Token}
    (member : token ∈ tokens) : token.WrittenAs token.respelled := by
  rw [respelled]
  split
  next isString =>
    obtain ⟨quote, isQuote, bare⟩ := bare_of_tokenize lexed token member isString
    have unbare := bare quote (List.mem_cons_self ..)
    split
    next double =>
      rcases isQuote with rfl | rfl
      · rw [unbare] at double
        cases double
      · exact .string isString (.inr rfl) unbare
    next single => exact .string isString (.inl rfl) (Bool.eq_false_iff.2 single)
  next notString => exact .plain notString

/-- What is written for a token of a text is the token again. -/
theorem alone_of_writtenAs (lexed : tokenize source = .ok tokens) :
    ∀ token ∈ tokens, token.kind ≠ .endOfFile → ∀ text, token.WrittenAs text →
      Lexeme.Alone token.kind token.text.toList text.toList := by
  have scanned : ∀ token ∈ (scan source).tokens,
      token.kind ≠ .string → token.kind ≠ .comment → token.kind ≠ .endOfFile →
        Lexeme.Alone token.kind token.text.toList token.text.toList := by
    apply scanFrom_forall
    · intro c rest lexeme read position notString notComment _
      rw [String.toList_ofList]
      exact Lexeme.alone_self read notString notComment
    · intro position _ _ notEnd
      exact absurd rfl notEnd
    · nofun
  intro token member notEnd text written
  cases written with
  | plain notString =>
      rw [← (tokenize_eq_ok_iff.1 lexed).2] at member
      obtain ⟨inside, kept⟩ := List.mem_filter.1 member
      exact scanned token inside notString (by simpa using kept) notEnd
  | @string quote isString isQuote unbare =>
      obtain ⟨_, -, bare⟩ := bare_of_tokenize lexed token member isString
      rw [String.toList_ofList, isString]
      apply Lexeme.alone_quoted isQuote
      intro c member
      rcases List.mem_cons.1 member with rfl | member
      · exact unbare
      · exact bare c (List.mem_cons_of_mem _ member)

/-! ## Scanning what is written -/

variable {position : Position} {seen : List Token} {own rest ending : List Char}

theorem scanFrom_gap {c : Char} (gap : Lexeme.isGap c) (text : List Char) :
    scanFrom position seen (c :: text) = scanFrom (position.after c) seen text := by
  rw [scanFrom.eq_2, if_pos gap]

theorem scanFrom_read {c : Char} {lexeme : Lexeme} (found : Lexeme.read c rest = .ok lexeme) :
    scanFrom position seen (c :: rest) =
      scanFrom (position.past (c :: rest.take lexeme.more))
        (⟨lexeme.kind, String.ofList lexeme.text, position⟩ :: seen)
        (rest.drop lexeme.more) := by
  rw [scanFrom.eq_2, if_neg (Lexeme.not_isGap_of_read found), found]

theorem scanFrom_alone {kind : Token.Kind} {value : List Char}
    (alone : Lexeme.Alone kind value own) (notComment : kind ≠ .comment)
    (apart : Lexeme.Apart rest) :
    scanFrom position seen (own ++ rest) =
      scanFrom (position.past own) (⟨kind, String.ofList value, position⟩ :: seen) rest := by
  obtain ⟨c, more, rfl, found⟩ := alone
  have again := Lexeme.read_append found apart fun isComment => absurd isComment notComment
  rw [List.cons_append, scanFrom_read again]
  simp only [List.take_left, List.drop_left]

theorem scanFrom_gaps (gaps : ∀ c ∈ ending, Lexeme.isGap c) :
    scanFrom position seen ending =
      ⟨seen.reverse ++ [⟨.endOfFile, "", position.past ending⟩], none⟩ := by
  induction ending generalizing position with
  | nil => rw [scanFrom.eq_1, List.reverse_cons, Position.past_nil]
  | cons c ending ih =>
      rw [scanFrom_gap (gaps c (List.mem_cons_self ..)), ih, Position.past_cons]
      exact fun d member => gaps d (List.mem_cons_of_mem _ member)

/-- Every token with a text of its own that is read as that token. -/
def Stand (tokens : List Token) (owns : List (List Char)) : Prop :=
  List.Forall₂
    (fun token own => token.kind ≠ .comment ∧ Lexeme.Alone token.kind token.text.toList own)
    tokens owns

theorem apart_of_gaps (gaps : ∀ c ∈ ending, Lexeme.isGap c) : Lexeme.Apart ending :=
  fun c front => gaps c (List.mem_of_head? front)

/-- The first of the tokens written with blanks between them is read off the front. -/
theorem scanFrom_intercalate {token : Token} {owns : List (List Char)}
    (gaps : ∀ c ∈ ending, Lexeme.isGap c) (notComment : token.kind ≠ .comment)
    (alone : Lexeme.Alone token.kind token.text.toList own)
    (position : Position) (seen : List Token) :
    ∃ next, scanFrom position seen ([' '].intercalate (own :: owns) ++ ending) =
      scanFrom next (⟨token.kind, token.text, position⟩ :: seen)
        ([' '].intercalate owns ++ ending) := by
  cases owns with
  | nil =>
      refine ⟨position.past own, ?_⟩
      rw [List.intercalate_singleton, List.intercalate_nil, List.nil_append,
        scanFrom_alone alone notComment (apart_of_gaps gaps), String.ofList_toList]
  | cons second owns =>
      refine ⟨(position.past own).after ' ', ?_⟩
      have blank : Lexeme.isGap ' ' := by decide
      rw [List.intercalate_cons_cons, List.append_assoc, List.append_assoc, List.singleton_append,
        scanFrom_alone alone notComment (Lexeme.apart_cons blank _), String.ofList_toList,
        scanFrom_gap blank]

/-- Tokens written one behind the other with a blank between them are read again. -/
theorem scanFrom_spaced {owns : List (List Char)} (gaps : ∀ c ∈ ending, Lexeme.isGap c)
    (stand : Stand tokens owns) (position : Position) (seen : List Token) :
    ∃ again last, again.map content = tokens.map content ∧
      scanFrom position seen ([' '].intercalate owns ++ ending) =
        ⟨seen.reverse ++ again ++ [⟨.endOfFile, "", last⟩], none⟩ := by
  induction stand generalizing position seen with
  | nil =>
      refine ⟨[], position.past ending, rfl, ?_⟩
      rw [List.intercalate_nil, List.nil_append, scanFrom_gaps gaps, List.append_nil]
  | @cons token own tokens owns stands others ih =>
      obtain ⟨next, step⟩ := scanFrom_intercalate gaps stands.1 stands.2 position seen
      obtain ⟨again, last, same, scanned⟩ :=
        ih next (⟨token.kind, token.text, position⟩ :: seen)
      refine ⟨⟨token.kind, token.text, position⟩ :: again, last, ?_, ?_⟩
      · rw [List.map_cons, List.map_cons, same]
        rfl
      · rw [step, scanned, List.reverse_cons, List.append_assoc seen.reverse]
        rfl

theorem kind_ne_comment_of_content {again : List Token}
    (plain : ∀ token ∈ tokens, token.kind ≠ .comment)
    (same : again.map content = tokens.map content) : ∀ token ∈ again, token.kind ≠ .comment := by
  intro token member
  have listed : token.content ∈ tokens.map content := same ▸ List.mem_map_of_mem member
  obtain ⟨other, inside, equal⟩ := List.mem_map.1 listed
  have kinds : other.kind = token.kind := congrArg Prod.fst equal
  rw [← kinds]
  exact plain other inside

theorem tokenize_spaced {texts : List String} {body : List Token} {text : String}
    (gaps : ∀ c ∈ ending, Lexeme.isGap c) (stand : Stand body (texts.map String.toList))
    (spelled : text.toList = (" ".intercalate texts).toList ++ ending) :
    ∃ again, tokenize text = .ok again ∧
      again.map content = body.map content ++ [(.endOfFile, "")] := by
  have plain := ((List.forall₂_and_left _ _).1 stand).1
  obtain ⟨again, last, same, scanned⟩ := scanFrom_spaced gaps stand .start []
  rw [String.toList_intercalate] at spelled
  have whole : scan text = ⟨again ++ [⟨.endOfFile, "", last⟩], none⟩ := by
    rw [scan, spelled]
    exact scanned
  refine ⟨again ++ [⟨.endOfFile, "", last⟩], tokenize_eq_ok_iff.2 ⟨by rw [whole], ?_⟩, ?_⟩
  · rw [whole, withoutComments, List.filter_eq_self]
    intro token member
    rcases List.mem_append.1 member with member | member
    · simpa using kind_ne_comment_of_content plain same token member
    · rw [List.mem_singleton.1 member]
      rfl
  · rw [List.map_append, same]
    rfl

/-- An empty text at the end leaves a blank behind the others, if there are any. -/
theorem intercalate_snoc_empty (texts : List String) :
    ∃ ending, (∀ c ∈ ending, Lexeme.isGap c) ∧
      (" ".intercalate (texts ++ [""])).toList = (" ".intercalate texts).toList ++ ending := by
  simp only [String.toList_intercalate, List.map_append]
  induction texts with
  | nil => exact ⟨[], nofun, rfl⟩
  | cons text texts ih =>
      obtain ⟨ending, gaps, split⟩ := ih
      cases texts with
      | nil => exact ⟨[' '], by simp [Lexeme.isGap], by simp⟩
      | cons next texts =>
          refine ⟨ending, gaps, ?_⟩
          simp only [List.map_cons, List.cons_append, List.intercalate_cons_cons] at split ⊢
          rw [split]
          simp only [List.append_assoc]

theorem forall₂_snoc {body : List Token} {mark : Token} {texts : List String}
    (written : List.Forall₂ WrittenAs (body ++ [mark]) texts) :
    ∃ front text, texts = front ++ [text] ∧ List.Forall₂ WrittenAs body front ∧
      mark.WrittenAs text := by
  induction body generalizing texts with
  | nil =>
      cases written with
      | cons first none =>
          cases none
          exact ⟨[], _, rfl, .nil, first⟩
  | cons token body ih =>
      cases written with
      | cons first others =>
          obtain ⟨front, text, rfl, inner, last⟩ := ih others
          exact ⟨_ :: front, text, rfl, .cons first inner, last⟩

theorem writtenAs_endMark {mark : Token} {text : String} (isEnd : mark.kind = .endOfFile)
    (written : mark.WrittenAs text) : text = mark.text := by
  cases written with
  | string isString =>
      rw [isEnd] at isString
      cases isString
  | plain => rfl

end Token

open Token

/-- The tokens of a text, written out with single blanks between them, are read again with the
same kinds and texts, whether or not a blank stands in front of the end. -/
theorem respelled_tokens_read_back {source : String} {tokens : List Token}
    (lexed : tokenize source = .ok tokens) :
    List.Forall₂ WrittenAs tokens (tokens.map respelled) ∧
    ∀ texts, List.Forall₂ WrittenAs tokens texts →
      (∃ again, tokenize (" ".intercalate texts) = .ok again ∧
        again.map content = tokens.map content) ∧
      ∃ again, tokenize (" ".intercalate texts.dropLast) = .ok again ∧
        again.map content = tokens.map content := by
  constructor
  · rw [List.forall₂_map_right_iff, List.forall₂_same]
    exact fun token member => writtenAs_respelled lexed member
  · intro texts written
    have alone := alone_of_writtenAs lexed
    have silent := withoutComments_of_tokenize lexed
    obtain ⟨body, mark, rfl, isEnd, empty, inner⟩ := exists_endMark lexed
    obtain ⟨front, last, rfl, inFront, atEnd⟩ := forall₂_snoc written
    obtain rfl : last = "" := by rw [writtenAs_endMark isEnd atEnd, empty]
    have stand : Stand body (front.map String.toList) := by
      rw [Stand, List.forall₂_map_right_iff, List.forall₂_and_left]
      constructor
      · intro token member
        rw [withoutComments, List.filter_eq_self] at silent
        simpa using silent token (List.mem_append_left _ member)
      · have read : ∀ token ∈ body, ∀ text, token.WrittenAs text →
            Lexeme.Alone token.kind token.text.toList text.toList :=
          fun token member => alone token (List.mem_append_left _ member) (inner token member)
        exact ((List.forall₂_and_left _ _).2 ⟨read, inFront⟩).imp
          fun token text both => both.1 text both.2
    have contents : (body ++ [mark]).map content = body.map content ++ [(.endOfFile, "")] := by
      simp [content, isEnd, empty]
    rw [contents]
    constructor
    · obtain ⟨ending, gaps, split⟩ := intercalate_snoc_empty front
      exact tokenize_spaced gaps stand split
    · rw [List.dropLast_concat]
      exact tokenize_spaced (by simp) stand (List.append_nil _).symm

/-- A source in which points, marks, quotes and comments stand close together. -/
def knottedSource : String := "x.1.f(hex'\\'\"' /* \" */ / 0x1F.2e-5,unicode\"'\")//;"

/-- Its tokens written out are the same tokens, although two of them are hexadecimal and Unicode
strings and one holds a quote of either kind. -/
theorem knottedSource_reads_back :
    ∃ tokens, tokenize knottedSource = .ok tokens ∧
      tokens.map respelled =
        ["x", ".1", ".", "f", "(", "'\\'\"'", "/", "0x1F", ".2e-5", ",", "\"'\"", ")", ""] ∧
      ∃ again, tokenize "x .1 . f ( '\\'\"' / 0x1F .2e-5 , \"'\" ) " = .ok again ∧
        again.map content = tokens.map content := by
  have lexed : tokenize knottedSource = .ok (withoutComments (scan knottedSource).tokens) :=
    tokenize_eq_ok_iff.2 ⟨by decide +kernel, rfl⟩
  obtain ⟨spelled, readBack⟩ := respelled_tokens_read_back lexed
  have written : (withoutComments (scan knottedSource).tokens).map respelled =
      ["x", ".1", ".", "f", "(", "'\\'\"'", "/", "0x1F", ".2e-5", ",", "\"'\"", ")", ""] := by
    decide +kernel
  have again := (readBack _ spelled).1
  rw [written] at again
  exact ⟨_, lexed, written, again⟩

end Interlock
