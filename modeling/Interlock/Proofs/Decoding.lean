import Interlock.SourceFile
import Interlock.Proofs.Stream

/-!
# The text of every file

Every file has a text.  Bytes that encode characters in UTF-8 are these characters, but for one
byte order mark in front; all others are characters one by one.  Which bytes encode characters is
said by the ranges that the first byte of a character and the bytes behind it lie in.
-/

namespace Interlock

namespace Text

/-- The bytes that encode characters in UTF-8. -/
def utf8 (chars : List Char) : List UInt8 := chars.flatMap String.utf8EncodeChar

/-- Whether a byte may stand behind the first byte of a character. -/
def IsContinuation (byte : UInt8) : Prop := 0x80 ≤ byte ∧ byte ≤ 0xbf

/-- The bytes that encode one character: no longer than the character needs, for no surrogate and
for none beyond the last character. -/
inductive CharacterBytes : List UInt8 → Prop where
  | one {first : UInt8} : first ≤ 0x7f → CharacterBytes [first]
  | two {first second : UInt8} :
      0xc2 ≤ first → first ≤ 0xdf → IsContinuation second → CharacterBytes [first, second]
  | three {first second third : UInt8} :
      0xe0 ≤ first → first ≤ 0xef → (first = 0xe0 → 0xa0 ≤ second) →
      (first = 0xed → second ≤ 0x9f) → IsContinuation second → IsContinuation third →
      CharacterBytes [first, second, third]
  | four {first second third fourth : UInt8} :
      0xf0 ≤ first → first ≤ 0xf4 → (first = 0xf0 → 0x90 ≤ second) →
      (first = 0xf4 → second ≤ 0x8f) → IsContinuation second → IsContinuation third →
      IsContinuation fourth → CharacterBytes [first, second, third, fourth]

/-- The bytes of any number of characters. -/
inductive WellFormed : List UInt8 → Prop where
  | nil : WellFormed []
  | cons {character rest : List UInt8} :
      CharacterBytes character → WellFormed rest → WellFormed (character ++ rest)

/-! ## Characters -/

theorem characterBytes_encode (c : Char) : CharacterBytes (String.utf8EncodeChar c) := by
  have valid : c.val.toNat < 0xd800 ∨ 0xdfff < c.val.toNat ∧ c.val.toNat < 0x110000 := c.valid
  rw [String.utf8EncodeChar]
  generalize c.val.toNat = code at valid
  split
  · apply CharacterBytes.one
    simp only [UInt8.le_iff_toNat_le, UInt8.toNat_ofNat, UInt8.toNat_ofNat']
    omega
  · split
    · apply CharacterBytes.two <;>
        simp only [IsContinuation, UInt8.le_iff_toNat_le, UInt8.toNat_ofNat,
          UInt8.toNat_ofNat'] <;> omega
    · split
      · apply CharacterBytes.three <;>
          simp only [IsContinuation, UInt8.le_iff_toNat_le, ← UInt8.toNat_inj,
            UInt8.toNat_ofNat, UInt8.toNat_ofNat'] <;> omega
      · apply CharacterBytes.four <;>
          simp only [IsContinuation, UInt8.le_iff_toNat_le, ← UInt8.toNat_inj,
            UInt8.toNat_ofNat, UInt8.toNat_ofNat'] <;> omega

theorem exists_encode {bytes : List UInt8} (character : CharacterBytes bytes) :
    ∃ c, String.utf8EncodeChar c = bytes := by
  have code {n : Nat} (valid : n.isValidChar) : (Char.ofNat n).val.toNat = n := by
    rw [Char.ofNat, dif_pos valid]
    rfl
  cases character with
  | @one first small =>
      refine ⟨Char.ofNat first.toNat, ?_⟩
      simp only [UInt8.le_iff_toNat_le, UInt8.toNat_ofNat] at small
      rw [String.utf8EncodeChar, code (by simp only [Nat.isValidChar]; omega)]
      rw [if_pos (by omega), UInt8.ofNat_toNat]
  | @two first second low high tail =>
      refine ⟨Char.ofNat ((first.toNat - 0xc0) * 64 + (second.toNat - 0x80)), ?_⟩
      simp only [IsContinuation, UInt8.le_iff_toNat_le, UInt8.toNat_ofNat] at low high tail
      rw [String.utf8EncodeChar, code (by simp only [Nat.isValidChar]; omega)]
      rw [if_neg (by omega), if_pos (by omega)]
      simp only [List.cons.injEq, ← UInt8.toNat_inj, UInt8.toNat_ofNat', and_true]
      omega
  | @three first second third low high long surrogate tail last =>
      refine ⟨Char.ofNat ((first.toNat - 0xe0) * 4096 + (second.toNat - 0x80) * 64 +
        (third.toNat - 0x80)), ?_⟩
      simp only [IsContinuation, UInt8.le_iff_toNat_le, ← UInt8.toNat_inj, UInt8.toNat_ofNat]
        at low high long surrogate tail last
      rw [String.utf8EncodeChar, code (by simp only [Nat.isValidChar]; omega)]
      rw [if_neg (by omega), if_neg (by omega), if_pos (by omega)]
      simp only [List.cons.injEq, ← UInt8.toNat_inj, UInt8.toNat_ofNat', and_true]
      omega
  | @four first second third fourth low high long beyond tail next last =>
      refine ⟨Char.ofNat ((first.toNat - 0xf0) * 262144 + (second.toNat - 0x80) * 4096 +
        (third.toNat - 0x80) * 64 + (fourth.toNat - 0x80)), ?_⟩
      simp only [IsContinuation, UInt8.le_iff_toNat_le, ← UInt8.toNat_inj, UInt8.toNat_ofNat]
        at low high long beyond tail next last
      rw [String.utf8EncodeChar, code (by simp only [Nat.isValidChar]; omega)]
      rw [if_neg (by omega), if_neg (by omega), if_neg (by omega)]
      simp only [List.cons.injEq, ← UInt8.toNat_inj, UInt8.toNat_ofNat', and_true]
      omega

/-- The bytes that encode characters are those that lie in the ranges. -/
theorem wellFormed_iff {bytes : List UInt8} : WellFormed bytes ↔ ∃ chars, bytes = utf8 chars := by
  constructor
  · intro formed
    induction formed with
    | nil => exact ⟨[], rfl⟩
    | cons character _ ih =>
        obtain ⟨c, rfl⟩ := exists_encode character
        obtain ⟨chars, rfl⟩ := ih
        exact ⟨c :: chars, rfl⟩
  · intro encoded
    obtain ⟨chars, rfl⟩ := encoded
    induction chars with
    | nil => exact .nil
    | cons c chars ih => exact .cons (characterBytes_encode c) ih

/-! ## Bytes of a text -/

theorem toList_bytes (bytes : ByteArray) : bytes.toList = bytes.data.toList := by
  have behind (place : Nat) (seen : List UInt8) : ByteArray.toList.loop bytes place seen =
      seen.reverse ++ bytes.data.toList.drop place := by
    fun_induction ByteArray.toList.loop bytes place seen with
    | case1 place seen within ih =>
        have inList : place < bytes.data.toList.length := within
        have same : bytes.get! place = bytes.data.toList[place] :=
          getElem!_pos bytes.data place within
        rw [ih, List.drop_eq_getElem_cons inList, same]
        simp
    | case2 place seen past =>
        rw [List.drop_eq_nil_of_le (Nat.le_of_not_lt past), List.append_nil]
  exact behind 0 []

theorem toList_toUTF8 (text : String) : text.toUTF8.toList = utf8 text.toList := by
  have encoded : text.toUTF8 = (utf8 text.toList).toByteArray := String.utf8Encode_toList.symm
  rw [toList_bytes, encoded, List.toList_data_toByteArray]

/-- Only the bytes of a text are read as it. -/
theorem eq_toUTF8_iff {bytes : ByteArray} {text : String} :
    bytes = text.toUTF8 ↔ bytes.toList = utf8 text.toList := by
  rw [← toList_toUTF8, toList_bytes, toList_bytes, Array.toList_inj, ByteArray.ext_iff]

theorem fromUTF8?_eq_some_iff {bytes : ByteArray} {text : String} :
    String.fromUTF8? bytes = some text ↔ bytes.toList = utf8 text.toList := by
  rw [← eq_toUTF8_iff]
  constructor
  · intro read
    rw [String.fromUTF8?] at read
    split at read
    · cases read
      rfl
    · cases read
  · intro same
    rw [same, fromUTF8?_toUTF8]

theorem fromUTF8?_eq_none_iff {bytes : ByteArray} :
    String.fromUTF8? bytes = none ↔ ¬ WellFormed bytes.toList := by
  rw [wellFormed_iff, Option.eq_none_iff_forall_ne_some]
  constructor
  · intro unread encoded
    obtain ⟨chars, encoded⟩ := encoded
    refine unread (String.ofList chars) (fromUTF8?_eq_some_iff.2 ?_)
    rw [encoded, String.toList_ofList]
  · intro notEncoded text read
    exact notEncoded ⟨text.toList, fromUTF8?_eq_some_iff.1 read⟩

/-! ## The text of bytes -/

theorem toList_withoutMark (text : String) :
    (withoutMark text).toList =
      if text.toList.head? = some byteOrderMark then text.toList.tail else text.toList := by
  rw [withoutMark]
  cases whole : text.toList with
  | nil => simp [whole]
  | cons c rest =>
      by_cases mark : c = byteOrderMark <;> simp [mark, whole]

theorem codes_latin1 (bytes : ByteArray) :
    (latin1 bytes).toList.map Char.toNat = bytes.toList.map UInt8.toNat := by
  rw [latin1, String.toList_ofList, List.map_map]
  refine List.map_congr_left fun byte _ => ?_
  have small : byte.toNat.isValidChar := .inl (Nat.lt_trans byte.toNat_lt (by decide))
  rw [Function.comp_apply, Char.ofNat, dif_pos small]
  rfl

theorem decode_of_utf8 {bytes : ByteArray} {chars : List Char}
    (encoded : bytes.toList = utf8 chars) :
    (decode bytes).toList = if chars.head? = some byteOrderMark then chars.tail else chars := by
  have read : String.fromUTF8? bytes = some (String.ofList chars) := by
    rw [fromUTF8?_eq_some_iff, String.toList_ofList, encoded]
  rw [decode, read]
  dsimp only
  rw [toList_withoutMark, String.toList_ofList]

theorem decode_of_marked {bytes : ByteArray} {text : String}
    (encoded : bytes.toList = [0xef, 0xbb, 0xbf] ++ utf8 text.toList) : decode bytes = text := by
  have mark : String.utf8EncodeChar byteOrderMark = [0xef, 0xbb, 0xbf] := by decide
  have marked : bytes.toList = utf8 (byteOrderMark :: text.toList) := by
    rw [encoded, utf8, utf8, List.flatMap_cons, mark]
  apply String.toList_injective
  rw [decode_of_utf8 marked, List.head?_cons, if_pos rfl, List.tail_cons]

theorem decode_of_unmarked {bytes : ByteArray} {text : String}
    (encoded : bytes.toList = utf8 text.toList)
    (unmarked : text.toList.head? ≠ some byteOrderMark) : decode bytes = text := by
  apply String.toList_injective
  rw [decode_of_utf8 encoded, if_neg unmarked]

theorem decode_of_other {bytes : ByteArray} (other : ¬ WellFormed bytes.toList) :
    (decode bytes).toList.map Char.toNat = bytes.toList.map UInt8.toNat := by
  rw [decode, fromUTF8?_eq_none_iff.2 other]
  exact codes_latin1 bytes

end Text

/-- A file whose bytes are there is read, and its text is that of its bytes. -/
theorem FileSystem.text_of_load {system : FileSystem} {name : String} {bytes : ByteArray}
    (named : hasNull (.parse name) = false) (held : system.content (.parse name) = .ok bytes) :
    (system.load name).map (·.text) = .ok (Text.decode bytes) := by
  rw [load]
  simp only [named, held, Bool.false_eq_true, if_false]
  rfl

/-- Every byte string has a text: the characters it encodes but for one mark in front, or else a
character for each byte.  It encodes characters exactly when its bytes lie in the ranges.  A text
that is held by a file is therefore read back, with a mark in front, and without one unless the
text begins with a mark itself. -/
theorem every_file_has_text (bytes : ByteArray) :
    (∀ chars, bytes.toList = Text.utf8 chars →
      (Text.decode bytes).toList =
        if chars.head? = some Text.byteOrderMark then chars.tail else chars) ∧
    ((∀ chars, bytes.toList ≠ Text.utf8 chars) →
      (Text.decode bytes).toList.map Char.toNat = bytes.toList.map UInt8.toNat) ∧
    ((∃ chars, bytes.toList = Text.utf8 chars) ↔ Text.WellFormed bytes.toList) ∧
    ∀ (system : FileSystem) (name : String), FileSystem.hasNull (.parse name) = false →
      system.content (.parse name) = .ok bytes →
      (system.load name).map (·.text) = .ok (Text.decode bytes) ∧
      ∀ text : String,
        (bytes.toList = [0xef, 0xbb, 0xbf] ++ Text.utf8 text.toList →
          (system.load name).map (·.text) = .ok text) ∧
        (bytes.toList = Text.utf8 text.toList → text.toList.head? ≠ some Text.byteOrderMark →
          (system.load name).map (·.text) = .ok text) := by
  refine ⟨fun chars encoded => Text.decode_of_utf8 encoded, ?_, Text.wellFormed_iff.symm, ?_⟩
  · intro notEncoded
    refine Text.decode_of_other fun formed => ?_
    obtain ⟨chars, encoded⟩ := Text.wellFormed_iff.1 formed
    exact notEncoded chars encoded
  · intro system name named held
    have read := FileSystem.text_of_load named held
    refine ⟨read, fun text => ⟨fun marked => ?_, fun encoded unmarked => ?_⟩⟩
    · rw [read, Text.decode_of_marked marked]
    · rw [read, Text.decode_of_unmarked encoded unmarked]

/-- A directory with a file that begins with two byte order marks. -/
def markedSystem : FileSystem := .ofFiles [("A.sol", "\ufeff\ufeffé")]

/-- Only one of the marks is taken off. -/
theorem markedSystem_read :
    FileSystem.hasNull (.parse "A.sol") = false ∧
      markedSystem.content (.parse "A.sol") = .ok "\ufeff\ufeffé".toUTF8 ∧
      (markedSystem.load "A.sol").map (·.text) = .ok "\ufeffé" := by
  have named : FileSystem.IsFileName "A.sol" := by decide +kernel
  have clean : FileSystem.hasNull (.parse "A.sol") = false := named.plain ▸ named.clean
  have held : markedSystem.content (.parse "A.sol") = .ok "\ufeff\ufeffé".toUTF8 := by
    rw [named.plain, FileSystem.content, markedSystem, FileSystem.resolve_ofFiles named rfl]
  refine ⟨clean, held, ?_⟩
  refine ((every_file_has_text _).2.2.2 markedSystem "A.sol" clean held).2 _ |>.1 ?_
  rw [Text.toList_toUTF8]
  decide +kernel

end Interlock
