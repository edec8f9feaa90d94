import Interlock.Proofs.Body
import Interlock.Proofs.Written

/-!
# Warnings are harmless

A reading that found no error may have found oddities.  Where the tokens that they are
about are left out, strict reading accepts what remains, with the same tree: the same
declarations with the same parts at the same positions.
-/

namespace Interlock

open Interlock.Parser

theorem withoutComments_of_pruned {remarks : List Remark} {tokens kept : List Token}
    (pruned : Pruned remarks (Token.withoutComments tokens) kept) :
    Token.withoutComments kept = kept := by
  rw [Token.withoutComments, List.filter_eq_self]
  intro token member
  exact (List.mem_filter.1 (pruned.sublist.subset member)).2

/-- Without the tokens that the warnings are about, strict reading answers the tree of a
tolerant reading that found no error.  Comments may stand anywhere, and where no token
occurs twice there is only one way to leave those tokens out. -/
theorem warnings_harmless [StackRoom] (filename : String) (tokens : List Token)
    (success : (Reading.ofTokens filename tokens).1.success = true) :
    ∃ unit remarks kept,
      (Reading.ofTokens filename tokens).1 = ⟨some unit, remarks.map .remark⟩ ∧
      Pruned remarks (Token.withoutComments tokens) kept ∧
      Tree.SourceUnit.ofTokens filename kept = .ok unit ∧
      (∀ list, Token.withoutComments list = kept →
        Tree.SourceUnit.ofTokens filename list = .ok unit) ∧
      ((Token.withoutComments tokens).Nodup →
        ∀ other, Pruned remarks (Token.withoutComments tokens) other → other = kept) := by
  obtain ⟨found, remarks, taken, kept, rest, split, ended, pieces⟩ :=
    success_iff_elements.1 success
  have pruned : Pruned remarks (Token.withoutComments tokens) (kept ++ rest) := by
    rw [split]
    simpa using pieces.pruned.append (.refl rest)
  have strict (list : List Token) (same : Token.withoutComments list = kept ++ rest) :
      Tree.SourceUnit.ofTokens filename list = .ok ⟨filename, found⟩ := by
    rw [Tree.SourceUnit.ofTokens, State.ofTokens]
    rw [same, (source_of_elements pieces ended filename).2]
  refine ⟨⟨filename, found⟩, remarks, kept ++ rest, ?_, pruned,
    strict _ (withoutComments_of_pruned pruned), strict, ?_⟩
  · rw [reading_of_elements split ended pieces]
  · intro distinct other again
    exact again.unique distinct pruned

namespace Written

/-- A source with every sort of oddity: a stray semicolon in front and in a contract, a
directive, and a second visibility. -/
def oddTokens : List Token :=
  [⟨.semicolon, ";", ⟨1, 1⟩⟩, word "setting" ⟨1, 3⟩, word "on" ⟨1, 11⟩, ⟨.semicolon, ";", ⟨1, 13⟩⟩,
   word "contract" ⟨2, 1⟩, word "Vault" ⟨2, 10⟩, ⟨.opening .brace, "\x7b", ⟨2, 16⟩⟩,
   word "function" ⟨3, 3⟩, word "take" ⟨3, 12⟩, ⟨.opening .paren, "(", ⟨3, 16⟩⟩,
   ⟨.closing .paren, ")", ⟨3, 17⟩⟩, word "public" ⟨3, 19⟩, word "external" ⟨3, 26⟩,
   ⟨.semicolon, ";", ⟨3, 34⟩⟩, ⟨.semicolon, ";", ⟨3, 35⟩⟩, ⟨.closing .brace, "\x7d", ⟨4, 1⟩⟩,
   ⟨.endOfFile, "", ⟨4, 2⟩⟩]

end Written

open StackRoom in
/-- The oddities of that source are harmless. -/
theorem oddTokens_harmless :
    (Reading.ofTokens "Vault.sol" Written.oddTokens).1.success = true ∧
      ∃ unit remarks kept, remarks.length = 4 ∧
        (Reading.ofTokens "Vault.sol" Written.oddTokens).1 = ⟨some unit, remarks.map .remark⟩ ∧
        Pruned remarks Written.oddTokens kept ∧
        Tree.SourceUnit.ofTokens "Vault.sol" kept = .ok unit := by
  have success : (Reading.ofTokens "Vault.sol" Written.oddTokens).1.success = true := by
    decide +kernel
  obtain ⟨unit, remarks, kept, reading, pruned, strict, -⟩ :=
    warnings_harmless "Vault.sol" Written.oddTokens success
  have count : (Reading.ofTokens "Vault.sol" Written.oddTokens).1.findings.length = 4 := by
    decide +kernel
  refine ⟨success, unit, remarks, kept, ?_, reading, pruned, strict⟩
  rw [reading] at count
  simpa using count

end Interlock
