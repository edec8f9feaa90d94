import Interlock.Failure

/-!
# The console

What is printed goes to a console, one text after the other.  A console encodes what it takes, and
it refuses a text with a character that its encoding lacks; nothing of that text is printed then.
Plain ASCII is never refused.
-/

namespace Interlock.CommandLine

/-- Whether a text is plain ASCII. -/
def IsAscii (text : String) : Prop := ∀ c ∈ text.toList, c.toNat < 0x80

instance (text : String) : Decidable (IsAscii text) :=
  show Decidable (∀ c ∈ text.toList, c.toNat < 0x80) from List.decidableBAll _ _

/-- A console, given by the texts that it refuses and its words for that. -/
structure Console where
  refusal? : String → Option String
  takes_ascii : ∀ text, IsAscii text → refusal? text = none

namespace Console

/-- The console that takes every text. -/
def unicode : Console := ⟨fun _ => none, fun _ _ => rfl⟩

/-- Prints texts up to the first one that is refused; answers what is printed and the failure. -/
def print (console : Console) : List String → String × Option Failure
  | [] => ("", none)
  | text :: rest =>
      match console.refusal? text with
      | some message => ("", some (.raised "UnicodeEncodeError" message))
      | none =>
          let (printed, failure) := console.print rest
          (text ++ printed, failure)

end Console

end Interlock.CommandLine
