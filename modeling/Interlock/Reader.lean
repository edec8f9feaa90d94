import Interlock.Fault

/-!
# Reading from the front of a token list

A reader takes tokens off the front of a list and either answers or fails with a fault; both ways
it says which tokens are left.  A list usually ends in an end mark, but readers do not rely on it:
no reader takes the end mark by itself, and an empty list counts as the end too.
-/

namespace Interlock

/-- A computation that reads tokens. -/
abbrev Reader := EStateM Fault (List Token)

namespace Reader

/-- The token at the front. -/
def current : Reader (Option Token) := do
  return (← get).head?

/-- The token `offset` places behind the front. -/
def peek (offset : Nat) : Reader (Option Token) := do
  return (← get)[offset]?

/-- Takes the token at the front, if there is one. -/
def advance : Reader (Option Token) := fun tokens =>
  match tokens with
  | [] => .ok none []
  | token :: rest => .ok (some token) rest

/-- Whether nothing is left but the end mark and what may stand behind it. -/
def atEnd : Reader Bool := do
  match ← current with
  | none => return true
  | some token => return token.kind = .endOfFile

/-- Whether the token at the front has a given kind. -/
def at? (kind : Token.Kind) : Reader Bool := do
  return (← current).any (·.kind = kind)

/-- Whether the token at the front has a given kind and a given text. -/
def atText? (kind : Token.Kind) (text : String) : Reader Bool := do
  return (← current).any fun token => token.kind = kind && token.text = text

/-- Whether the token at the front is a given word. -/
def atWord? (word : String) : Reader Bool := atText? .identifier word

/-- Fails at a given token. -/
def failAt {α : Type} (problem : Problem) (token : Option Token) : Reader α :=
  throw ⟨problem, token⟩

/-- Fails at the front. -/
def fail {α : Type} (problem : Problem) : Reader α := do
  failAt problem (← current)

/-- The token at the front, which must be there. -/
def front : Reader Token := do
  match ← current with
  | some token => return token
  | none => failAt .nothingLeft none

/-- Takes the token at the front, which must be there. -/
def next : Reader Token := do
  let token ← front
  let _ ← advance
  return token

/-- Takes a token of a given kind, which is never the end mark. -/
def expectElse (kind : Token.Kind) (problem : Problem) : Reader Token := fun tokens =>
  match tokens with
  | [] => .error ⟨problem, none⟩ []
  | token :: rest =>
      if token.kind = .endOfFile || token.kind ≠ kind then
        .error ⟨problem, some token⟩ (token :: rest)
      else .ok token rest

/-- Takes a token of a given kind, and says which one stands there instead. -/
def expect (kind : Token.Kind) : Reader Token := do
  let found := (← current).filter (·.kind ≠ .endOfFile)
  expectElse kind (.expectedKind kind found)

/-- Takes an identifier that names something. -/
def expectName (what : String) : Reader Token :=
  expectElse .identifier (.expectedName what)

end Reader

/-- Repeats a step until it answers `done`.  A step that does not make the state smaller is the
last one, so the repetition ends. -/
def repeatSteps {ε σ β : Type} (size : σ → Nat) (step : β → EStateM ε σ (ForInStep β))
    (value : β) (state : σ) : EStateM.Result ε σ β :=
  match step value state with
  | .error fault left => .error fault left
  | .ok (.done value) left => .ok value left
  | .ok (.yield value) left =>
      if size left < size state then repeatSteps size step value left
      else .ok value left
termination_by size state

/-- Repeats a reading step until it answers `done` or takes nothing. -/
def Reader.loop {β : Type} (value : β) (step : β → Reader (ForInStep β)) : Reader β :=
  repeatSteps List.length step value

end Interlock
