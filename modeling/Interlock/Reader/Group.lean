import Interlock.Reader

/-!
# Bracketed groups

A group is an opening bracket, the tokens up to the closing bracket that answers it, and that
closing bracket.  Brackets inside must be nested and closed by their own shape.
-/

namespace Interlock

/-- A bracketed group. -/
structure Group where
  opener : Token
  inner : List Token
  closer : Token
  deriving DecidableEq, Repr

namespace Group

/-- The texts between the outer brackets, joined by blanks. -/
def text (group : Group) : String :=
  " ".intercalate (group.inner.map (·.text))

/-- All tokens of a group. -/
def tokens (group : Group) : List Token :=
  group.opener :: group.inner ++ [group.closer]

/-- A bracket that is still open. -/
structure Frame where
  shape : Bracket
  opener : Token
  deriving DecidableEq, Repr

end Group

namespace Reader

/-- Reads on inside the group of `opener`, where `frame` is the innermost open bracket, `outer`
are the open brackets around it and `seen` are the tokens read so far, last first.  A bracket that
closes the wrong shape is taken before the fault. -/
def groupFrom (opener : Token) (frame : Group.Frame) (outer : List Group.Frame)
    (seen : List Token) : List Token → EStateM.Result Fault (List Token) Group
  | [] => .error ⟨.unclosedGroup frame.shape frame.opener, none⟩ []
  | token :: rest =>
      match token.kind with
      | .endOfFile =>
          .error ⟨.unclosedGroup frame.shape frame.opener, some token⟩ (token :: rest)
      | .opening shape =>
          groupFrom opener ⟨shape, token⟩ (frame :: outer) (token :: seen) rest
      | .closing shape =>
          if shape = frame.shape then
            match outer with
            | [] => .ok ⟨opener, seen.reverse, token⟩ rest
            | next :: below => groupFrom opener next below (token :: seen) rest
          else .error ⟨.mismatchedCloser token frame.shape, some token⟩ rest
      | _ => groupFrom opener frame outer (token :: seen) rest

/-- Reads a group whose opening bracket is at the front. -/
def group : Reader Group := fun tokens =>
  match tokens with
  | [] => .error ⟨.expectedOpener, none⟩ []
  | token :: rest =>
      match token.kind with
      | .opening shape => groupFrom token ⟨shape, token⟩ [] [] rest
      | _ => .error ⟨.expectedOpener, some token⟩ (token :: rest)

theorem groupFrom_length {opener : Token} {frame : Group.Frame} {outer : List Group.Frame}
    {seen tokens left : List Token} {result : Group}
    (read : groupFrom opener frame outer seen tokens = .ok result left) :
    left.length < tokens.length := by
  induction tokens generalizing frame outer seen with
  | nil => simp [groupFrom] at read
  | cons token rest ih =>
      have step {frame outer seen}
          (inner : groupFrom opener frame outer seen rest = .ok result left) :
          left.length < (token :: rest).length := by
        have := ih inner
        simp only [List.length_cons]
        omega
      unfold groupFrom at read
      split at read
      · simp at read
      · exact step read
      · split at read
        · split at read
          · injection read with _ equal
            simp [← equal]
          · exact step read
        · simp at read
      · exact step read

/-- A group takes at least one token. -/
theorem group_length {tokens left : List Token} {result : Group}
    (read : group tokens = .ok result left) : left.length < tokens.length := by
  unfold group at read
  split at read
  · simp at read
  · split at read
    · have := groupFrom_length read
      simp only [List.length_cons]
      omega
    · simp at read

end Reader

end Interlock
