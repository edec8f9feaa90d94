import Interlock.Text.Fields

/-!
# Paths

A path is its leading slashes and its components.  Exactly two leading slashes are kept, more than
two count as one.  Empty components and single dots say nothing and are dropped when a path is read;
`..` is kept until a path is made normal.
-/

namespace Interlock

/-- A path that has been read. -/
structure Path where
  slashes : Nat
  parts : List String
  deriving DecidableEq, Repr

namespace Path

/-- How many leading slashes a path keeps. -/
def leadingSlashes : List Char → Nat
  | '/' :: '/' :: '/' :: _ => 1
  | '/' :: '/' :: _ => 2
  | '/' :: _ => 1
  | _ => 0

/-- Whether a component says something. -/
def isPart (part : String) : Bool := part ≠ "" && part ≠ "."

/-- Reads a path. -/
def parse (text : String) : Path :=
  ⟨leadingSlashes text.toList, (Text.fields '/' text).filter isPart⟩

/-- A path as text; a path without slashes and components is a dot. -/
def display (path : Path) : String :=
  if path.slashes = 0 && path.parts.isEmpty then "."
  else String.ofList (List.replicate path.slashes '/') ++ "/".intercalate path.parts

/-- The path of an entry of a directory. -/
def child (path : Path) (name : String) : Path :=
  { path with parts := path.parts ++ [name] }

/-- Puts a component on the components so far, last first: `..` takes the last one away, unless
that is itself `..` or there is none. -/
def climb (absolute : Bool) (above : List String) (part : String) : List String :=
  if part ≠ ".." then part :: above
  else
    match above with
    | [] => if absolute then [] else [part]
    | last :: rest => if last = ".." then part :: above else rest

/-- The path without `..`, except at the front of a relative path. -/
def normal (path : Path) : Path :=
  { path with parts := (path.parts.foldl (climb (path.slashes ≠ 0)) []).reverse }

/-- An absolute path at or below a directory, as seen from there; other paths stay as they are. -/
def seenFrom (directory : List String) (path : Path) : Path :=
  if path.slashes = 0 then path
  else
    match directory.isPrefixOf? path.parts with
    | some rest => ⟨0, rest⟩
    | none => path

/-- The text that stands for a path in reports and in exclusion lists, when the working directory
is `directory`. -/
def key (directory : List String) (text : String) : String :=
  ((parse text).normal.seenFrom directory).display

end Path

end Interlock
