import Interlock.Failure
import Interlock.Path

/-!
# File systems

A file system is a tree of directories, files and symbolic links, with a working directory.  A path
is resolved component by component; a link is replaced by its target, and only so many links are
followed.
-/

namespace Interlock

/-- What a directory may hold. -/
inductive Entry where
  | file (content : ByteArray)
  | directory (entries : List (String × Entry))
  | link (target : String)
  deriving Inhabited

namespace Entry

/-- The entries of a directory. -/
def entries : Entry → List (String × Entry)
  | directory entries => entries
  | _ => []

/-- The entry with a given name. -/
def child? (entry : Entry) (name : String) : Option Entry :=
  (entry.entries.find? (·.1 = name)).map (·.2)

/-- The entry at the end of a chain of names, links not followed. -/
def descend? : List String → Entry → Option Entry
  | [], entry => some entry
  | name :: rest, entry => (entry.child? name).bind (descend? rest)

/-- Whether an entry is a directory. -/
def isDirectory : Entry → Bool
  | directory _ => true
  | _ => false

/-- Whether an entry is a file. -/
def isFile : Entry → Bool
  | file _ => true
  | _ => false

/-- The entries with one of them replaced, or added at the end. -/
def setChild (name : String) (entry : Entry) :
    List (String × Entry) → List (String × Entry)
  | [] => [(name, entry)]
  | (other, old) :: rest =>
      if other = name then (name, entry) :: rest else (other, old) :: setChild name entry rest

/-- Puts an entry at the end of a chain of names; missing directories are made. -/
def put (parent : Entry) (place : List String) (entry : Entry) : Entry :=
  match place with
  | [] => entry
  | name :: rest =>
      let inner := (parent.child? name).getD (directory [])
      directory (setChild name (put inner rest entry) parent.entries)

end Entry

/-- A tree with a working directory, given by its names from the root on. -/
structure FileSystem where
  root : Entry
  workingDirectory : List String

namespace FileSystem

/-- How many links are followed on the way to one file. -/
def linkLimit : Nat := 40

/-- The longest name of an entry, in bytes. -/
def nameLimit : Nat := 255

/-- The components of a link target.  A slash at its end asks for a directory, as a dot does. -/
def targetParts (target : String) : List String :=
  let parts := (Text.fields '/' target).filter (· ≠ "")
  if target.toList.getLast? = some '/' then parts ++ ["."] else parts

/-- Follows components from the directory or file `here`, which no link leads to, following at most
`links` links; answers the place reached and what is there. -/
def follow (root : Entry) (links : Nat) (here : List String) (pending : List String) :
    Except SystemFault (List String × Entry) :=
  match root.descend? here with
  | none => .error .notFound
  | some entry =>
      match pending with
      | [] => .ok (here, entry)
      | part :: rest =>
          if !entry.isDirectory then .error .notDirectory
          else if part = "." then follow root links here rest
          else if part = ".." then follow root links here.dropLast rest
          else if nameLimit < part.utf8ByteSize then .error .nameTooLong
          else
            match entry.child? part with
            | none => .error .notFound
            | some (.link target) =>
                match links with
                | 0 => .error .tooManyLinks
                | links + 1 =>
                    let start := if target.toList.head? = some '/' then [] else here
                    follow root links start (targetParts target ++ rest)
            | some _ => follow root links (here ++ [part]) rest
termination_by (links, pending.length)

/-- The longest path, in bytes. -/
def pathLimit : Nat := 4095

/-- Where a path leads, and what is there. -/
def resolve (system : FileSystem) (path : Path) : Except SystemFault (List String × Entry) :=
  if pathLimit < path.display.utf8ByteSize then .error .nameTooLong
  else
    let start := if path.slashes = 0 then system.workingDirectory else []
    follow system.root linkLimit start path.parts

/-- Whether a path has a null character, which no file name has. -/
def hasNull (path : Path) : Bool := path.parts.any (·.toList.contains '\x00')

/-- What is at a path, or `none` when nothing is.  Only a name that is too long is a failure. -/
def inspect (system : FileSystem) (path : Path) : Except Failure (Option Entry) :=
  if hasNull path then .ok none
  else
    match system.resolve path with
    | .ok (_, entry) => .ok (some entry)
    | .error .nameTooLong => .error (.system .nameTooLong path.display)
    | .error _ => .ok none

/-- The bytes of a file. -/
def content (system : FileSystem) (path : Path) : Except SystemFault ByteArray :=
  match system.resolve path with
  | .error fault => .error fault
  | .ok (_, .file bytes) => .ok bytes
  | .ok _ => .error .isDirectory

/-- The text that stands for a path in this file system. -/
def key (system : FileSystem) (text : String) : String :=
  Path.key system.workingDirectory text

/-- A file system with one more entry. -/
def put (system : FileSystem) (place : List String) (entry : Entry) : FileSystem :=
  { system with root := system.root.put place entry }

end FileSystem

end Interlock
