import Payphone.Text

/-!
Paths, and the places they lead to.

A path is written with slashes between its steps. A step is a name, `.` for the folder itself or `..` for the one
above; more than one slash counts as one. A slash at the start begins at the root, one at the end demands a folder.
A place in the tree of folders has one location, however many paths lead to it. Nothing is known of the folders above
the one where paths start, so places are counted from there, or from the root if a path begins with it.
-/
namespace Payphone

/-- Why a file cannot be read or written. -/
inductive FileError
  /-- There is nothing at the path, or a folder on the way to it does not exist. -/
  | notFound
  /-- The path goes on behind a file. -/
  | notFolder
  /-- The path leads to a folder. -/
  | isFolder
  | nameTooLong
  /-- The path holds the character NUL, which no name can have. -/
  | nulInName
deriving Repr, DecidableEq

def FileError.message : FileError → String
  | notFound => "No such file or directory (os error 2)"
  | notFolder => "Not a directory (os error 20)"
  | isFolder => "Is a directory (os error 21)"
  | nameTooLong => "File name too long (os error 36)"
  | nulInName => "file name contained an unexpected NUL byte"

/-! Paths as they are written. -/

inductive Path.Step
  | stay
  | ascend
  | enter (name : String)
deriving Repr, DecidableEq

structure Path where
  fromRoot : Bool
  steps : List Path.Step
  /-- Whether the path demands a folder. -/
  endsInSlash : Bool
deriving Repr, DecidableEq

namespace Path

/-- The longest path, in bytes. -/
def maxLength : Nat := 4095

/-- The longest name, in bytes. -/
def maxNameLength : Nat := 255

/-- What stands between slashes, empty pieces included. -/
def pieces (cs : List Char) : List (List Char) :=
  cs.foldr (fun c ps => if c = '/' then [] :: ps else ps.modifyHead (c :: ·)) [[]]

def Step.ofName : List Char → Step
  | ['.'] => stay
  | ['.', '.'] => ascend
  | name => enter (String.ofList name)

/-- The step as it is written. -/
def Step.text : Step → String
  | stay => "."
  | ascend => ".."
  | enter name => name

def Step.isTooLong : Step → Bool
  | enter name => maxNameLength < (Text.utf8 name).length
  | _ => false

/-- The path that a text describes, if it describes one. -/
def parse (text : String) : Except FileError Path :=
  let cs := text.toList
  if cs.contains '\x00' then .error .nulInName
  else if cs.isEmpty then .error .notFound
  else if maxLength < (Text.utf8 text).length then .error .nameTooLong
  else .ok
    { fromRoot := cs.head? == some '/'
      steps := ((pieces cs).filter fun piece => !piece.isEmpty).map Step.ofName
      endsInSlash := cs.getLast? == some '/' }

example : (parse ".//a/../b/").toOption = some ⟨false, [.stay, .enter "a", .ascend, .enter "b"], true⟩ := by decide

example : (parse "/").toOption = some ⟨true, [], true⟩ ∧ (parse "").toOption = none := by decide

end Path

/-! Places in the tree of folders. -/

inductive Location.Origin
  | root
  /-- So many folders above the one where paths start. -/
  | start (levels : Nat)
deriving Repr, DecidableEq

/-- A place in the tree of folders, as the way to it without detours. -/
structure Location where
  origin : Location.Origin := .start 0
  /-- The names below the origin, the innermost first. -/
  names : List String := []
deriving Repr, DecidableEq

namespace Location

/-- The place one step on; nothing is above the root. -/
def follow : Location → Path.Step → Location
  | l, .stay => l
  | ⟨origin, _ :: names⟩, .ascend => ⟨origin, names⟩
  | ⟨.start levels, []⟩, .ascend => ⟨.start (levels + 1), []⟩
  | ⟨.root, []⟩, .ascend => ⟨.root, []⟩
  | ⟨origin, names⟩, .enter name => ⟨origin, name :: names⟩

/-- The plain path of a place below the folder where paths start. -/
def plainPath? (l : Location) : Option String :=
  if l.origin = .start 0 then some ("/".intercalate l.names.reverse) else none

end Location

/-- Where the first step is taken. -/
def Path.origin (p : Path) : Location := if p.fromRoot then { origin := .root } else {}

end Payphone
