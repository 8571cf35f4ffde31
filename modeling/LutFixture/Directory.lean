import LutFixture.File
import LutFixture.Text.Pieces

/-!
# Directories

A directory with everything below it is a list of files, each with the names that lead to it. A
path is followed step by step, beginning at the directory, or far above it if the path begins with
a slash. Only a directory can be stepped out of. What lies above the directory is a chain of
directories in which nothing is known by its name, so a path that leaves the directory never finds
a file.
-/

namespace LutFixture

/-- One step of a path. -/
inductive PathStep where
  /-- Stays at the directory. -/
  | stay
  /-- Goes to the directory above. -/
  | up
  /-- Goes to what has this name. -/
  | down (name : List Char)
deriving DecidableEq, Repr

namespace PathStep

/-- The step that a piece of a path between slashes stands for. -/
def ofPiece : List Char → PathStep
  | [] => .stay
  | ['.'] => .stay
  | ['.', '.'] => .up
  | name => .down name

/-- The steps of a path. -/
def ofPath (path : List Char) : List PathStep := (Text.pieces '/' path).map ofPiece

end PathStep

/-- Where a path may lead. -/
inductive Location where
  /-- At or below the directory, by the names that lead there, the last one first. -/
  | inside (names : List (List Char))
  /-- Above the directory. -/
  | above
  /-- Where nothing is. -/
  | nowhere
deriving DecidableEq, Repr

namespace Location

/-- One directory up. -/
def up : Location → Location
  | .inside (_ :: names) => .inside names
  | .inside [] => .above
  | .above => .above
  | .nowhere => .nowhere

/-- What has a name in a directory. -/
def down (name : List Char) : Location → Location
  | .inside names => .inside (name :: names)
  | .above => .nowhere
  | .nowhere => .nowhere

end Location

/-- A directory with everything below it. -/
structure Directory where
  /-- The files, each with the names that lead to it from the directory. -/
  entries : List (List (List Char) × File)

namespace Directory

/-- The number of bytes that a name may have. -/
def longestName : Nat := 255

/-- The number of bytes that a path may have. -/
def longestPath : Nat := 4095

/-- The directory that holds files at the given paths. -/
def ofList (files : List (String × File)) : Directory :=
  ⟨files.map fun (path, f) => ((Text.pieces '/' path.toList).filter (· ≠ []), f)⟩

/-- What is found at a location. Where an entry lies below, there is a directory. -/
def file (d : Directory) : Location → File
  | .nowhere => .absent
  | .above => .directory
  | .inside [] => .directory
  | .inside names =>
    match d.entries.lookup names.reverse with
    | some f => f
    | none => if d.entries.any (names.reverse.isPrefixOf ·.1) then .directory else .absent

/-- What is found at the end of some steps from a location. -/
def follow (d : Directory) (l : Location) : List PathStep → File
  | [] => d.file l
  | step :: steps =>
    match d.file l with
    | .directory =>
      match step with
      | .stay => d.follow l steps
      | .up => d.follow l.up steps
      | .down name =>
        if longestName < (String.ofList name).utf8ByteSize then .nameTooLong
        else d.follow (l.down name) steps
    | .contents _ => .throughFile
    | f => f

/-- What is found at the end of a path. -/
def find (d : Directory) (path : String) : File :=
  if longestPath < path.utf8ByteSize then .nameTooLong
  else
    let start : Location := if path.toList.head? = some '/' then .above else .inside []
    d.follow start (PathStep.ofPath path.toList)

@[simp] theorem follow_nil (d : Directory) (l : Location) : d.follow l [] = d.file l := rfl

theorem follow_down (d : Directory) {name : List Char}
    (h : (String.ofList name).utf8ByteSize ≤ longestName) :
    d.follow (.inside []) [.down name] = d.file (.inside [name]) := by
  simp [follow, file, Location.down, Nat.not_lt.2 h]

end Directory

end LutFixture
