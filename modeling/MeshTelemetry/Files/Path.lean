/-! Paths as sequences of parts. Empty parts and single dots mean nothing except at
the end, where they say that the path names a directory. -/

set_option autoImplicit false

namespace MeshTelemetry

inductive PathPart
  | name (s : String)
  | up
deriving DecidableEq

def maxNameBytes : Nat := 255

structure FilePath where
  parts : List PathPart
  namesDirectory : Bool
deriving DecidableEq

namespace FilePath

def partOf? (piece : List Char) : Option PathPart :=
  if piece = [] ∨ piece = ['.'] then none
  else if piece = ['.', '.'] then some .up
  else some (.name (String.ofList piece))

def ofString (s : String) : FilePath :=
  let pieces := s.toList.splitOn '/'
  { parts := pieces.filterMap partOf?
    namesDirectory := (pieces.getLast?.bind partOf?).isNone }

/-- Whether a path can be looked up at all: a NUL would end it early. -/
def isUsable (p : FilePath) : Bool :=
  p.parts.all fun part =>
    match part with
    | .name n => !n.toList.contains '\x00'
    | .up => true

def parent (p : FilePath) : FilePath := ⟨p.parts.dropLast, true⟩

/-- A file name up to its last dot. A dot in front, or none at all, leaves it whole. -/
def stem (name : List Char) : List Char :=
  match name.reverse.dropWhile (fun c => c != '.') with
  | [] => name
  | [_] => name
  | _ :: before => before.reverse

/-- The path with the extension of its file name replaced. A path that ends in no
file name stays as it is. -/
def withExtension (p : FilePath) (extension : String) : FilePath :=
  match p.parts.getLast? with
  | some (.name n) =>
    let kept := stem n.toList
    -- of a name such as `..ab` two dots are left, and these are no name
    if kept = ['.'] ∧ p.namesDirectory = false then ⟨p.parts.dropLast ++ [.up], false⟩
    else ⟨p.parts.dropLast ++ [.name (String.ofList kept ++ "." ++ extension)], false⟩
  | _ => p

end FilePath
end MeshTelemetry
