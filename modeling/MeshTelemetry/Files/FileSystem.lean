import MeshTelemetry.Data.Table
import MeshTelemetry.Files.Path

/-! A file system as a table of directories and files, without symbolic or hard links.
Renaming a file replaces its target in one step; an operation that fails changes nothing,
except that directories made on the way to one that cannot be made stay. -/

set_option autoImplicit false

namespace MeshTelemetry

abbrev Location := List String

inductive FileNode
  | directory
  | file (content : ByteArray)

inductive FileError
  | notFound
  | notADirectory
  | isADirectory
  | invalidName
  | invalidText
deriving DecidableEq

structure FileSystem where
  nodes : Table Location FileNode := ∅

namespace FileSystem

def node? (fs : FileSystem) (l : Location) : Option FileNode :=
  if l = [] then some .directory else fs.nodes.get? l

/-- The location that parts lead to from a directory. All but the last part must
lead through directories; the last need not be there. -/
def locateFrom (fs : FileSystem) (l : Location) : List PathPart → Except FileError Location
  | [] => .ok l
  | .up :: ps => fs.locateFrom l.dropLast ps
  | .name n :: ps =>
    if maxNameBytes < n.utf8ByteSize then .error .invalidName
    else if ps = [] then .ok (l ++ [n])
    else
      match fs.node? (l ++ [n]) with
      | some .directory => fs.locateFrom (l ++ [n]) ps
      | some (.file _) => .error .notADirectory
      | none => .error .notFound

def locate (fs : FileSystem) (p : FilePath) : Except FileError Location :=
  if p.isUsable then fs.locateFrom [] p.parts else .error .invalidName

def stat (fs : FileSystem) (p : FilePath) : Except FileError FileNode := do
  match fs.node? (← fs.locate p) with
  | none => throw .notFound
  | some .directory => pure .directory
  | some (.file content) => if p.namesDirectory then throw .notADirectory else pure (.file content)

/-- Whether a path names anything. Only a plain absence is a no. -/
def contains (fs : FileSystem) (p : FilePath) : Except FileError Bool :=
  match fs.stat p with
  | .ok _ => .ok true
  | .error .notFound => .ok false
  | .error e => .error e

def read (fs : FileSystem) (p : FilePath) : Except FileError ByteArray := do
  match ← fs.stat p with
  | .file content => pure content
  | .directory => throw .isADirectory

def readText (fs : FileSystem) (p : FilePath) : Except FileError String := do
  match String.fromUTF8? (← fs.read p) with
  | some text => pure text
  | none => throw .invalidText

def locateFile (fs : FileSystem) (p : FilePath) : Except FileError Location := do
  let l ← fs.locate p
  match fs.node? l with
  | some .directory => throw .isADirectory
  | _ => if p.namesDirectory then throw .notADirectory else pure l

def setFile (fs : FileSystem) (l : Location) (content : ByteArray) : FileSystem :=
  { fs with nodes := fs.nodes.insert l (.file content) }

def write (fs : FileSystem) (p : FilePath) (content : ByteArray) : Except FileError FileSystem := do
  pure (fs.setFile (← fs.locateFile p) content)

def rename (fs : FileSystem) (source target : FilePath) : Except FileError FileSystem := do
  let content ← fs.read source
  let s ← fs.locate source
  let t ← fs.locateFile target
  if s = t then pure fs
  else pure ({ fs with nodes := fs.nodes.erase s }.setFile t content)

def makeDirectoriesFrom (fs : FileSystem) (l : Location) :
    List PathPart → FileSystem × Except FileError Unit
  | [] => (fs, .ok ())
  | .up :: ps => fs.makeDirectoriesFrom l.dropLast ps
  | .name n :: ps =>
    if maxNameBytes < n.utf8ByteSize then (fs, .error .invalidName)
    else
      match fs.node? (l ++ [n]) with
      | some .directory => fs.makeDirectoriesFrom (l ++ [n]) ps
      | some (.file _) => (fs, .error .notADirectory)
      | none =>
        { fs with nodes := fs.nodes.insert (l ++ [n]) .directory }.makeDirectoriesFrom (l ++ [n]) ps

inductive Step
  | makeDirectories (p : FilePath)
  | write (p : FilePath) (content : ByteArray)
  | rename (source target : FilePath)

def take (fs : FileSystem) : Step → FileSystem × Except FileError Unit
  | .makeDirectories p =>
    if p.isUsable then fs.makeDirectoriesFrom [] p.parts else (fs, .error .invalidName)
  | .write p content =>
    match fs.write p content with
    | .ok fs' => (fs', .ok ())
    | .error e => (fs, .error e)
  | .rename source target =>
    match fs.rename source target with
    | .ok fs' => (fs', .ok ())
    | .error e => (fs, .error e)

def takeAll (fs : FileSystem) : List Step → FileSystem × Except FileError Unit
  | [] => (fs, .ok ())
  | step :: steps =>
    match fs.take step with
    | (fs', .ok ()) => fs'.takeAll steps
    | (fs', .error e) => (fs', .error e)

def files (fs : FileSystem) : List String :=
  let isFile : Location × FileNode → Bool := fun e =>
    match e.2 with
    | .file _ => true
    | .directory => false
  ((fs.nodes.entries.filter isFile).map fun e => "/".intercalate e.1).mergeSort
    fun a b => decide (a ≤ b)

end FileSystem
end MeshTelemetry
