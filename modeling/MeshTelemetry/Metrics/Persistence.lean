import MeshTelemetry.Files.FileSystem
import MeshTelemetry.Metrics.Snapshot
import MeshTelemetry.Text.Blank

/-! Snapshots in files, so that a store outlives a restart. A snapshot is written
beside its file and renamed over it: the file holds the old text or the new one,
never a part. A blank path stands for no file. -/

set_option autoImplicit false

namespace MeshTelemetry

inductive ProcessingError
  | io (error : FileError)
  | json
  | emptySnapshot (path : String)
deriving DecidableEq

def ProcessingError.message : ProcessingError → String
  | io _ => "snapshot I/O error"
  | json => "JSON encoding error"
  | emptySnapshot path => "snapshot file is empty: " ++ path

namespace Persistence

/-- Where a snapshot is written before it takes its place. -/
def temporary (p : FilePath) : FilePath := p.withExtension "json.tmp"

def saveSteps (p : FilePath) (text : String) : List FileSystem.Step :=
  [.makeDirectories p.parent, .write (temporary p) text.toUTF8, .rename (temporary p) p]

def save (fs : FileSystem) (path : String) (s : Store) (now : Int) :
    FileSystem × Except ProcessingError Unit :=
  if Text.isBlankText path then (fs, .ok ())
  else
    let (fs', result) := fs.takeAll (saveSteps (FilePath.ofString path) (s.snapshot now).toText)
    (fs', result.mapError .io)

def read (fs : FileSystem) (path : String) : Except ProcessingError (Option Snapshot) := do
  if Text.isBlankText path then return none
  let p := FilePath.ofString path
  if !(← (fs.contains p).mapError .io) then return none
  let text ← (fs.readText p).mapError .io
  if Text.isBlankText text then throw (.emptySnapshot path)
  match Snapshot.ofText text with
  | .ok snapshot => return some snapshot
  | .error _ => throw .json

def load (fs : FileSystem) (path : String) (s : Store) :
    Except ProcessingError (Store × List String) :=
  match read fs path with
  | .error e => .error e
  | .ok none => .ok (s, [])
  | .ok (some snapshot) => .ok (s.restore snapshot)

end Persistence
end MeshTelemetry
