import MeshTelemetry.Configuration.Basic
import MeshTelemetry.Files.FileSystem
import MeshTelemetry.Yaml.Reading

/-! Configurations in files. What a file leaves out keeps its default, and so does
everything if there is no file. -/

set_option autoImplicit false

namespace MeshTelemetry

open Yaml

def readUInt32 : Reader UInt32 := fun anchors n =>
  (Reader.unsigned UInt32.size anchors n).map UInt32.ofNat

/-- Sizes and spans have 64 bits. -/
def readSize : Reader Nat := Reader.unsigned UInt64.size

namespace LinkSettings

def fields : List String := ["host", "port", "client_id", "keep_alive_secs", "capacity"]

def readPart (key : String) (s : LinkSettings) : Reader LinkSettings := fun anchors n => do
  match key with
  | "host" => some { s with host := ← Reader.string anchors n }
  | "port" => some { s with port := ← Reader.unsigned UInt16.size anchors n }
  | "client_id" => some { s with clientId := ← Reader.string anchors n }
  | "keep_alive_secs" => some { s with keepAliveSeconds := ← readSize anchors n }
  | _ => some { s with capacity := ← readSize anchors n }

def read : Reader LinkSettings := Reader.record fields {} readPart

end LinkSettings

namespace StateSettings

def fields : List String := ["path", "save_interval_secs"]

def readPart (key : String) (s : StateSettings) : Reader StateSettings := fun anchors n => do
  match key with
  | "path" => some { s with path := ← Reader.string anchors n }
  | _ => some { s with saveIntervalSeconds := ← readSize anchors n }

def read : Reader StateSettings := Reader.record fields {} readPart

end StateSettings

namespace ExpirySettings

def fields : List String := ["ttl_secs", "interval_secs"]

def readPart (key : String) (s : ExpirySettings) : Reader ExpirySettings := fun anchors n => do
  match key with
  | "ttl_secs" => some { s with ttlSeconds := ← readSize anchors n }
  | _ => some { s with intervalSeconds := ← Reader.option readSize anchors n }

def read : Reader ExpirySettings := Reader.record fields {} readPart

end ExpirySettings

namespace AlertSettings

def fields : List String :=
  ["channel", "mode", "from_node", "targets", "topic_root", "max_text_len"]

def readPart (key : String) (s : AlertSettings) : Reader AlertSettings := fun anchors n => do
  match key with
  | "channel" => some { s with channel := ← Reader.string anchors n }
  | "mode" => some { s with mode := ← Reader.string anchors n }
  | "from_node" => some { s with sender := ← Reader.option readUInt32 anchors n }
  | "targets" => some { s with targets := ← Reader.list readUInt32 anchors n }
  | "topic_root" => some { s with topicRoot := ← Reader.string anchors n }
  | _ => some { s with textLimit := ← readSize anchors n }

def read : Reader AlertSettings := Reader.record fields {} readPart

end AlertSettings

inductive ConfigurationError
  | unreadable (error : FileError)
  | malformed
deriving DecidableEq

namespace Configuration

def defaultPath : String := "meshwatch.yaml"

def pathOr (named : Option String) : String := named.getD defaultPath

def readListen (listen : String) : Reader String :=
  Reader.record ["listen"] listen fun _ _ => Reader.string

def fields : List String := ["mqtt", "topics", "state", "reaper", "alerts", "http"]

def readPart (key : String) (c : Configuration) : Reader Configuration := fun anchors n => do
  match key with
  | "mqtt" => some { c with link := ← LinkSettings.read anchors n }
  | "topics" => some { c with topics := ← Reader.list Reader.string anchors n }
  | "state" => some { c with state := ← StateSettings.read anchors n }
  | "reaper" => some { c with expiry := ← ExpirySettings.read anchors n }
  | "alerts" => some { c with alerts := ← AlertSettings.read anchors n }
  | _ => some { c with listen := ← readListen c.listen anchors n }

def read : Reader Configuration := Reader.record fields {} readPart

def ofText (s : String) : Except ConfigurationError Configuration :=
  if Text.isBlankText s then .ok {}
  else
    match readText read s with
    | some c => .ok c
    | none => .error .malformed

/-- The configuration in a file; the default if there is no file. -/
def load (fs : FileSystem) (path : String) : Except ConfigurationError Configuration := do
  let p := FilePath.ofString path
  if !(← (fs.contains p).mapError .unreadable) then return {}
  ofText (← (fs.readText p).mapError .unreadable)

end Configuration
end MeshTelemetry
