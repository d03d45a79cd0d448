import MeshTelemetry.Activity
import MeshTelemetry.Metrics.Persistence
import MeshTelemetry.Topic

/-! The exporter: what comes in from the mesh is checked, read and recorded. A
message that is not recorded leaves nothing behind. -/

set_option autoImplicit false

namespace MeshTelemetry

/-- The present, on the clock that dates records and on the one that measures spans. -/
structure Moment where
  /-- Unix seconds. -/
  unix : Int
  /-- Nanoseconds. -/
  instant : Int
deriving DecidableEq

inductive IgnoreReason
  | topicFiltered
  | notJsonLike
  | unhandledType
deriving DecidableEq

inductive Outcome
  | recorded (r : Record)
  | ignored (reason : IgnoreReason)
deriving DecidableEq

structure Exporter where
  filters : List String := []
  store : Store := {}
  activity : Activity := {}
deriving DecidableEq

namespace Exporter

/-- What a message comes to. Text that is not meant as JSON is no fault of its
sender. -/
def judge (filters : List String) (now : Int) (topic : String) (payload : ByteArray) :
    Except Rejection Outcome :=
  if !Topic.passes topic filters then .ok (.ignored .topicFiltered)
  else
    match Envelope.ofMessage topic payload with
    | .error .notJsonLike => .ok (.ignored .notJsonLike)
    | .error r => .error r
    | .ok envelope =>
      match Message.ofEnvelope now envelope with
      | .error r => .error r
      | .ok message =>
        match message.record? with
        | none => .ok (.ignored .unhandledType)
        | some record => .ok (.recorded record)

def write (e : Exporter) (r : Record) : Exporter := { e with store := e.store.record r }

def touch (e : Exporter) (node : String) (instant : Int) : Exporter :=
  { e with activity := e.activity.touch node instant }

def record (e : Exporter) (instant : Int) (r : Record) : Exporter :=
  (e.write r).touch r.node instant

def handle (e : Exporter) (now : Moment) (topic : String) (payload : ByteArray) :
    Exporter × Except Rejection Outcome :=
  match judge e.filters now.unix topic payload with
  | .ok (.recorded r) => (e.record now.instant r, .ok (.recorded r))
  | result => (e, result)

def save (e : Exporter) (fs : FileSystem) (path : String) (now : Int) :
    FileSystem × Except ProcessingError Unit :=
  Persistence.save fs path e.store now

/-- Restore what a file holds, and tell how many nodes it was. They count as heard
now, so that those which stay silent expire like any other. -/
def load (e : Exporter) (fs : FileSystem) (path : String) (instant : Int) :
    Except ProcessingError (Exporter × Nat) :=
  match Persistence.load fs path e.store with
  | .error error => .error error
  | .ok (store, restored) =>
    .ok (restored.foldl (fun e node => e.touch node instant) { e with store }, restored.length)

end Exporter
end MeshTelemetry
