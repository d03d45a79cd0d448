import MeshTelemetry.Alert.Webhook
import MeshTelemetry.Http.Exchange
import MeshTelemetry.Metrics.Exposition
import MeshTelemetry.Service.Health

/-! The service around an exporter: messages come in from the bus, metrics and
health are served, and batches of alerts are taken for the mesh. -/

set_option autoImplicit false

namespace MeshTelemetry

/-- An exporter with its health, and how alerts are dispatched over a transport
with state `σ`. -/
structure Service (σ : Type) where
  exporter : Exporter
  health : Health
  dispatch : DispatchSettings
  publisher : Option (Publish σ)

def Exporter.receive (e : Exporter) (h : Health) (now : Moment) (p : Packet) :
    Exporter × Health :=
  let (e, outcome) := e.handle now p.topic p.payload
  (e, h.countMessage outcome)

namespace Service

open Http

inductive Resource
  | health
  | metrics
  | alerts
deriving DecidableEq

def Resource.ofPath? (path : String) : Option Resource :=
  if path = "/health" then some .health
  else if path = "/metrics" then some .metrics
  else if path = "/alerts" then some .alerts
  else none

def maxBodyBytes : Nat := 2 * 1024 * 1024

variable {σ : Type}

def healthReport (s : Service σ) : Response :=
  .ofJson 200 (s.health.toJson s.exporter.activity.size)

def metricsText (s : Service σ) : Response :=
  ⟨200, some "text/plain; version=0.0.4", .text s.exporter.store.exposition⟩

def webhookOf (r : Request) : Except Nat Webhook :=
  if !r.hasJson then .error 415
  else if maxBodyBytes < r.body.size then .error 413
  else
    match Json.readText Webhook.read (Text.symbols r.body) with
    | .ok w => .ok w
    | .error .malformed => .error 400
    | .error .mismatched => .error 422

/-- The report on a batch. It counts as failed only if all of it did. -/
def reportResponse (r : Webhook.Report) : Response :=
  .ofJson (if r.isFailure then 503 else 200) r.toJson

def takeAlerts (s : Service σ) (now : Int) (bus : σ) (r : Request) : σ × Response :=
  if r.method ≠ "POST" then (bus, .bare 405)
  else
    match webhookOf r with
    | .error status => (bus, .bare status)
    | .ok w =>
      let (bus, report) := w.dispatch s.dispatch s.publisher now bus
      (bus, reportResponse report)

def respond (s : Service σ) (now : Int) (bus : σ) (r : Request) : σ × Response :=
  match Resource.ofPath? r.path with
  | none => (bus, .bare 404)
  | some .health => (bus, r.answerRead s.healthReport)
  | some .metrics => (bus, r.answerRead s.metricsText)
  | some .alerts => s.takeAlerts now bus r

end Service
end MeshTelemetry
