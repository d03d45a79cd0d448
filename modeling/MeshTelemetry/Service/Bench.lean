import MeshTelemetry.Bus.Simulated
import MeshTelemetry.Expiry
import MeshTelemetry.Service.Basic

/-! A bench on which a service runs without a broker: messages are fed in by hand,
alerts go to a simulated bus or to the queue of a link that is never drained, and
state is kept in files of its own. -/

set_option autoImplicit false

namespace MeshTelemetry

inductive AlertRoute
  | nowhere
  | simulated
  | link
deriving DecidableEq

structure Bench where
  exporter : Exporter := {}
  health : Health := {}
  dispatch : DispatchSettings := {}
  route : AlertRoute := .simulated
  bus : SimulatedBus := { inbox := some [] }
  outbox : Outbox := { limit := LinkSettings.queueLimit {} }
  files : FileSystem := {}

namespace Bench

def topicOf (node : UInt32) : String := channelTopic "msh/US" "LongFast" node

def senderOf (message : Json) : UInt32 :=
  let number := ((message.asObject?.bind (Json.member? · "from")).bind Json.asNumber?).bind
    Json.Number.unsigned64?
  UInt32.ofNat ((number.filter (· < UInt32.size)).getD 0)

def handle (b : Bench) (now : Moment) (topic : String) (payload : ByteArray) :
    Bench × Except Rejection Outcome :=
  let (exporter, outcome) := b.exporter.handle now topic payload
  ({ b with exporter }, outcome)

def sendMesh (b : Bench) (now : Moment) (message : Json) : Bench × Except Rejection Outcome :=
  b.handle now (topicOf (senderOf message)) message.compact.toUTF8

def receive (b : Bench) (now : Moment) (p : Packet) : Bench :=
  let (exporter, health) := b.exporter.receive b.health now p
  { b with exporter, health }

def simulate (b : Bench) (p : Packet) : Except String Bench :=
  (b.bus.simulate p).map fun bus => { b with bus }

def receiveAll (b : Bench) (clock : Nat → Moment) : List Packet → Nat → Bench × Nat
  | [], count => (b, count)
  | p :: ps, count => (b.receive (clock count) p).receiveAll clock ps (count + 1)

/-- Let all that waits come in, and tell how much it was. The clock goes on meanwhile. -/
def processPendingBy (b : Bench) (clock : Nat → Moment) : Bench × Nat :=
  { b with bus := b.bus.drain }.receiveAll clock b.bus.waiting 0

def processPending (b : Bench) (now : Moment) : Bench × Nat := b.processPendingBy fun _ => now

def sweep (b : Bench) (ttl : Nat) (instant : Int) : Bench × List String :=
  let (exporter, gone) := b.exporter.sweep ttl instant
  ({ b with exporter }, gone)

def publisher (b : Bench) : Option (Publish Bench) :=
  match b.route with
  | .nowhere => none
  | .simulated => some fun b p =>
    let (bus, result) := b.bus.publish p
    ({ b with bus }, result)
  | .link => some fun b p =>
    let (outbox, result) := b.outbox.publish b.health.link p
    ({ b with outbox }, result)

def sendAlert (b : Bench) (a : Alert) : Bench × Except DispatchError Nat :=
  b.dispatch.send b.publisher b a

def sendWebhook (b : Bench) (now : Int) (w : Webhook) : Bench × Webhook.Report :=
  w.dispatch b.dispatch b.publisher now b

/-- The batch that a text holds. For the simulated bus the text is decoded as a value
first, so that a repeated key counts by its last value and is no fault. -/
def webhookOf? (b : Bench) (cs : List Text.Symbol) : Option Webhook :=
  match b.route with
  | .simulated => (Json.decode? cs).bind fun v => (Webhook.read (.ofValue v)).toOption
  | _ => (Json.readText Webhook.read cs).toOption

def service (b : Bench) : Service Bench := ⟨b.exporter, b.health, b.dispatch, b.publisher⟩

def respond (b : Bench) (now : Int) (r : Http.Request) : Bench × Http.Response :=
  b.service.respond now b r

def reset (b : Bench) : Bench := { b with bus := b.bus.clear.drain }

def save (b : Bench) (now : Int) (path : String) : Bench × Except ProcessingError Unit :=
  let (files, result) := b.exporter.save b.files path now
  ({ b with files }, result)

def load (b : Bench) (now : Moment) (path : String) : Except ProcessingError (Bench × Nat) :=
  (b.exporter.load b.files path now.instant).map fun (exporter, n) => ({ b with exporter }, n)

/-- Save as often as a periodic task does. To save again what has not changed
changes nothing, so once is enough. -/
def savePeriodically (b : Bench) (now : Int) (path : String) (period elapsed : Nat) : Bench :=
  if periodicRuns period elapsed = 0 then b else (b.save now path).1

/-- Sweep as often as a policy's task does, at one instant. To sweep again finds
nothing more, so once is enough. -/
def sweepPeriodically (b : Bench) (p : ExpiryPolicy) (instant : Int) (elapsed : Nat) : Bench :=
  if periodicRuns p.interval elapsed = 0 then b else (b.sweep p.ttl instant).1

/-! Looking at the results -/

def tolerance : Binary64 := Binary64.ofRatio false 1 1000000000

def seriesName (metric node : String) : String := metric ++ "\x7bnode_id=" ++ node ++ "\x7d"

def checkMetric (b : Bench) (metric node : String) (expected : Binary64) : Except String Unit :=
  match b.exporter.store.value? metric node with
  | none => .error (seriesName metric node ++ " not found")
  | some actual =>
    if (actual.dist expected).lt tolerance then .ok ()
    else .error (seriesName metric node ++ ": expected " ++ NumberLayout.metric.text expected ++
      ", got " ++ NumberLayout.metric.text actual)

def checkAbsent (b : Bench) (metric node : String) : Except String Unit :=
  match b.exporter.store.value? metric node with
  | none => .ok ()
  | some actual =>
    .error (seriesName metric node ++ " still present (" ++ NumberLayout.metric.text actual ++ ")")

def topicCounts (b : Bench) : KeyMap Nat :=
  b.bus.published.foldl (fun m p => m.insert p.topic ((m.get? p.topic).getD 0 + 1)) ∅

end Bench
end MeshTelemetry
