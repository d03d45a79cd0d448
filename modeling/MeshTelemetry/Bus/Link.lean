import MeshTelemetry.Bus.Packet
import MeshTelemetry.Text.Blank

/-! The link to a broker: its status, and the queue of packets that wait to be
sent. Publishing never blocks: a packet is queued or refused at once. -/

set_option autoImplicit false

namespace MeshTelemetry

inductive LinkStatus
  | connecting
  | connected
  | reconnecting
  | disconnected
deriving DecidableEq

def LinkStatus.name : LinkStatus → String
  | connecting => "connecting"
  | connected => "connected"
  | reconnecting => "reconnecting"
  | disconnected => "disconnected"

structure LinkSettings where
  host : String := "localhost"
  port : Nat := 1883
  /-- A blank one stands for a fresh one. -/
  clientId : String := ""
  keepAliveSeconds : Nat := 15
  capacity : Nat := 100
deriving DecidableEq

namespace LinkSettings

def clientIdOr (s : LinkSettings) (fresh : String) : String :=
  if Text.isBlankText s.clientId then "meshwatch-" ++ fresh else s.clientId

def keepAlive (s : LinkSettings) : Nat := max s.keepAliveSeconds 5

def queueLimit (s : LinkSettings) : Nat := max s.capacity 10

end LinkSettings

structure Outbox where
  waiting : List Packet := []
  limit : Nat

namespace Outbox

/-- A topic to publish on names one topic and is no pattern. -/
def isTopic (topic : String) : Bool := !topic.toList.any fun c => c == '+' || c == '#'

def push : Publish Outbox := fun box p =>
  if !isTopic p.topic then (box, .error (.refused p.topic "invalid topic"))
  else if box.limit ≤ box.waiting.length then (box, .error (.refused p.topic "queue is full"))
  else ({ box with waiting := box.waiting ++ [p] }, .ok ())

def publish (status : LinkStatus) : Publish Outbox := fun box p =>
  if status = .connected then box.push p
  else (box, .error (.unavailable ("mqtt is " ++ status.name)))

end Outbox
end MeshTelemetry
