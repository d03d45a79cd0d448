import MeshTelemetry.Bus.Link
import MeshTelemetry.Exporter

/-! How the exporter fares: the state of its link, and what became of the messages
that came in over it. A count is a natural number, where the service has 64 bits for it;
no service runs long enough to reach 2^64. -/

set_option autoImplicit false

namespace MeshTelemetry

structure Health where
  link : LinkStatus := .connecting
  reconnects : Nat := 0
  processed : Nat := 0
  rejected : Nat := 0
deriving DecidableEq

namespace Health

def markConnected (h : Health) : Health := { h with link := .connected }

def markDisconnected (h : Health) : Health := { h with link := .disconnected }

def countReconnect (h : Health) : Health :=
  { h with link := .reconnecting, reconnects := h.reconnects + 1 }

def isConnected (h : Health) : Bool := h.link == .connected

def statusName (h : Health) : String := if h.isConnected then "ok" else "degraded"

/-- Count a message by what became of it. One that is ignored counts as processed. -/
def countMessage (h : Health) : Except Rejection Outcome → Health
  | .ok _ => { h with processed := h.processed + 1 }
  | .error _ => { h with rejected := h.rejected + 1 }

def toJson (h : Health) (tracked : Nat) : Json :=
  .object [
    ("status", .string h.statusName),
    ("mqtt_status", .string h.link.name),
    ("mqtt_reconnects", .ofNat h.reconnects),
    ("messages_processed", .ofNat h.processed),
    ("messages_rejected", .ofNat h.rejected),
    ("nodes_tracked", .ofNat tracked)]

end Health
end MeshTelemetry
