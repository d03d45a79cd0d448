import MeshTelemetry.Bus.Packet

/-! A bus without a broker. It keeps what was published, can be taken offline, and
can be told to refuse one packet. What comes in from the mesh is left in its inbox by hand. -/

set_option autoImplicit false

namespace MeshTelemetry

structure SimulatedBus where
  published : List Packet := []
  available : Bool := true
  /-- The packet to refuse, counted from zero. -/
  refuseAt : Option Nat := none
  /-- Messages that wait to come in. Without a receiver there is no place for them. -/
  inbox : Option (List Packet) := none

namespace SimulatedBus

def publish : Publish SimulatedBus := fun bus p =>
  if !bus.available then (bus, .error (.unavailable "mock bus offline"))
  else if bus.refuseAt = some bus.published.length then
    (bus, .error (.refused p.topic "refused by mock"))
  else ({ bus with published := bus.published ++ [p] }, .ok ())

def clear (bus : SimulatedBus) : SimulatedBus := { inbox := bus.inbox }

def simulate (bus : SimulatedBus) (p : Packet) : Except String SimulatedBus :=
  match bus.inbox with
  | some waiting => .ok { bus with inbox := some (waiting ++ [p]) }
  | none => .error "no receiver set up for simulated messages"

def waiting (bus : SimulatedBus) : List Packet := bus.inbox.getD []

def drain (bus : SimulatedBus) : SimulatedBus := { bus with inbox := bus.inbox.map fun _ => [] }

def onTopic (bus : SimulatedBus) (topic : String) : List Packet :=
  bus.published.filter fun p => p.topic = topic

end SimulatedBus
end MeshTelemetry
