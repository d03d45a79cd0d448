import MeshTelemetry.Alert.Downlink
import MeshTelemetry.Message.Rejection
import MeshTelemetry.Text.Ellipsis

/-! Dispatch of alerts. An alert becomes one message for each recipient, published
in order; what the bus does not take ends the delivery, and nothing is retried. -/

set_option autoImplicit false

namespace MeshTelemetry

def everyNode : UInt32 := 0xFFFFFFFF

structure DispatchSettings where
  channel : String := "LongFast"
  mode : DeliveryMode := .broadcast
  targets : List UInt32 := []
  sender : UInt32 := 0
  topicRoot : String := "msh/US"
  textLimit : Nat := 200
deriving DecidableEq

def alertMark : String := "[ALERT] "

/-- The least limit that leaves room for the mark and an ellipsis. -/
def leastTextLimit : Nat := alertMark.length + Text.ellipsis.length

inductive DispatchError
  | rejected (r : Rejection)
  | network (e : NetworkError)
deriving DecidableEq

namespace DispatchSettings

def trimmedRoot (s : DispatchSettings) : String :=
  String.ofList (s.topicRoot.toList.reverse.dropWhile (· == '/')).reverse

def topic (s : DispatchSettings) (channel : String) : String :=
  channelTopic s.trimmedRoot channel s.sender

/-- The channel of an alert; a blank one is none. -/
def channelOf (s : DispatchSettings) (a : Alert) : String :=
  (a.channel.filter fun c => !Text.isBlankText c).getD s.channel

def modeOf (s : DispatchSettings) (a : Alert) : DeliveryMode := a.mode.getD s.mode

def textOf (s : DispatchSettings) (a : Alert) : String :=
  Text.truncate s.textLimit (alertMark ++ a.message)

def recipients (s : DispatchSettings) (a : Alert) : List UInt32 :=
  match s.modeOf a with
  | .broadcast => [everyNode]
  | .direct => if a.targets.isEmpty then s.targets else a.targets

def downlink (s : DispatchSettings) (a : Alert) (recipient : UInt32) : Downlink :=
  ⟨"text", s.textOf a, s.sender, recipient⟩

def packets (s : DispatchSettings) (a : Alert) : List Packet :=
  (s.recipients a).map fun r => (s.downlink a r).toPacket (s.topic (s.channelOf a))

def send {σ : Type} (s : DispatchSettings) (publisher : Option (Publish σ)) (bus : σ)
    (a : Alert) : σ × Except DispatchError Nat :=
  match publisher with
  | none => (bus, .error (.network (.unavailable "no publisher attached")))
  | some publish =>
    if (s.recipients a).isEmpty then (bus, .error (.rejected .noTargets))
    else
      let (bus, result) := publish.all bus (s.packets a)
      (bus, (result.map fun _ => (s.packets a).length).mapError .network)

end DispatchSettings
end MeshTelemetry
