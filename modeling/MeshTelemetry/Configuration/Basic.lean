import MeshTelemetry.Alert.Dispatch
import MeshTelemetry.Bus.Link
import MeshTelemetry.Expiry
import MeshTelemetry.Net.SocketAddress

/-! What can be configured, with its defaults, and which configurations a service can
run with. -/

set_option autoImplicit false

namespace MeshTelemetry

/-- Where the state is kept. A blank path means nowhere. -/
structure StateSettings where
  path : String := "./data/state.json"
  saveIntervalSeconds : Nat := 60
deriving DecidableEq

/-- When silent nodes expire. A span of zero means never. -/
structure ExpirySettings where
  ttlSeconds : Nat := 30 * 60
  intervalSeconds : Option Nat := none
deriving DecidableEq

namespace ExpirySettings

def ttl (s : ExpirySettings) : Nat := s.ttlSeconds * nanosPerSecond

def interval (s : ExpirySettings) : Nat :=
  (s.intervalSeconds.map (· * nanosPerSecond)).getD (ExpiryPolicy.defaultInterval s.ttl)

def policy (s : ExpirySettings) : ExpiryPolicy := (ExpiryPolicy.ofTtl s.ttl).withInterval s.interval

end ExpirySettings

/-- How alerts are sent. Without a sender they are not. -/
structure AlertSettings where
  channel : String := "LongFast"
  mode : String := "broadcast"
  sender : Option UInt32 := none
  targets : List UInt32 := []
  topicRoot : String := "msh/US"
  textLimit : Nat := 200
deriving DecidableEq

def AlertSettings.dispatch (s : AlertSettings) : Option DispatchSettings :=
  s.sender.map fun sender => {
    channel := s.channel
    mode := (DeliveryMode.ofLabel? s.mode).getD .broadcast
    targets := s.targets
    sender
    topicRoot := s.topicRoot
    textLimit := s.textLimit }

structure Configuration where
  link : LinkSettings := {}
  topics : List String := ["msh/#"]
  state : StateSettings := {}
  expiry : ExpirySettings := {}
  alerts : AlertSettings := {}
  listen : String := "0.0.0.0:9464"
deriving DecidableEq

inductive ConfigurationFault
  | emptyHost
  | zeroPort
  | intervalNotShorter (interval ttl : Nat)
  | zeroSaveInterval
  | textLimitTooSmall (limit : Nat)
  | zeroSender
  | badListenAddress (listen : String)
deriving DecidableEq

def ConfigurationFault.message (f : ConfigurationFault) : String :=
  "invalid config: " ++ match f with
    | emptyHost => "mqtt.host is empty"
    | zeroPort => "mqtt.port must be non-zero"
    | intervalNotShorter interval ttl =>
      s!"reaper.interval_secs ({interval}) must be shorter than reaper.ttl_secs ({ttl})"
    | zeroSaveInterval => "state.save_interval_secs must be non-zero"
    | textLimitTooSmall limit => s!"alerts.max_text_len ({limit}) must be at least {leastTextLimit}"
    | zeroSender => "alerts.from_node must be non-zero"
    | badListenAddress listen => "http.listen '" ++ listen ++ "': invalid socket address syntax"

namespace Configuration

def listenAddress (c : Configuration) : Except ConfigurationFault SocketAddress :=
  match SocketAddress.ofText? c.listen with
  | some a => .ok a
  | none => .error (.badListenAddress c.listen)

def checkInterval (s : ExpirySettings) : Except ConfigurationFault Unit :=
  match s.intervalSeconds with
  | some interval =>
    if 0 < s.ttlSeconds ∧ s.ttlSeconds ≤ interval then
      .error (.intervalNotShorter interval s.ttlSeconds)
    else .ok ()
  | none => .ok ()

/-- Check a configuration; of several faults the first counts. -/
def validate (c : Configuration) : Except ConfigurationFault Unit := do
  if Text.isBlankText c.link.host then throw .emptyHost
  if c.link.port = 0 then throw .zeroPort
  checkInterval c.expiry
  if c.state.saveIntervalSeconds = 0 then throw .zeroSaveInterval
  if c.alerts.textLimit < leastTextLimit then throw (.textLimitTooSmall c.alerts.textLimit)
  if c.alerts.sender = some 0 then throw .zeroSender
  let _ ← c.listenAddress

def saveInterval (c : Configuration) : Nat := c.state.saveIntervalSeconds * nanosPerSecond

end Configuration
end MeshTelemetry
