import MeshTelemetry.Json.Value

/-! Messages as a gateway sends them, for trying out a service. -/

set_option autoImplicit false

namespace MeshTelemetry.Sample

def telemetry (now : Int) (sender : UInt32) (payload : Json) : Json :=
  .ofMembers [
    ("from", .ofNat sender.toNat),
    ("type", .string "telemetry"),
    ("timestamp", .number (.int now)),
    ("payload", payload)]

def device (now : Int) (sender : UInt32) (batteryLevel voltage : Binary64) : Json :=
  telemetry now sender (.ofMembers [
    ("battery_level", .ofFloat batteryLevel),
    ("voltage", .ofFloat voltage),
    ("channel_utilization", .ofFloat (Binary64.ofRatio false 42 10)),
    ("air_util_tx", .ofFloat (Binary64.ofRatio false 8 10)),
    ("uptime_seconds", .ofNat 3600)])

def environment (now : Int) (sender : UInt32) (temperature humidity pressure : Binary64) : Json :=
  telemetry now sender (.ofMembers [
    ("temperature", .ofFloat temperature),
    ("relative_humidity", .ofFloat humidity),
    ("barometric_pressure", .ofFloat pressure)])

def nodeInfo (sender : UInt32) (longName shortName : String) (hardware role : UInt32) : Json :=
  .ofMembers [
    ("from", .ofNat sender.toNat),
    ("type", .string "nodeinfo"),
    ("payload", .ofMembers [
      ("longname", .string longName),
      ("shortname", .string shortName),
      ("hardware", .ofNat hardware.toNat),
      ("role", .ofNat role.toNat)])]

def withSignal (rssi snr : Binary64) : Json → Json
  | .object ms => .ofMembers (ms ++ [("rssi", .ofFloat rssi), ("snr", .ofFloat snr)])
  | v => v

end MeshTelemetry.Sample
