import MeshTelemetry.Json.Value
import MeshTelemetry.Metrics.Gauge

/-! The measurements a message can carry. A reading that is absent, of the wrong
type or not finite is no reading, and never an error. -/

set_option autoImplicit false

namespace MeshTelemetry

structure Readings where
  batteryLevel : Option Binary64 := none
  voltage : Option Binary64 := none
  uptime : Option Binary64 := none
  temperature : Option Binary64 := none
  relativeHumidity : Option Binary64 := none
  barometricPressure : Option Binary64 := none
  channelUtilization : Option Binary64 := none
  airUtilTx : Option Binary64 := none
  rssi : Option Binary64 := none
  snr : Option Binary64 := none
deriving DecidableEq

namespace Readings

/-- The reading of a gauge. When a node was last seen is not a reading. -/
def get? (r : Readings) : Gauge → Option Binary64
  | .batteryLevel => r.batteryLevel
  | .voltage => r.voltage
  | .uptime => r.uptime
  | .temperature => r.temperature
  | .relativeHumidity => r.relativeHumidity
  | .barometricPressure => r.barometricPressure
  | .channelUtilization => r.channelUtilization
  | .airUtilTx => r.airUtilTx
  | .rssi => r.rssi
  | .snr => r.snr
  | .lastSeen => none

def number? (ms : Json.Members) (key : String) : Option Binary64 :=
  (Json.member? ms key).bind Json.asFinite?

def ofPayload (ms : Json.Members) : Readings where
  batteryLevel := number? ms "battery_level"
  voltage := number? ms "voltage"
  uptime := number? ms "uptime_seconds"
  temperature := number? ms "temperature"
  relativeHumidity := number? ms "relative_humidity"
  barometricPressure := number? ms "barometric_pressure"
  channelUtilization := number? ms "channel_utilization"
  airUtilTx := number? ms "air_util_tx"
  rssi := number? ms "rssi"
  snr := number? ms "snr"

/-- Two decimals for voltage, environment and channel readings; battery level,
uptime and signal stay as sent. -/
def rounded (r : Readings) : Readings :=
  { r with
    voltage := r.voltage.map Binary64.round2
    temperature := r.temperature.map Binary64.round2
    relativeHumidity := r.relativeHumidity.map Binary64.round2
    barometricPressure := r.barometricPressure.map Binary64.round2
    channelUtilization := r.channelUtilization.map Binary64.round2
    airUtilTx := r.airUtilTx.map Binary64.round2 }

end Readings
end MeshTelemetry
