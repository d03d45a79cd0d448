/-! The gauges kept for each node, and their names in the exposition. The names
also tell a snapshot's metrics apart, so no two gauges share one. -/

set_option autoImplicit false

namespace MeshTelemetry

inductive Gauge
  | batteryLevel
  | voltage
  | uptime
  | temperature
  | relativeHumidity
  | barometricPressure
  | channelUtilization
  | airUtilTx
  | rssi
  | snr
  | lastSeen
deriving DecidableEq

namespace Gauge

def all : List Gauge :=
  [batteryLevel, voltage, uptime, temperature, relativeHumidity, barometricPressure,
   channelUtilization, airUtilTx, rssi, snr, lastSeen]

def metricName : Gauge → String
  | batteryLevel => "meshtastic_battery_level_percent"
  | voltage => "meshtastic_voltage_volts"
  | uptime => "meshtastic_uptime_seconds"
  | temperature => "meshtastic_temperature_celsius"
  | relativeHumidity => "meshtastic_relative_humidity_percent"
  | barometricPressure => "meshtastic_barometric_pressure_hpa"
  | channelUtilization => "meshtastic_channel_utilization_percent"
  | airUtilTx => "meshtastic_air_util_tx_percent"
  | rssi => "meshtastic_rssi_dbm"
  | snr => "meshtastic_snr_db"
  | lastSeen => "meshtastic_node_last_seen_timestamp_seconds"

def help : Gauge → String
  | batteryLevel => "Battery level reported by the node (percent)"
  | voltage => "Battery voltage reported by the node (volts)"
  | uptime => "Node uptime (seconds)"
  | temperature => "Environment temperature (celsius)"
  | relativeHumidity => "Environment relative humidity (percent)"
  | barometricPressure => "Environment barometric pressure (hPa)"
  | channelUtilization => "Channel utilization seen by the node (percent)"
  | airUtilTx => "Transmit airtime utilization (percent)"
  | rssi => "Received signal strength of the last packet (dBm)"
  | snr => "Signal to noise ratio of the last packet (dB)"
  | lastSeen => "Unix time of the last message from the node"

/-- Whether a silent node loses the gauge. Signal readings stay. -/
def expires : Gauge → Bool
  | rssi | snr => false
  | _ => true

def ofMetricName? (name : String) : Option Gauge := all.find? fun g => g.metricName == name

theorem mem_all (g : Gauge) : g ∈ all := by cases g <;> decide

end Gauge
end MeshTelemetry
