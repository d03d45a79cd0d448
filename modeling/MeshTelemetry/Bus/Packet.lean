/-! What travels on the bus, and why the bus may not take it. -/

set_option autoImplicit false

namespace MeshTelemetry

structure Packet where
  topic : String
  payload : ByteArray

inductive NetworkError
  | unavailable (reason : String)
  | refused (topic reason : String)
deriving DecidableEq

def NetworkError.message : NetworkError → String
  | unavailable reason => "transport unavailable: " ++ reason
  | refused topic reason => "publish to '" ++ topic ++ "' failed: " ++ reason

/-- How a transport publishes a packet. Its state may change even if it refuses. -/
abbrev Publish (σ : Type) := σ → Packet → σ × Except NetworkError Unit

def Publish.all {σ : Type} (publish : Publish σ) (s : σ) :
    List Packet → σ × Except NetworkError Unit
  | [] => (s, .ok ())
  | p :: ps =>
    match publish s p with
    | (s, .ok ()) => publish.all s ps
    | (s, .error e) => (s, .error e)

end MeshTelemetry
