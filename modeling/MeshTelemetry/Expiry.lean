import MeshTelemetry.Exporter

/-! Expiry of silent nodes. A sweep first collects the nodes that have been silent
too long and then expires them one by one; a node that is heard in between is
spared, because its last instant is no longer the one collected. -/

set_option autoImplicit false

namespace MeshTelemetry

def nanosPerSecond : Nat := 1000000000

namespace Exporter

def candidates (e : Exporter) (ttl : Nat) (now : Int) : List (String × Int) :=
  if ttl = 0 then [] else e.activity.silent ttl now

/-- Expire a node, unless it was heard again since it was collected. -/
def expire? (e : Exporter) (candidate : String × Int) : Option Exporter :=
  (e.activity.forget? candidate).map fun activity =>
    { e with activity, store := (e.store.expireNode candidate.1).1 }

def expireAll (e : Exporter) : List (String × Int) → Exporter × List String
  | [] => (e, [])
  | c :: cs =>
    match e.expire? c with
    | none => e.expireAll cs
    | some e =>
      let (e, gone) := e.expireAll cs
      (e, c.1 :: gone)

def sweep (e : Exporter) (ttl : Nat) (now : Int) : Exporter × List String :=
  e.expireAll (e.candidates ttl now)

end Exporter

/-- How long a node may be silent and how often to look, in nanoseconds. -/
structure ExpiryPolicy where
  ttl : Nat
  interval : Nat
deriving DecidableEq

namespace ExpiryPolicy

def leastInterval : Nat := nanosPerSecond

def defaultInterval (ttl : Nat) : Nat := max (ttl / 6) leastInterval

def ofTtl (ttl : Nat) : ExpiryPolicy := ⟨ttl, defaultInterval ttl⟩

def withInterval (p : ExpiryPolicy) (interval : Nat) : ExpiryPolicy :=
  { p with interval := max interval leastInterval }

def isEnabled (p : ExpiryPolicy) : Bool := p.ttl != 0

end ExpiryPolicy

/-- How often a periodic task has run after some time. It first runs after one
whole period; a period of zero is no period, and the task never runs. -/
def periodicRuns (period elapsed : Nat) : Nat := elapsed / period

end MeshTelemetry
