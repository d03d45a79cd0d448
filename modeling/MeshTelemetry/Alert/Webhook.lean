import MeshTelemetry.Alert.Dispatch
import MeshTelemetry.Alert.Targets

/-! Batches of alerts from an alert manager. Each item becomes an alert of its own;
one that is not delivered does not hold up the others. -/

set_option autoImplicit false

namespace MeshTelemetry

structure WebhookItem where
  status : String := ""
  labels : KeyMap String := ∅
  annotations : KeyMap String := ∅
deriving DecidableEq

structure Webhook where
  status : String := ""
  items : List WebhookItem := []
deriving DecidableEq

namespace WebhookItem

def textLimit : Nat := 200

def isFiring (i : WebhookItem) : Bool := Text.sameIgnoringCase i.status "firing"

def fullText (i : WebhookItem) : String :=
  (if i.isFiring then "🚨" else "✅") ++ " " ++ i.status ++ ": " ++
    (i.labels.get? "alertname").getD "alert" ++
    (match (i.annotations.get? "summary").filter (fun s => !s.isEmpty) with
      | some summary => " - " ++ summary
      | none => "")

def text (i : WebhookItem) : String := Text.truncate textLimit i.fullText

/-- The alert of an item, dated `now`. Labels say where it goes. -/
def toAlert (now : Int) (i : WebhookItem) : Alert where
  severity := (i.labels.get? "severity").getD "unknown"
  message := i.text
  channel := i.labels.get? "channel"
  mode := (i.labels.get? "mode").bind DeliveryMode.ofLabel?
  targets := ((i.labels.get? "targets").map Targets.ofText).getD []
  timestamp := now

def fields : List String := ["status", "labels", "annotations"]

def readPart (key : String) (d : Json.Document) (draft : WebhookItem) :
    Except Json.ReadError WebhookItem := do
  match key with
  | "status" => pure { draft with status := ← d.readString }
  | "labels" => pure { draft with labels := .ofList (← d.readEntries Json.Document.readString) }
  | _ =>
    pure { draft with annotations := .ofList (← d.readEntries Json.Document.readString) }

def read (d : Json.Document) : Except Json.ReadError WebhookItem :=
  d.readRecord fields {} readPart

end WebhookItem

namespace Webhook

def fields : List String := ["status", "alerts"]

def readPart (key : String) (d : Json.Document) (draft : Webhook) :
    Except Json.ReadError Webhook := do
  match key with
  | "status" => pure { draft with status := ← d.readString }
  | _ => pure { draft with items := ← d.readList WebhookItem.read }

def read (d : Json.Document) : Except Json.ReadError Webhook := d.readRecord fields {} readPart

structure Report where
  received : Nat := 0
  sent : Nat := 0
  failed : Nat := 0
deriving DecidableEq

def Report.add (r : Report) : Except DispatchError Nat → Report
  | .ok _ => { r with received := r.received + 1, sent := r.sent + 1 }
  | .error _ => { r with received := r.received + 1, failed := r.failed + 1 }

/-- Whether there was something to deliver and none of it was. -/
def Report.isFailure (r : Report) : Bool := decide (0 < r.failed ∧ r.sent = 0)

def Report.toJson (r : Report) : Json :=
  .object [
    ("received", .ofNat r.received), ("sent", .ofNat r.sent), ("failed", .ofNat r.failed)]

def dispatch {σ : Type} (s : DispatchSettings) (publisher : Option (Publish σ)) (now : Int)
    (bus : σ) (w : Webhook) : σ × Report :=
  w.items.foldl
    (fun (state : σ × Report) item =>
      let (bus, result) := s.send publisher state.1 (item.toAlert now)
      (bus, state.2.add result))
    (bus, {})

end Webhook
end MeshTelemetry
