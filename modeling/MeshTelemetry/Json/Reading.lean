import MeshTelemetry.Json.Document

/-! Reading a document as data of a known shape. The parts are read in the order
of the text and the first fault counts, so a text can be told to have the wrong
shape before it is known to break. -/

set_option autoImplicit false

namespace MeshTelemetry.Json

inductive ReadError
  | malformed
  | mismatched
deriving DecidableEq

namespace Document

def mismatch {α : Type} : Document → Except ReadError α
  | .number none | .string none | .broken => .error .malformed
  | _ => .error .mismatched

/-- Pass over a value that nobody reads. Only its form counts. -/
def skip : Document → Except ReadError Unit
  | .broken => .error .malformed
  | .array _ ended | .object _ ended => if ended then .ok () else .error .malformed
  | _ => .ok ()

def readString : Document → Except ReadError String
  | .string (some s) => .ok s
  | d => d.mismatch

def readInt (low high : Int) : Document → Except ReadError Int
  | .number (some (.int i)) => if low ≤ i ∧ i ≤ high then .ok i else .error .mismatched
  | d => d.mismatch

def readSigned64 : Document → Except ReadError Int := readInt leastSigned64 greatestSigned64

def readUInt32 (d : Document) : Except ReadError UInt32 :=
  (d.readInt 0 4294967295).map fun i => UInt32.ofNat i.toNat

def readFloat : Document → Except ReadError Binary64
  | .number (some n) => .ok n.toFloat
  | d => d.mismatch

def readOption {α : Type} (read : Document → Except ReadError α) :
    Document → Except ReadError (Option α)
  | .null => .ok none
  | d => (read d).map some

def readList {α : Type} (read : Document → Except ReadError α) :
    Document → Except ReadError (List α)
  | .array items ended => do
    let xs ← items.mapM read
    if ended then pure xs else throw .malformed
  | d => d.mismatch

def readEntry {α : Type} (read : Document → Except ReadError α)
    (entry : Option String × Document) : Except ReadError (String × α) := do
  match entry.1 with
  | some key => pure (key, ← read entry.2)
  | none => throw .malformed

def readEntries {α : Type} (read : Document → Except ReadError α) :
    Document → Except ReadError (List (String × α))
  | .object members ended => do
    let entries ← members.mapM (readEntry read)
    if ended then pure entries else throw .malformed
  | d => d.mismatch

/-- One member of a record. A field comes at most once; other members are skipped. -/
def readField {δ : Type} (fields : List String)
    (read : String → Document → δ → Except ReadError δ)
    (state : δ × List String) (entry : Option String × Document) :
    Except ReadError (δ × List String) := do
  match entry.1 with
  | none => throw .malformed
  | some key =>
    if key ∈ fields then
      if key ∈ state.2 then throw .mismatched
      else pure (← read key entry.2 state.1, key :: state.2)
    else
      entry.2.skip
      pure state

/-- A record with these fields: an object with them as members, or an array with
them in order. Fields that are left out leave the draft as it is. -/
def readRecord {δ : Type} (fields : List String) (draft : δ)
    (read : String → Document → δ → Except ReadError δ) : Document → Except ReadError δ
  | .object members ended => do
    let state ← members.foldlM (readField fields read) (draft, [])
    if ended then pure state.1 else throw .malformed
  | .array items ended => do
    let draft ← (fields.zip items).foldlM (fun draft field => read field.1 field.2 draft) draft
    if ended ∧ items.length ≤ fields.length then pure draft else throw .malformed
  | d => d.mismatch

def required {α : Type} : Option α → Except ReadError α
  | some a => .ok a
  | none => .error .mismatched

end Document

def readText {α : Type} (read : Document → Except ReadError α) (cs : List Text.Symbol) :
    Except ReadError α := do
  let (d, ended) := Document.parse cs
  let a ← read d
  if ended then pure a else throw .malformed

end MeshTelemetry.Json
