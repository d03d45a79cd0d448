import MeshTelemetry.Yaml.Node

/-! Reading a YAML document as data of a known shape. What a text without quotes means
depends on what is read: the same one may be a number, a word, or nothing. -/

set_option autoImplicit false

namespace MeshTelemetry.Yaml

/-- How a node is read, given what its aliases stand for; none if it has another shape. -/
abbrev Reader (α : Type) := Table Nat Node → Node → Option α

namespace Reader

def target? (anchors : Table Nat Node) : Node → Option Node
  | .alias n => anchors.get? n
  | n => some n

def string : Reader String := fun anchors n => do
  match ← target? anchors n with
  | .scalar text _ _ => some text
  | _ => none

def intTag : String := "tag:yaml.org,2002:int"

def nullTag : String := "tag:yaml.org,2002:null"

/-- An unsigned number below a limit: decimal without zeros in front, or in radix
sixteen, eight or two behind a mark. -/
def unsigned? (limit : Nat) (text : String) : Option Nat :=
  match Radix.dropPlus text.toList with
  | '0' :: 'x' :: digits => Radix.read? 16 limit digits
  | '0' :: 'o' :: digits => Radix.read? 8 limit digits
  | '0' :: 'b' :: digits => Radix.read? 2 limit digits
  | '0' :: _ :: _ => none
  | digits => Radix.read? 10 limit digits

/-- A number has no quotes, or is a block that its tag calls a number. -/
def unsigned (limit : Nat) : Reader Nat := fun anchors n => do
  match ← target? anchors n with
  | .scalar text style tag =>
    if style = .plain ∨ (style = .literal ∧ tag = some intTag) then unsigned? limit text else none
  | _ => none

def nullWords : List String := ["~", "null", "Null", "NULL"]

def isNothing? : Node → Option Bool
  | .scalar text .plain none => some (text.isEmpty || nullWords.contains text)
  | .scalar text .plain (some tag) =>
    if tag = nullTag then if nullWords.contains text then some true else none else some false
  | _ => some false

def option {α : Type} (read : Reader α) : Reader (Option α) := fun anchors n => do
  let n ← target? anchors n
  if ← isNothing? n then some none
  else (read anchors n).map some

def isLeftOut : Node → Bool
  | .scalar text .plain _ => text.isEmpty
  | _ => false

def list {α : Type} (read : Reader α) : Reader (List α) := fun anchors n => do
  match ← target? anchors n with
  | .sequence items => items.mapM (read anchors)
  | n => if isLeftOut n then some [] else none

/-- One member of a record. A field comes at most once; other members are skipped. -/
def field {δ : Type} (fields : List String) (read : String → δ → Reader δ)
    (anchors : Table Nat Node) (state : δ × List String) (member : Node × Node) :
    Option (δ × List String) := do
  let key ← string anchors member.1
  if key ∈ fields then
    if key ∈ state.2 then none
    else some (← read key state.1 anchors member.2, key :: state.2)
  else some state

/-- A record with these fields. Fields that are left out leave the draft as it is. -/
def record {δ : Type} (fields : List String) (draft : δ) (read : String → δ → Reader δ) :
    Reader δ := fun anchors n => do
  match ← target? anchors n with
  | .mapping members => (members.foldlM (field fields read anchors) (draft, [])).map Prod.fst
  | n => if isLeftOut n then some draft else none

end Reader

def readText {α : Type} (read : Reader α) (s : String) : Option α := do
  let d ← Document.ofText? s
  read d.anchors d.root

end MeshTelemetry.Yaml
