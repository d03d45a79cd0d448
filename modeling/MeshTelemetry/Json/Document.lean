import MeshTelemetry.Json.Token

/-! A JSON text as a tree, as far as the text goes. Containers that are still
open are kept aside in a list of frames, so nesting costs no stack. A text that
breaks off still gives a tree: what was read stands, the containers around the
break are marked as not ended, and a reader meets the parts in the order of the
text. -/

set_option autoImplicit false

namespace MeshTelemetry.Json

open Text (Symbol)

/-- Keys, numbers and strings without a value are `none`; `broken` stands where a
value should be and is not. -/
inductive Document
  | null
  | bool (b : Bool)
  | number (value : Option Number)
  | string (value : Option String)
  | array (items : List Document) (ended : Bool)
  | object (members : List (Option String × Document)) (ended : Bool)
  | broken
deriving Inhabited

namespace Document

inductive Frame
  | array (items : List Document)
  | member (members : List (Option String × Document)) (key : Option String)

inductive Stage
  | value
  | arrayOpened
  | objectOpened
  | key (members : List (Option String × Document))
  | colon (members : List (Option String × Document)) (key : Option String)
  | after (d : Document)

structure State where
  frames : List Frame
  stage : Stage

def State.enter (frames : List Frame) : Token → Option State
  | .null => some ⟨frames, .after .null⟩
  | .bool b => some ⟨frames, .after (.bool b)⟩
  | .number n => some ⟨frames, .after (.number n)⟩
  | .string s => some ⟨frames, .after (.string s)⟩
  | .openArray => some ⟨frames, .arrayOpened⟩
  | .openObject => some ⟨frames, .objectOpened⟩
  | _ => none

def State.step (s : State) (t : Token) : Option State :=
  match s.stage with
  | .value => enter s.frames t
  | .arrayOpened =>
    match t with
    | .closeArray => some ⟨s.frames, .after (.array [] true)⟩
    | t => enter (.array [] :: s.frames) t
  | .objectOpened =>
    match t with
    | .closeObject => some ⟨s.frames, .after (.object [] true)⟩
    | .string k => some ⟨s.frames, .colon [] k⟩
    | _ => none
  | .key ms =>
    match t with
    | .string k => some ⟨s.frames, .colon ms k⟩
    | _ => none
  | .colon ms k =>
    match t with
    | .colon => some ⟨.member ms k :: s.frames, .value⟩
    | _ => none
  | .after d =>
    match s.frames, t with
    | .array items :: outer, .comma => some ⟨.array (d :: items) :: outer, .value⟩
    | .array items :: outer, .closeArray => some ⟨outer, .after (.array (d :: items).reverse true)⟩
    | .member ms k :: outer, .comma => some ⟨outer, .key ((k, d) :: ms)⟩
    | .member ms k :: outer, .closeObject =>
      some ⟨outer, .after (.object ((k, d) :: ms).reverse true)⟩
    | _, _ => none

/-- A part that ends where the text broke, put into the container around it. -/
def Frame.close (d : Document) : Frame → Document
  | .array items => .array (d :: items).reverse false
  | .member ms k => .object ((k, d) :: ms).reverse false

def closeAll (d : Document) (frames : List Frame) : Document := frames.foldl Frame.close d

def State.close (s : State) : Document :=
  match s.stage with
  | .value =>
    match s.frames with
    | .array items :: outer => closeAll (.array items.reverse false) outer
    | frames => closeAll .broken frames
  | .arrayOpened => closeAll (.array [] false) s.frames
  | .objectOpened => closeAll (.object [] false) s.frames
  | .key ms => closeAll (.object ms.reverse false) s.frames
  | .colon ms k => closeAll (.object ((k, .broken) :: ms).reverse false) s.frames
  | .after d => closeAll d s.frames

def State.run (s : State) : List Token → Document × Bool
  | [] =>
    match s.frames, s.stage with
    | [], .after d => (d, true)
    | _, _ => (s.close, false)
  | t :: ts =>
    match s.step t with
    | some s => s.run ts
    | none => (s.close, false)

def parse (cs : List Symbol) : Document × Bool := State.run ⟨[], .value⟩ (Token.all cs)

/-! Documents as values -/

mutual

/-- The value of a document, if all of it has one and no more than `room`
containers lie within one another. -/
def value? (room : Nat) : Document → Option Json
  | .null => some .null
  | .bool b => some (.bool b)
  | .number n => n.map .number
  | .string s => s.map .string
  | .array items ended =>
    match room with
    | 0 => none
    | room + 1 => if ended then (itemValues? room [] items).map .array else none
  | .object members ended =>
    match room with
    | 0 => none
    | room + 1 => if ended then (memberValues? room [] members).map .object else none
  | .broken => none

def itemValues? (room : Nat) (acc : List Json) : List Document → Option (List Json)
  | [] => some acc.reverse
  | d :: ds =>
    match d.value? room with
    | some v => itemValues? room (v :: acc) ds
    | none => none

def memberValues? (room : Nat) (acc : Members) :
    List (Option String × Document) → Option Members
  | [] => some acc
  | (some k, d) :: ds =>
    match d.value? room with
    | some v => memberValues? room (KeyMap.put k v acc) ds
    | none => none
  | (none, _) :: _ => none

end

mutual

def ofValue : Json → Document
  | .null => .null
  | .bool b => .bool b
  | .number n => .number (some n)
  | .string s => .string (some s)
  | .array items => .array (ofItems items) true
  | .object ms => .object (ofMembers ms) true

def ofItems : List Json → List Document
  | [] => []
  | v :: vs => ofValue v :: ofItems vs

def ofMembers : List (String × Json) → List (Option String × Document)
  | [] => []
  | (k, v) :: ms => (some k, ofValue v) :: ofMembers ms

end

end Document

/-- Containers may lie 127 deep within one another. -/
def nestingRoom : Nat := 127

def decode? (cs : List Symbol) : Option Json :=
  let (d, ended) := Document.parse cs
  if ended then d.value? nestingRoom else none

end MeshTelemetry.Json
