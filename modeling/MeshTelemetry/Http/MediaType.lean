/-! Media types, as the header that names the type of a body gives them. -/

set_option autoImplicit false

namespace MeshTelemetry

structure MediaType where
  type : String
  subtype : String
  suffix : Option String
deriving DecidableEq

namespace MediaType

def tokenMarks : List Char :=
  ['!', '#', '$', '%', '&', '\'', '+', '-', '.', '^', '_', '\x60', '|', '~']

def isTokenChar (c : Char) : Bool := c.isAlphanum || tokenMarks.contains c

def isQuotable (c : Char) : Bool := decide (' ' ≤ c ∧ c ≤ '~')

inductive ParameterStage
  | start
  | name
  | valueStart
  | value
  | quotedStart
  | quoted
  | quoteClosed

namespace ParameterStage

/-- Take one character; none where it does not belong. A quoted value is not empty. -/
def step : ParameterStage → Char → Option ParameterStage
  | start, c => if c = ' ' then some start else if isTokenChar c then some name else none
  | name, c => if c = '=' then some valueStart else if isTokenChar c then some name else none
  | valueStart, c =>
    if c = '"' then some quotedStart else if isTokenChar c then some value else none
  | value, c => if c = ';' then some start else if isTokenChar c then some value else none
  | quotedStart, c => if isQuotable c then some quoted else none
  | quoted, c => if c = '"' then some quoteClosed else if isQuotable c then some quoted else none
  | quoteClosed, c =>
    if c = ';' then some start else if c = ' ' then some quoteClosed else none

def mayEnd : ParameterStage → Bool
  | start | valueStart | value | quoteClosed => true
  | _ => false

end ParameterStage

def areParameters (cs : List Char) : Bool :=
  ((cs.foldlM ParameterStage.step .start).map ParameterStage.mayEnd).getD false

/-- A subtype cut at its last plus, unless that stands in front. -/
def cutSuffix (cs : List Char) : List Char × Option (List Char) :=
  match (cs.drop 1).reverse.span (· != '+') with
  | (_, []) => (cs, none)
  | (after, _ :: before) => (cs.take 1 ++ before.reverse, some after.reverse)

def lowered (cs : List Char) : String := String.ofList (cs.map Char.toLower)

def ofParts (type subtype : List Char) : MediaType :=
  let (subtype, suffix) := cutSuffix subtype
  ⟨lowered type, lowered subtype, suffix.map lowered⟩

def ofHeader? (s : String) : Option MediaType :=
  match s.toList.span isTokenChar with
  | ([], _) => none
  | (type, '/' :: rest) =>
    match rest.span isTokenChar with
    | (subtype, []) => some (ofParts type subtype)
    | ([], _) => none
    | (subtype, ';' :: parameters) =>
      if areParameters parameters then some (ofParts type subtype) else none
    | _ => none
  | _ => none

def isJson (m : MediaType) : Bool :=
  m.type == "application" && (m.subtype == "json" || m.suffix == some "json")

end MediaType
end MeshTelemetry
