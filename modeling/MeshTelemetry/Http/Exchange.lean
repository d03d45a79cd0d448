import MeshTelemetry.Http.MediaType
import MeshTelemetry.Json.Value

/-! Requests and responses of the service's interface. -/

set_option autoImplicit false

namespace MeshTelemetry.Http

structure Request where
  method : String
  target : String
  contentType : Option String := none
  body : ByteArray := ByteArray.empty

inductive Body
  | empty
  | json (v : Json)
  | text (s : String)

structure Response where
  status : Nat
  contentType : Option String := none
  body : Body := .empty

def Request.path (r : Request) : String :=
  String.ofList (r.target.toList.takeWhile fun c => c != '?' && c != '#')

def Request.hasJson (r : Request) : Bool :=
  ((r.contentType.bind MediaType.ofHeader?).map MediaType.isJson).getD false

def Response.bare (status : Nat) : Response := { status }

def Response.ofJson (status : Nat) (v : Json) : Response :=
  ⟨status, some "application/json", .json v⟩

/-- Answer a request to read: in full, or without the body if only the header is
asked for. -/
def Request.answerRead (r : Request) (response : Response) : Response :=
  if r.method = "GET" then response
  else if r.method = "HEAD" then { response with body := .empty }
  else .bare 405

end MeshTelemetry.Http
