import DatabaseOperator.Dialogue
import DatabaseOperator.Http.Url
import DatabaseOperator.Json.Value

namespace DatabaseOperator

inductive Method
  | get
  | post
  | patch
  | delete
  | put
  deriving DecidableEq, Repr

def Method.name : Method → String
  | get => "GET"
  | post => "POST"
  | patch => "PATCH"
  | delete => "DELETE"
  | put => "PUT"

structure Request where
  method : Method
  url : Url
  authorization : String
  body : Option Json

/-- What the client of HTTP hands over for a request, after it has followed redirects. -/
structure Response where
  status : Nat
  body : String
  deriving DecidableEq, Repr

def Response.isSuccess (r : Response) : Bool :=
  200 ≤ r.status && r.status < 300

/-- The text of an answer, of which a byte order mark at the start is no part. -/
def Response.text (r : Response) : String :=
  match r.body.toList with
  | '\ufeff' :: rest => String.ofList rest
  | _ => r.body

/-- A request that reaches no server has no answer. -/
def http : Interface :=
  ⟨Request, fun _ => Option Response⟩

/-- Whether a text can be the value of a header. -/
def isHeaderValue (s : String) : Bool :=
  s.toList.all fun c => (32 ≤ c.toNat && c.toNat ≠ 127) || c = '\t'

end DatabaseOperator
