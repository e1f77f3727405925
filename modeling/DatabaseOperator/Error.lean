import DatabaseOperator.Validation

namespace DatabaseOperator

/-- What a library says of a failure of its own, and what it gives as the causes, outermost first. -/
structure Foreign where
  text : String
  causes : List String

/-- The libraries that fail with texts of their own: the HTTP client, the client of the cluster and the
writer of JSON. -/
structure Libraries where
  transport : Foreign
  cluster : Option Nat → Foreign
  serialization : Foreign

/-- Marks in the place of the texts of the libraries. -/
def Libraries.masked : Libraries :=
  ⟨⟨"<transport>", []⟩, fun _ => ⟨"<kube>", []⟩, ⟨"<serde>", []⟩⟩

inductive ProviderError
  | notFound (what : String)
  | api (status : Nat) (message : String)
  | transport
  | invalidResponse (detail : String)
  | invalid (cause : ValidationError)
  | featureFailed (name message : String)
  | emptyToken
  | other (message : String)
  deriving DecidableEq, Repr

namespace ProviderError

def text (l : Libraries) : ProviderError → String
  | notFound what => "not found: " ++ what
  | api status message => "api error (" ++ toString status ++ "): " ++ message
  | transport => "http transport: " ++ l.transport.text
  | invalidResponse detail => "invalid response: " ++ detail
  | invalid cause => cause.message
  | featureFailed name message => "feature " ++ name ++ " failed: " ++ message
  | emptyToken => "empty token"
  | other message => message

/-- What is below a failure of the provider. A refused value has no cause below its own. -/
def causes (l : Libraries) : ProviderError → List String
  | transport => l.transport.text :: l.transport.causes
  | _ => []

def message (e : ProviderError) : String :=
  e.text .masked

/-- An answer that is not of the form expected of it. -/
def undecodable (what : String) : ProviderError :=
  invalidResponse (what ++ ": <decode>")

end ProviderError

inductive StoreError
  | conflict (object : String)
  | notFound (object : String)
  | invalidData (detail : String)
  | cluster (code : Option Nat)
  | serialization
  deriving DecidableEq, Repr

namespace StoreError

/-- A refusal by the cluster carries the code of its answer, other faults of the connection to it
carry none. -/
def text (l : Libraries) : StoreError → String
  | conflict object => "conflict writing " ++ object
  | notFound object => object ++ " not found"
  | invalidData detail => "invalid data: " ++ detail
  | cluster code => (l.cluster code).text
  | serialization => l.serialization.text

/-- What is below a failure of a store. The failures of the libraries stand for themselves there, so only
their causes are below. -/
def causes (l : Libraries) : StoreError → List String
  | cluster code => (l.cluster code).causes
  | serialization => l.serialization.causes
  | _ => []

def message (e : StoreError) : String :=
  e.text .masked

end StoreError

inductive Error
  | invalid (cause : ValidationError)
  | empty (field : String)
  | precondition (message : String)
  | provider (action : String) (cause : ProviderError)
  | store (action : String) (cause : StoreError)
  | phase (action : String) (cause : Error)
  deriving DecidableEq, Repr

namespace Error

def text (l : Libraries) : Error → String
  | invalid cause => cause.message
  | empty field => "empty " ++ field
  | precondition message => message
  | provider action cause => action ++ ": " ++ cause.text l
  | store action cause => action ++ ": " ++ cause.text l
  | phase action cause => action ++ ": " ++ cause.text l

/-- The texts of the causes below a failure, outermost first. -/
def causes (l : Libraries) : Error → List String
  | invalid _ => []
  | empty _ => []
  | precondition _ => []
  | provider _ cause => cause.text l :: cause.causes l
  | store _ cause => cause.text l :: cause.causes l
  | phase _ cause => cause.text l :: cause.causes l

def message (e : Error) : String :=
  e.text .masked

def sources (e : Error) : List String :=
  e.causes .masked

/-- What the failure is about, without the steps around it. -/
def root : Error → Error
  | phase _ cause => cause.root
  | e => e

/-- The number of steps around the first cause. -/
def depth : Error → Nat
  | phase _ cause => cause.depth + 1
  | _ => 0

/-- Whether something remote or stored was missing. -/
def isNotFound : Error → Bool
  | provider _ (.notFound _) => true
  | store _ (.notFound _) => true
  | phase _ cause => cause.isNotFound
  | _ => false

/-- Whether a write lost against another one. -/
def isConflict : Error → Bool
  | store _ (.conflict _) => true
  | phase _ cause => cause.isConflict
  | _ => false

end Error

/-- Names the step in which a failure of a certain kind happened. -/
class Wrap (ε : Type) where
  wrap : String → ε → Error

instance : Wrap ProviderError := ⟨.provider⟩

instance : Wrap StoreError := ⟨.store⟩

instance : Wrap ValidationError := ⟨fun action cause => .phase action (.invalid cause)⟩

instance : Wrap Error := ⟨.phase⟩

end DatabaseOperator
