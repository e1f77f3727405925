import DatabaseOperator.Provider.Client

namespace DatabaseOperator

structure SimulatedServer where
  routes : Dictionary (List Response)
  /-- No request reaches a server that is not. -/
  reachable : Bool
  /-- The requests that reached it. -/
  received : List Request

namespace SimulatedServer

/-- The method and the target of a request. -/
def routeOf (r : Request) : String :=
  r.method.name ++ " " ++ r.url.target

/-- The answer to a request; what the script does not name is not found. -/
def reply (s : SimulatedServer) (r : Request) : Response × SimulatedServer :=
  match s.routes.get? (routeOf r) with
  | some [last] => (last, s)
  | some (next :: rest) => (next, { s with routes := s.routes.insert (routeOf r) rest })
  | _ => (⟨404, ""⟩, s)

def answer (r : Request) : StateM SimulatedServer (Option Response) := do
  let s ← get
  if s.reachable then
    let (response, s) := s.reply r
    set { s with received := s.received ++ [r] }
    pure (some response)
  else pure none

end SimulatedServer

/-- A client in use, with its bearer token if it has one, and the server it talks to. -/
structure Session where
  client : Client
  bearer : Option String
  server : SimulatedServer

namespace Session

/-- Carries out a call to the provider. -/
def perform (c : ProviderCall) : StateM Session (Except ProviderError c.Result) := do
  let s ← get
  let ((result, bearer), server) :=
    Id.run (((s.client.perform c).run.run s.bearer).serve SimulatedServer.answer |>.run s.server)
  set { s with bearer := bearer, server := server }
  pure result

end Session

end DatabaseOperator
