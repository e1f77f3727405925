import DatabaseOperator.Operator.Watch
import DatabaseOperator.Simulation.Provider
import DatabaseOperator.Simulation.Server
import DatabaseOperator.Simulation.Stores

namespace DatabaseOperator

/-- What a journal notes: a call of the operator, or a request of its client. -/
inductive Event
  | call (c : PassCall)
  | request (r : Request)

/-- Where the provider is. -/
inductive Backend
  | memory (p : SimulatedProvider)
  | remote (overrides : EndpointOverrides) (server : SimulatedServer) (session : Option Session)

structure World where
  stores : SimulatedStores
  backend : Backend
  clock : Time
  journal : List Event

namespace World

def note (e : Event) : StateM World Unit :=
  modify fun w => { w with journal := w.journal ++ [e] }

def answerResource (c : ResourceCall) : StateM World (Except StoreError c.Result) := do
  match c with
  | .get _ _ => pure ()
  | .update r => note (.call (.resource (.update r)))
  | .updateStatus r => note (.call (.resource (.updateStatus r)))
  let w ← get
  let (r, stores) := w.stores.answerResource c
  set { w with stores := stores }
  pure r

def answerSecret (c : SecretCall) : StateM World (Except StoreError c.Result) := do
  note (.call (.secret c))
  let w ← get
  let (r, stores) := w.stores.answerSecret c
  set { w with stores := stores }
  pure r

def connect (token region : String) : StateM World (Except ProviderError Unit) := do
  let w ← get
  match w.backend with
  | .memory p =>
    if token.isEmpty then pure (.error .emptyToken)
    else
      note (.call (.connect token region))
      let (r, p) := p.connect
      modify fun w => { w with backend := .memory p }
      pure r
  | .remote overrides server session =>
    match Client.connect overrides token region with
    | .error e => pure (.error e)
    | .ok client =>
      let server := (session.map Session.server).getD server
      modify fun w => { w with backend := .remote overrides server (some ⟨client, none, server⟩) }
      pure (.ok ())

/-- A call before any connection fails. -/
def answerProvider (c : ProviderCall) : StateM World (Except ProviderError c.Result) := do
  let w ← get
  match w.backend with
  | .memory p =>
    note (.call (.provider c))
    let (r, p) := p.answer c
    modify fun w => { w with backend := .memory p }
    pure r
  | .remote _ _ none => pure (.error .transport)
  | .remote overrides server (some s) =>
    let (r, s) := Id.run ((Session.perform c).run { s with server.received := [] })
    s.server.received.forM fun request => note (.request request)
    modify fun w => { w with backend := .remote overrides server (some s) }
    pure r

def answer : (c : PassCall) → StateM World (pass.Answer c)
  | .resource c => answerResource c
  | .secret c => answerSecret c
  | .connect token region => connect token region
  | .provider c => answerProvider c
  | .now => do
    let w ← get
    pure w.clock

/-- Runs work of the operator in a world. -/
def run {α : Type} (task : PassTask α) : StateM World (Except Error α) :=
  task.run.serve answer

end World

end DatabaseOperator
