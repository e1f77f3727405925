import DatabaseOperator.Provider.Endpoint
import DatabaseOperator.Text.Natural

namespace DatabaseOperator

/-- The settings; the delays are in seconds. -/
structure Config where
  healthPort : Nat
  requeueDelay : Nat
  errorDelay : Nat
  watchNamespace : Option String
  endpoints : EndpointOverrides
  deriving DecidableEq, Repr

/-- A variable that is not a number, or not a small enough one. -/
structure ConfigError where
  message : String
  cause : NumeralFault
  deriving DecidableEq, Repr

namespace Config

def nonEmpty (lookup : String → Option String) (key : String) : Option String :=
  (lookup key).filter fun v => !v.isEmpty

def number (lookup : String → Option String) (key message : String) (limit default : Nat) :
    Except ConfigError Nat :=
  match nonEmpty lookup key with
  | none => .ok default
  | some v => (readNatural limit v.toList).mapError fun cause => ⟨message, cause⟩

def seconds (lookup : String → Option String) (key : String) (default : Nat) :
    Except ConfigError Nat :=
  number lookup key (key ++ " must be a number of seconds") limit64 default

/-- The settings, or what is wrong with the first bad variable in the order port, delay, delay after
an error. -/
def load (lookup : String → Option String) : Except ConfigError Config := do
  let healthPort ← number lookup "HEALTH_PORT" "HEALTH_PORT must be a valid port number" limit16 8080
  let requeueDelay ← seconds lookup "REQUEUE_DELAY_SECONDS" 30
  let errorDelay ← seconds lookup "ERROR_REQUEUE_SECONDS" 15
  pure ⟨healthPort, requeueDelay, errorDelay, nonEmpty lookup "WATCH_NAMESPACE",
    ⟨nonEmpty lookup "SCALINGO_AUTH_URL", nonEmpty lookup "SCALINGO_API_URL",
      nonEmpty lookup "SCALINGO_DB_API_URL"⟩⟩

end Config

end DatabaseOperator
