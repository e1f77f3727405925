import DatabaseOperator.Operator.CommandLine
import DatabaseOperator.Operator.Config
import DatabaseOperator.Operator.Probe

namespace DatabaseOperator

namespace Usage

def overview : String :=
  "Scalingo Operator - Scalingo managed PostgreSQL as Kubernetes resources\n\n" ++
  "Usage: scalingo-operator <COMMAND>\n\n" ++
  "Commands:\n" ++
  "  run   Watch PostgreSQL resources and reconcile them\n" ++
  "  crd   Print the PostgreSQL CustomResourceDefinition as YAML\n" ++
  "  help  Print this message or the help of the given subcommand(s)\n\n" ++
  "Options:\n" ++
  "  -h, --help     Print help\n" ++
  "  -V, --version  Print version\n"

def version : String :=
  Probe.programName ++ " " ++ Probe.programVersion ++ "\n"

/-- What is written for a fault, and whether it is an answer to what was asked. -/
def explain : UsageFault → String × Bool
  | .helpWanted => (overview, true)
  | .versionWanted => (version, true)
  | .missingCommand => (overview, false)
  | .unknownCommand => ("error: unrecognized subcommand\n", false)
  | .unknownArgument => ("error: unexpected argument found\n", false)
  | .missingValue => ("error: a value is required for '--health-port <HEALTH_PORT>'\n", false)
  | .surplusValue => ("error: unexpected value found; no more were expected\n", false)
  | .badValue => ("error: invalid value for '--health-port <HEALTH_PORT>'\n", false)
  | .repeatedOption =>
    ("error: the argument '--health-port <HEALTH_PORT>' cannot be used multiple times\n", false)

def configFault (e : ConfigError) : String :=
  "Error: " ++ e.message ++ "\n\nCaused by:\n    " ++ e.cause.message ++ "\n"

/-- The settings with the port that the command gives, if it gives one. -/
def effective (c : Config) (healthPort : Option Nat) : Config :=
  { c with healthPort := healthPort.getD c.healthPort }

def settingNames : List String :=
  ["HEALTH_PORT", "REQUEUE_DELAY_SECONDS", "ERROR_REQUEUE_SECONDS", "WATCH_NAMESPACE",
    "SCALINGO_AUTH_URL", "SCALINGO_API_URL", "SCALINGO_DB_API_URL"]

/-- What is written before the watch starts. -/
def startup (c : Config) : String :=
  "Starting Scalingo operator, port " ++ toString c.healthPort ++ ", namespace " ++
    c.watchNamespace.getD "<all>" ++ ", requeue delay " ++ toString c.requeueDelay ++ "s\n"

end Usage

end DatabaseOperator
