import DatabaseOperator.Operator.Usage
import DatabaseOperator.Resource.Definition

namespace DatabaseOperator

namespace Program

def environment : IO (List (String × String)) :=
  Usage.settingNames.filterMapM fun name => do
    let value ← IO.getEnv name
    pure (value.map fun v => (name, v))

def runCommand : Command → IO UInt32
  | .crd => do
    IO.print Definition.yaml
    pure 0
  | .run healthPort => do
    let env ← environment
    match Config.load fun name => env.lookup name with
    | .error e => do
      IO.eprint (Usage.configFault e)
      pure 1
    | .ok config => do
      IO.print (Usage.startup (Usage.effective config healthPort))
      IO.eprintln "Error: no connection to a cluster"
      pure 1

def start (args : List String) : IO UInt32 := do
  match CommandLine.parse args with
  | .ok command => runCommand command
  | .error fault =>
    match Usage.explain fault with
    | (message, true) => do
      IO.print message
      pure 0
    | (message, false) => do
      IO.eprint message
      pure 2

end Program

end DatabaseOperator

def main (args : List String) : IO UInt32 :=
  DatabaseOperator.Program.start args
