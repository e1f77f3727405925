import DatabaseOperator.Dictionary

namespace DatabaseOperator

abbrev Failures (ε : Type) : Type :=
  Dictionary (List (Option ε))

namespace Failures

variable {ε : Type}

def next (f : Failures ε) (method : String) : Option ε × Failures ε :=
  match f.get? method with
  | some (cause :: rest) => (cause, f.insert method rest)
  | _ => (none, f)

def add (f : Failures ε) (method : String) (causes : List (Option ε)) : Failures ε :=
  f.insert method ((f.get? method).getD [] ++ causes)

end Failures

end DatabaseOperator
