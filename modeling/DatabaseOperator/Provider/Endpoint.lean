namespace DatabaseOperator

/-- Base addresses that take the place of those of the region. -/
structure EndpointOverrides where
  auth : Option String
  api : Option String
  databaseApi : Option String
  deriving DecidableEq, Repr

structure Endpoints where
  auth : String
  api : String
  databaseApi : String
  deriving DecidableEq, Repr

namespace Endpoints

def stagingRegion : String := "osc-st-fr1"

def ofRegion (region : String) : Endpoints where
  auth := if region = stagingRegion then "https://auth.st-sc.fr" else "https://auth.scalingo.com"
  api := "https://api." ++ region ++ ".scalingo.com"
  databaseApi := "https://db-api." ++ region ++ ".scalingo.com"

/-- An address without the slashes at its end. -/
def trimmed (address : String) : String :=
  String.ofList (address.toList.reverse.dropWhile (· = '/')).reverse

def override (e : Endpoints) (o : EndpointOverrides) : Endpoints where
  auth := (o.auth.map trimmed).getD e.auth
  api := (o.api.map trimmed).getD e.api
  databaseApi := (o.databaseApi.map trimmed).getD e.databaseApi

end Endpoints

end DatabaseOperator
