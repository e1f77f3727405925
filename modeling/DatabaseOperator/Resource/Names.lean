namespace DatabaseOperator

namespace Names

def group : String := "databases.scalingo.com"

def version : String := "v1alpha1"

def apiVersion : String := group ++ "/" ++ version

def kind : String := "PostgreSQL"

def plural : String := "postgresqls"

/-- Keeps an object from being removed until its remote database is deleted. -/
def finalizer : String := "databases.scalingo.com/PostgresFinalizer"

/-- Says whether the work that follows the first availability is done. -/
def runningAnnotation : String := "databases.scalingo.com/db-is-running"

def trueValue : String := "true"

def falseValue : String := "false"

/-- The database exists remotely and reached the running state at least once. -/
def available : String := "Available"

/-- A remote operation, a creation or a change of plan, is in flight. -/
def provisioning : String := "Provisioning"

def statusTrue : String := "True"

def statusFalse : String := "False"

namespace Reason

def notAvailable : String := "DatabaseNotAvailable"

def available : String := "DatabaseAvailable"

def notProvisioned : String := "DatabaseNotprovisioned"

def provisioning : String := "DatabaseProvisioning"

def provisioned : String := "Databaseprovisioned"

def all : List String :=
  [notAvailable, available, notProvisioned, provisioning, provisioned]

end Reason

namespace Message

def notAvailable : String := "The database is not yet available on Scalingo."

def available : String := "The database is available on Scalingo."

def notProvisioned : String := "The database is not yet provisioned on Scalingo."

def provisioning : String := "The database is being provisioned on Scalingo."

def provisioned : String := "The database is provisioned on Scalingo."

def all : List String :=
  [notAvailable, available, notProvisioned, provisioning, provisioned]

end Message

end Names

end DatabaseOperator
