import DatabaseOperator.Database.Basic
import DatabaseOperator.Dialogue
import DatabaseOperator.Error

namespace DatabaseOperator

inductive ProviderCall
  | createDatabase (db : Database)
  | getDatabase (id : String)
  | updateDatabasePlan (db : Database)
  | deleteDatabase (id : String)
  | createFirewallRule (id addonId : String) (rule : FirewallRule)
  | listFirewallRules (id addonId : String)
  | deleteFirewallRule (id addonId ruleId : String)
  | enableFeature (db : Database) (feature : String)
  | disableFeature (db : Database) (feature : String)
  | findVariable (appId name : String)
  deriving DecidableEq

namespace ProviderCall

/-- What a call gives when it succeeds. -/
abbrev Result : ProviderCall → Type
  | createDatabase _ => Database
  | getDatabase _ => Database
  | updateDatabasePlan _ => Unit
  | deleteDatabase _ => Unit
  | createFirewallRule _ _ _ => Unit
  | listFirewallRules _ _ => List FirewallRule
  | deleteFirewallRule _ _ _ => Unit
  | enableFeature _ _ => FeatureStatus
  | disableFeature _ _ => FeatureStatus
  | findVariable _ _ => String

end ProviderCall

def provider : Interface :=
  ⟨ProviderCall, fun c => Except ProviderError c.Result⟩

/-- Work that consists of calls to the provider. -/
abbrev ProviderTask (α : Type) : Type :=
  ExceptT Error (Dialogue provider) α

namespace ProviderTask

/-- A call, with the name of the step it belongs to. -/
def call (action : String) (c : ProviderCall) : ProviderTask c.Result :=
  ExceptT.mk do
    let r ← Dialogue.call (I := provider) c
    pure (r.mapError (Wrap.wrap action))

end ProviderTask

/-- Names the step in which a failure of some work happens. -/
def inPhase {I : Interface} {α : Type} (action : String) (task : ExceptT Error (Dialogue I) α) :
    ExceptT Error (Dialogue I) α :=
  ExceptT.mk do
    let r ← task.run
    pure (r.mapError (Error.phase action))

/-- Refuses an empty text. -/
def requireText {I : Interface} (field value : String) : ExceptT Error (Dialogue I) Unit :=
  if value.isEmpty then throw (.empty field) else pure ()

end DatabaseOperator
