namespace DatabaseOperator

inductive ValidationError
  | unknownDatabaseType (name : String)
  | missingDatabaseType
  | unknownDatabaseStatus (name : String)
  | unknownFeatureStatus (name : String)
  | unknownFirewallRuleType (name : String)
  | missingCidr
  | missingRangeId
  deriving DecidableEq, Repr

def ValidationError.message : ValidationError → String
  | unknownDatabaseType name => "invalid database type: " ++ name
  | missingDatabaseType => "empty database type"
  | unknownDatabaseStatus name => "invalid database status: " ++ name
  | unknownFeatureStatus name => "invalid database feature status: " ++ name
  | unknownFirewallRuleType name => "invalid firewall rule type: " ++ name
  | missingCidr => "missing cidr"
  | missingRangeId => "missing range_id"

end DatabaseOperator
