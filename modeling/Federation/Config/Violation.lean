/-!
The rules that a configuration can break.

* `Violation`: one constructor for each rule, with what the message about it says.
* `Violation.field`, `code`, `message?` and `params`: the entry that a report makes of it. A rule
  about one field stands under the field and has no message; a rule about the configuration as a
  whole stands under `__all__` and has one.
-/

namespace Federation.Config

/-- A broken rule of a configuration. -/
inductive Violation where
  | emptyLocalCluster
  | zeroInterval
  | shortUpperLimit
  | localNotConfigured (cluster : String)
  | seedForLocal (cluster : String)
  | missingSeed (cluster : String)
  | seedForUnknown (cluster seed : String)
  | unreadableSeed (cluster seed : String)
  | invalidAdaptive (upperLimitMs : UInt64)
deriving DecidableEq

namespace Violation

/-- Where the report lists the violation. -/
def field : Violation → String
  | emptyLocalCluster => "local_cluster"
  | zeroInterval => "discovery_interval_ms"
  | shortUpperLimit => "upper_limit_ms"
  | _ => "__all__"

/-- The short name of the broken rule. -/
def code : Violation → String
  | emptyLocalCluster => "length"
  | zeroInterval | shortUpperLimit => "range"
  | localNotConfigured _ => "local_cluster_not_configured"
  | seedForLocal _ => "seed_for_local_cluster"
  | missingSeed _ => "missing_seed"
  | seedForUnknown _ _ => "seed_for_unknown_cluster"
  | unreadableSeed _ _ => "invalid_seed"
  | invalidAdaptive _ => "invalid_scheduler"

/-- What the report says about the violation. -/
def message? : Violation → Option String
  | emptyLocalCluster | zeroInterval | shortUpperLimit => none
  | localNotConfigured c => some ("local cluster " ++ c ++ " is not among the configured clusters")
  | seedForLocal c => some ("local cluster " ++ c ++ " must not have a seed")
  | missingSeed c => some ("remote cluster " ++ c ++ " has no seed")
  | seedForUnknown c s => some ("seed " ++ s ++ " belongs to unknown cluster " ++ c)
  | unreadableSeed c s => some ("seed " ++ s ++ " of cluster " ++ c ++ " is not host:port")
  | invalidAdaptive n =>
    some ("adaptive upper limit " ++ toString n.toNat ++ "ms is below one second")

/-- The parameters of the broken rule, by name. -/
def params : Violation → List String
  | emptyLocalCluster | zeroInterval | shortUpperLimit => ["min", "value"]
  | _ => []

end Violation

end Federation.Config
