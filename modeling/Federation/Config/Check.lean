import Federation.Config.Basic
import Federation.Fault
import Federation.Seed

/-!
Which configurations are valid.

* `Adaptation.violations`: the adaptive mode needs a limit of at least a second.
* `Config.fieldViolations`: the local cluster has a name and the interval is not zero.
* `Config.firstViolation?`: the first broken one of the rules that concern more than one field, in
  the order in which they stand there. Seeds are looked at in the order of their clusters.
* `Config.check`, `Adaptation.check`: all violations, or none.
-/

namespace Federation

namespace Adaptation

/-- The broken rules of the adaptive mode. -/
def violations (a : Adaptation) : List Config.Violation :=
  if a.upperLimitMs < 1000 then [.shortUpperLimit] else []

/-- Refuses settings that break a rule. -/
def check (a : Adaptation) : Except Fault Unit :=
  if a.violations.isEmpty then .ok () else .error (.configuration a.violations)

end Adaptation

namespace Config

/-- The broken rules that concern one field. -/
def fieldViolations (c : Config) : List Violation :=
  (if c.localCluster.isEmpty then [.emptyLocalCluster] else []) ++
    if c.intervalMs < 1 then [.zeroInterval] else []

/-- What is wrong with the seed of a cluster. -/
def seedViolation? (c : Config) (seed : String × String) : Option Violation :=
  if !c.clusters.contains seed.1 then some (.seedForUnknown seed.1 seed.2)
  else if (Address.parse? seed.2).isNone then some (.unreadableSeed seed.1 seed.2)
  else none

/-- What is wrong with the mode. -/
def modeViolation? (c : Config) : Option Violation :=
  match c.mode with
  | .fixed => none
  | .adaptive a => if a.violations.isEmpty then none else some (.invalidAdaptive a.upperLimitMs)

/-- The first remote cluster without a seed. -/
def unseeded? (c : Config) : Option String :=
  c.clusters.find? fun name => name ≠ c.localCluster && !c.seeds.contains name

/-- The first broken rule among those that concern more than one field. -/
def firstViolation? (c : Config) : Option Violation :=
  if !c.clusters.contains c.localCluster then some (.localNotConfigured c.localCluster)
  else if c.seeds.contains c.localCluster then some (.seedForLocal c.localCluster)
  else
    match c.unseeded? with
    | some name => some (.missingSeed name)
    | none => (c.seeds.toList.findSome? c.seedViolation?).or c.modeViolation?

/-- All broken rules that a report lists. -/
def violations (c : Config) : List Violation := c.fieldViolations ++ c.firstViolation?.toList

/-- Refuses a configuration that breaks a rule. -/
def check (c : Config) : Except Fault Unit :=
  if c.violations.isEmpty then .ok () else .error (.configuration c.violations)

end Config

end Federation
