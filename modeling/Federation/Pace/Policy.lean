import Federation.Config.Check

/-!
The intervals between rounds.

* `Outcome`: what a policy learns of a round, the number of changes or that it failed.
* `Policy`: the interval before any round, and the interval after a round given the one before it.
* `Policy.fixed`, `Policy.adaptive`: always the configured interval, or the estimate after each
  round that succeeded; a failed round says nothing about changes and keeps the interval.
* `Policy.intervals`: the intervals after several rounds.
* `Policy.firstWait`, `Policy.nextWait`: the intervals that are waited for, which are at least a
  second.
* `Config.policy`: the policy of the configured mode, refused if its settings are not valid.
-/

namespace Federation

/-- The number of changes of a round, or `none` if the round failed. -/
abbrev Outcome := Option Nat

/-- How intervals follow each other: the one before any round, and the one after a round with the
given outcome and interval. -/
structure Policy where
  initial : Config → Duration
  next : Outcome → Duration → Duration

namespace Policy

/-- No interval between rounds is shorter. -/
def minInterval : Duration := .ofSeconds 1

/-- The configured interval, for good. -/
def fixed : Policy := ⟨Config.interval, fun _ previous => previous⟩

/-- The configured interval at first, and then what is estimated. -/
def adaptive (a : Adaptation) : Policy where
  initial := Config.interval
  next
    | none, previous => previous
    | some changes, previous => a.estimate changes previous

/-- The policy of a mode, whether its settings are valid or not. -/
def ofMode : Mode → Policy
  | .fixed => fixed
  | .adaptive a => adaptive a

/-- The intervals after each of several rounds, where `previous` is the one before them. -/
def intervals (p : Policy) (previous : Duration) : List Outcome → List Duration
  | [] => []
  | outcome :: rounds =>
    let next := p.next outcome previous
    next :: p.intervals next rounds

/-- The interval with which a series of rounds begins. -/
def firstWait (p : Policy) (c : Config) : Duration := (p.initial c).max minInterval

/-- What is waited for after a round. -/
def nextWait (p : Policy) (outcome : Outcome) (previous : Duration) : Duration :=
  (p.next outcome previous).max minInterval

end Policy

/-- The policy of the configured mode, unless its settings break a rule. -/
def Config.policy (c : Config) : Except Fault Policy :=
  match c.mode with
  | .fixed => .ok .fixed
  | .adaptive a => a.check.map fun _ => .adaptive a

end Federation
