import Federation.Schedule.Timetable

/-!
Updaters that follow a script.

* `ScriptedRound`: how long a round takes and how it ends.
* `ScriptedUpdater`: the rounds of an updater, which it counts for each cluster by itself. After the
  last one it is repeated. The beginning of every round is written down.
* `Script`: updaters that go by their positions.
* `Script.workload`: the rounds of a script. An updater that was dropped is alive only in its
  rounds.
-/

namespace Federation

/-- One round of a script. -/
structure ScriptedRound where
  takesMs : Nat
  outcome : Outcome
deriving DecidableEq

/-- An updater that follows a script. It counts the rounds of each cluster, and notes the clusters
and times of those that began since these were last taken. -/
structure ScriptedUpdater where
  rounds : List ScriptedRound
  counts : Assoc String Nat
  starts : List (String × Nat)
  dropped : Bool
deriving DecidableEq

namespace ScriptedUpdater

/-- An updater that has not run any round. -/
def ofRounds (rounds : List ScriptedRound) : ScriptedUpdater := ⟨rounds, ∅, [], false⟩

/-- The number of rounds of a cluster so far. -/
def countOf (u : ScriptedUpdater) (cluster : String) : Nat := (u.counts.get? cluster).getD 0

/-- The next round of a cluster. A script without rounds fails at once. -/
def nextRound (u : ScriptedUpdater) (cluster : String) : ScriptedRound :=
  (u.rounds[u.countOf cluster]?.or u.rounds.getLast?).getD ⟨0, none⟩

/-- Writes down that a round begins. -/
def noteStart (u : ScriptedUpdater) (cluster : String) (now : Nat) : ScriptedUpdater :=
  { u with
    counts := u.counts.insert (cluster, u.countOf cluster + 1)
    starts := u.starts ++ [(cluster, now)] }

/-- Forgets the rounds that began so far. They still count. -/
def forgetStarts (u : ScriptedUpdater) : ScriptedUpdater := { u with starts := [] }

end ScriptedUpdater

/-- The program of a scripted round, which asks nothing. -/
def ScriptedRound.program (r : ScriptedRound) : Program Empty (fun _ => Unit) Outcome :=
  .wait r.takesMs (.done r.outcome)

/-- Updaters by their positions. -/
abbrev Script := List ScriptedUpdater

namespace Script

/-- Drops an updater. -/
def drop (s : Script) (i : Nat) : Script := s.modify i fun u => { u with dropped := true }

/-- The rounds of a script. -/
def workload : Workload Empty (fun _ => Unit) Nat Script where
  answer q := q.elim
  alive i s := s[i]?.any fun u => !u.dropped
  begin i cluster now s :=
    match s[i]? with
    | some u => ((u.nextRound cluster).program, s.modify i fun u => u.noteStart cluster now)
    | none => (.done none, s)

end Script

end Federation
