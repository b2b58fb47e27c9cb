import Federation.Schedule.Script

/-!
A timetable over a script, in the course of time.

* `Rehearsal`: scripted updaters, the timetable that runs their rounds by the configured policy, and
  the time that has passed.
* `Rehearsal.schedule`, `Rehearsal.sleep`, `Rehearsal.drop`, `Rehearsal.shutDown`: what happens from
  outside.
* `Rehearsal.startsOf?`: the rounds of an updater that began since they were last taken. There is no
  answer for an updater that is gone: it was dropped, and no round in progress holds it.
-/

namespace Federation

/-- Scripted rounds with a clock. -/
structure Rehearsal where
  config : Config
  clock : Nat
  script : Script
  timetable : Timetable Empty (fun _ => Unit) Nat

namespace Rehearsal

/-- Updaters with the given rounds, none of them scheduled. The settings of the mode must be
valid. -/
def ofRounds (config : Config) (rounds : List (List ScriptedRound)) : Except Fault Rehearsal :=
  config.policy.map fun policy => ⟨config, 0, rounds.map .ofRounds, .empty policy⟩

/-- Begins a series of rounds of an updater for a cluster. -/
def schedule (r : Rehearsal) (cluster : String) (updater : Nat) : Rehearsal :=
  { r with timetable := r.timetable.schedule r.config r.clock cluster updater }

/-- Lets some milliseconds pass. A sleep of no time gives way to nothing. -/
def sleep (r : Rehearsal) (ms : Nat) : Rehearsal :=
  if ms = 0 then r
  else
    let (timetable, script) := r.timetable.runUntil Script.workload (r.clock + ms) r.clock r.script
    { r with timetable, script, clock := r.clock + ms }

/-- Drops an updater, which then lives only as long as its rounds in progress. -/
def drop (r : Rehearsal) (updater : Nat) : Rehearsal := { r with script := r.script.drop updater }

/-- Cancels all rounds for good. -/
def shutDown (r : Rehearsal) : Rehearsal := { r with timetable := r.timetable.cancelAll }

/-- Clusters and times of the rounds of an updater that began since they were last taken. -/
def startsOf? (r : Rehearsal) (updater : Nat) : Option (List (String × Nat)) :=
  (r.script[updater]?.filter fun u => !u.dropped || r.timetable.holds updater).map (·.starts)

/-- Takes the starts of all rounds. -/
def forgetStarts (r : Rehearsal) : Rehearsal := { r with script := r.script.map (·.forgetStarts) }

end Rehearsal

end Federation
