import Federation.Config.Check
import Federation.Schedule.Timetable
import Federation.Simulation.World

/-!
Discovery in the course of time.

* `Session`: a world, the time that has passed, the clusters whose rounds were asked for, and a
  timetable if rounds run by themselves.
* `Session.manual`, `Session.timed`: rounds run only where they are called for, or by a timetable
  whose policy is the configured one. Neither begins with a configuration that breaks a rule.
* `Session.sleep`: lets time pass, in which scheduled rounds run.
* `Session.update`: one round from beginning to end. While it waits, scheduled rounds run.
* `Session.join`, `Session.start`: rounds are asked for when a cluster is joined for the first time.
  A start registers the configured clusters and joins those that have a seed, up to the first
  refusal.
* `Session.shutDown`: rounds that are not finished stop where they are.
-/

namespace Federation

/-- Discovery with a clock. -/
structure Session where
  world : World
  clock : Nat
  asked : List String
  timetable? : Option (Timetable Query Query.Answer Unit)

/-- The number of changes of a round, if it succeeded. -/
def Outcome.ofResult : Except Fault Changes → Outcome
  | .ok changes => some changes.count
  | .error _ => none

/-- The rounds of discovery. -/
def World.workload : Workload Query Query.Answer Unit World where
  answer := World.answer
  alive _ _ := true
  begin _ cluster _ w := (Outcome.ofResult <$> (Round.update cluster).run, w)

namespace Session

/-- Rounds run where they are called for. -/
def manual (config : Config) (router : RecordedRouter) : Except Fault Session := do
  config.check
  return ⟨.idle config router, 0, [], none⟩

/-- Rounds run by a timetable. -/
def timed (config : Config) (router : RecordedRouter) : Except Fault Session := do
  config.check
  let policy ← config.policy
  return ⟨.idle config router, 0, [], some (.empty policy)⟩

/-! ### Time -/

/-- Lets some milliseconds pass. A sleep of no time gives way to nothing. -/
def sleep (s : Session) (ms : Nat) : Session :=
  match s.timetable? with
  | none => { s with clock := s.clock + ms }
  | some t =>
    if ms = 0 then s
    else
      let (t, world) := t.runUntil World.workload (s.clock + ms) s.clock s.world
      { s with world, clock := s.clock + ms, timetable? := some t }

/-- Runs a program from beginning to end. -/
def perform {α : Type} (s : Session) : Program Query Query.Answer α → α × Session
  | .done a => (a, s)
  | .ask q next =>
    let (a, world) := s.world.answer q
    perform { s with world } (next a)
  | .wait ms next => perform (s.sleep ms) next

/-- Without a timetable nothing happens while a program waits. -/
theorem perform_of_manual {α : Type} {s : Session} (h : s.timetable? = none)
    (p : Program Query Query.Answer α) :
    s.perform p =
      let (a, ms, world) := p.run World.answer s.world
      (a, { s with world, clock := s.clock + ms }) := by
  induction p generalizing s with
  | done a => rfl
  | ask q next ih => exact ih _ (s := { s with world := (s.world.answer q).2 }) h
  | wait ms next ih =>
    have hs : s.sleep ms = { s with clock := s.clock + ms } := by simp [sleep, h]
    rw [perform, hs, ih (s := { s with clock := s.clock + ms }) h, Program.run]
    simp only [Nat.add_assoc]

/-! ### Operations -/

/-- One round for a cluster. -/
def update (s : Session) (cluster : String) : Except Fault Changes × Session :=
  s.perform (Round.update cluster).run

/-- Without a timetable nothing happens while a round waits. -/
theorem update_of_manual {s : Session} (h : s.timetable? = none) (cluster : String) :
    s.update cluster =
      let (result, ms, world) := s.world.update cluster
      (result, { s with world, clock := s.clock + ms }) :=
  perform_of_manual h _

/-- Asks for the rounds of a cluster. -/
def schedule (s : Session) (cluster : String) : Session :=
  { s with
    asked := s.asked ++ [cluster]
    timetable? := s.timetable?.map fun t => t.schedule s.world.config s.clock cluster () }

/-- Joins a cluster through the node at the address of a seed. -/
def join (s : Session) (cluster : Cluster) (seed : String) : Except Fault Session :=
  (s.world.join cluster seed).map fun world =>
    let known := s.world.enrolments.contains cluster.name
    if known then { s with world } else schedule { s with world } cluster.name

/-- Joins remote clusters through their seeds, up to the first refusal. -/
def joinAll (s : Session) : List (String × String) → Except Fault Unit × Session
  | [] => (.ok (), s)
  | (cluster, seed) :: seeds =>
    match s.join (.ofRemote cluster) seed with
    | .ok s => s.joinAll seeds
    | .error e => (.error e, s)

/-- Registers the configured clusters and joins those with seeds. -/
def start (s : Session) : Except Fault Unit × Session :=
  joinAll { s with world := s.world.setUp } s.world.config.seeds.toList

/-- Ends discovery. -/
def shutDown (s : Session) : Session :=
  { s with world := s.world.shutDown, timetable? := s.timetable?.map Timetable.cancelAll }

end Session

end Federation
