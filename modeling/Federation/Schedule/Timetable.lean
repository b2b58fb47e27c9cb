import Federation.Collection.Keyed
import Federation.Schedule.Series

/-!
The rounds of all clusters on one clock.

* `Timetable`: one series of rounds for each scheduled cluster, and the policy for their intervals.
* `Turn`: what waits for time to pass. The first round of a series begins only then, and only then a
  series that was replaced in the middle of a round lets its updater go. Turns are taken in the
  order in which they were asked for.
* `Timetable.schedule`: begins a series, whose first round is due at once. It takes the place of the
  series that the cluster had before, and after the end of the timetable nothing is scheduled.
* `Timetable.cancelAll`: ends the timetable.
* `Timetable.runUntil`: lets time pass. Everything that is due at or before the last moment is done,
  at the moment at which it is due.
-/

namespace Federation

/-- What happens as soon as time passes: the series of a cluster begins, or one that was replaced in
the middle of a round lets its updater go. -/
inductive Turn (Query : Type) (Answer : Query → Type) (υ : Type) where
  | start (cluster : String)
  | release (s : Series Query Answer υ)

namespace Turn

variable {Query : Type} {Answer : Query → Type} {υ : Type}

/-- Whether the series of a cluster begins. -/
def starts (cluster : String) : Turn Query Answer υ → Bool
  | start c => c = cluster
  | release _ => false

/-- The series that lets its updater go. -/
def released? : Turn Query Answer υ → Option (Series Query Answer υ)
  | start _ => none
  | release s => some s

end Turn

/-- Series of rounds on one clock. -/
structure Timetable (Query : Type) (Answer : Query → Type) (υ : Type) where
  policy : Policy
  closed : Bool
  series : Keyed (Series.cluster : Series Query Answer υ → String)
  turns : List (Turn Query Answer υ)

namespace Timetable

variable {Query : Type} {Answer : Query → Type} {υ σ : Type}

/-- A timetable without series. -/
def empty (policy : Policy) : Timetable Query Answer υ := ⟨policy, false, ∅, []⟩

/-- The clusters that were scheduled, also those whose series has ended. -/
def clusters (t : Timetable Query Answer υ) : List String := t.series.keys

/-! ### Scheduling -/

/-- Begins a series of rounds for a cluster. -/
def schedule (t : Timetable Query Answer υ) (config : Config) (now : Nat) (cluster : String)
    (updater : υ) : Timetable Query Answer υ :=
  if t.closed then t
  else
    { t with
      series := t.series.insert ⟨cluster, updater, t.policy.firstWait config, .armed now⟩
      turns := t.turns.filter (fun turn => !turn.starts cluster) ++ .start cluster ::
        ((t.series.find? cluster).filter Series.inRound).toList.map .release }

/-- Cancels all series. If any of them might still have done something, replaced ones let their
updaters go as well. -/
def cancelAll (t : Timetable Query Answer υ) : Timetable Query Answer υ :=
  { t with
    closed := true
    series := ∅
    turns := if t.series.toList.any Series.isLive then [] else t.turns }

/-- Whether a round in progress holds an updater. -/
def holds [DecidableEq υ] (t : Timetable Query Answer υ) (updater : υ) : Bool :=
  (t.series.toList.filter Series.inRound ++ t.turns.filterMap Turn.released?).any fun s =>
    s.updater = updater

/-! ### Time -/

variable [DecidableEq υ]

/-- Does what is due for one series. -/
def advanceOne (work : Workload Query Answer υ σ) (now : Nat)
    (st : Timetable Query Answer υ × σ) (s : Series Query Answer υ) :
    Timetable Query Answer υ × σ :=
  let (s, state) := s.advance work st.1.policy (st.1.holds s.updater) now st.2
  ({ st.1 with series := st.1.series.insert s }, state)

/-- Does what is due for all series. -/
def advanceAll (work : Workload Query Answer υ σ) (now : Nat) (t : Timetable Query Answer υ)
    (state : σ) : Timetable Query Answer υ × σ :=
  t.series.toList.foldl (advanceOne work now) (t, state)

/-- Takes turns, one after the other. -/
def takeTurns (work : Workload Query Answer υ σ) (now : Nat) :
    List (Turn Query Answer υ) → Timetable Query Answer υ → σ → Timetable Query Answer υ × σ
  | [], t, state => ({ t with turns := [] }, state)
  | turn :: rest, t, state =>
    let left := { t with turns := rest }
    match turn with
    | .release _ => takeTurns work now rest left state
    | .start cluster =>
      match t.series.find? cluster with
      | none => takeTurns work now rest left state
      | some s =>
        let (t, state) := advanceOne work now (left, state) s
        takeTurns work now rest t state

/-- The next moment after `now` and up to `stop` at which something is due. -/
def nextDue? (t : Timetable Query Answer υ) (now stop : Nat) : Option Nat :=
  ((t.series.toList.filterMap fun s => s.phase.due?).filter fun due => now < due && due ≤ stop).min?

omit [DecidableEq υ] in
theorem nextDue?_bounds {t : Timetable Query Answer υ} {now stop due : Nat}
    (h : t.nextDue? now stop = some due) : now < due ∧ due ≤ stop := by
  have hmem := List.min?_mem h
  simpa using (List.mem_filter.1 hmem).2

/-- Does everything that is due after `now` and up to `stop`. -/
def runAfter (work : Workload Query Answer υ σ) (stop now : Nat) (t : Timetable Query Answer υ)
    (state : σ) : Timetable Query Answer υ × σ :=
  match _hdue : t.nextDue? now stop with
  | none => (t, state)
  | some due =>
    let (t, state) := advanceAll work due t state
    runAfter work stop due t state
termination_by stop - now
decreasing_by have := nextDue?_bounds _hdue; omega

/-- Lets time pass from `now` to `stop`. -/
def runUntil (work : Workload Query Answer υ σ) (stop now : Nat) (t : Timetable Query Answer υ)
    (state : σ) : Timetable Query Answer υ × σ :=
  let (t, state) := takeTurns work now t.turns t state
  runAfter work stop now t state

end Timetable

end Federation
