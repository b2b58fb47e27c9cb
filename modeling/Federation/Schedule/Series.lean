import Federation.Pace.Policy
import Federation.Program

/-!
The rounds of one cluster, one after the other.

* `Workload`: what the rounds of a series are, and which updaters are alive.
* `Series`: the updater of a cluster, the interval after the last round, and what comes next.
* `Series.advance`: what a series does at a point in time. The next round is armed only when the one
  before it is finished, so two rounds of a series are never in progress together. The series ends
  when a round would begin and nobody holds the updater any more.

All times are in milliseconds.
-/

namespace Federation

/-- What rounds are and how their questions are answered. An updater is alive if others than its
rounds in progress hold it. A round of it begins for a cluster at a point in time. -/
structure Workload (Query : Type) (Answer : Query → Type) (υ σ : Type) where
  answer : (q : Query) → σ → Answer q × σ
  alive : υ → σ → Bool
  begin : υ → String → Nat → σ → Program Query Answer Outcome × σ

/-- What a series does next: it begins a round, goes on with one, or does nothing any more. -/
inductive Phase (Query : Type) (Answer : Query → Type) where
  | armed (due : Nat)
  | running (due : Nat) (rest : Program Query Answer Outcome)
  | ended

/-- When something is to be done next, if ever. -/
def Phase.due? {Query : Type} {Answer : Query → Type} : Phase Query Answer → Option Nat
  | armed due | running due _ => some due
  | ended => none

/-- The rounds of one cluster, with the interval that was waited for last. -/
structure Series (Query : Type) (Answer : Query → Type) (υ : Type) where
  cluster : String
  updater : υ
  interval : Duration
  phase : Phase Query Answer

namespace Series

variable {Query : Type} {Answer : Query → Type} {υ σ : Type}

/-- Whether a round is in progress. -/
def inRound (s : Series Query Answer υ) : Bool :=
  match s.phase with
  | .running _ _ => true
  | _ => false

/-- Whether the series may still do something. -/
def isLive (s : Series Query Answer υ) : Bool := s.phase.due?.isSome

/-- Goes on with a round up to its next wait. After the round the next one is armed. -/
def proceed (s : Series Query Answer υ) (work : Workload Query Answer υ σ) (policy : Policy)
    (now : Nat) (p : Program Query Answer Outcome) (state : σ) : Series Query Answer υ × σ :=
  match p.advance work.answer state with
  | (.waiting ms rest, state) => ({ s with phase := .running (now + ms) rest }, state)
  | (.finished outcome, state) =>
    let interval := policy.nextWait outcome s.interval
    ({ s with interval, phase := .armed (now + interval.ceilMillis) }, state)

/-- Does what is due. The flag says whether another round in progress holds the updater. -/
def advance (s : Series Query Answer υ) (work : Workload Query Answer υ σ) (policy : Policy)
    (held : Bool) (now : Nat) (state : σ) : Series Query Answer υ × σ :=
  match s.phase with
  | .armed due =>
    if due ≤ now then
      if held || work.alive s.updater state then
        let (p, state) := work.begin s.updater s.cluster now state
        s.proceed work policy now p state
      else ({ s with phase := .ended }, state)
    else (s, state)
  | .running due rest => if due ≤ now then s.proceed work policy now rest state else (s, state)
  | .ended => (s, state)

end Series

end Federation
