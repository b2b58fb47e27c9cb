import Federation.Proofs.Schedule.Recording
import Federation.Schedule.Script

/-!
The rounds that a timetable runs.

* `Watch`: a timetable in the course of time, with a log of what its rounds do. The log is taken from
  a run in which rounds are written down, everything else from the plain run.
* `Watch.Event`, `Watch.after`: what may happen to it from outside, and the watch after that.
* `Watch.Consistent`: the log tells of the series of the timetable. Every event keeps this.
* `Watch.rounds_disciplined`: in whichever order series are asked for, updaters are dropped, time
  passes and rounds are cancelled, a cluster has one series at most and its rounds follow one
  another, updaters that are gone run no rounds, and after the end there are none.
-/

namespace Federation

/-- A timetable in the course of time. -/
structure Watch (Query : Type) (Answer : Query → Type) (υ σ : Type) where
  clock : ℕ
  timetable : Timetable Query Answer υ
  state : σ
  log : Log υ

namespace Watch

variable {Query : Type} {Answer : Query → Type} {υ σ : Type} {w : Watch Query Answer υ σ}

/-- Nothing is scheduled. -/
def idle (policy : Policy) (state : σ) : Watch Query Answer υ σ := ⟨0, .empty policy, state, []⟩

/-- What may happen from outside. -/
inductive Event (υ σ : Type) where
  | schedule (config : Config) (cluster : String) (updater : υ)
  | change (f : σ → σ)
  | sleep (ms : ℕ)
  | shutDown

section

variable [DecidableEq υ] (work : Workload Query Answer υ σ)

/-- What has come to pass when some milliseconds have passed. A sleep of no time gives way to
nothing. -/
def sleep (w : Watch Query Answer υ σ) (ms : ℕ) : Watch Query Answer υ σ :=
  if ms = 0 then w
  else
    let plain := w.timetable.runUntil work (w.clock + ms) w.clock w.state
    let noted := w.timetable.noted.runUntil work.noted (w.clock + ms) w.clock (w.state, w.log)
    ⟨w.clock + ms, plain.1, plain.2, noted.2.2⟩

/-- What has come to pass after an event. -/
def next (w : Watch Query Answer υ σ) : Event υ σ → Watch Query Answer υ σ
  | .schedule config c u =>
    { w with
      timetable := w.timetable.schedule config w.clock c u
      log := .scheduled c u w.clock :: w.log }
  | .change f => { w with state := f w.state }
  | .sleep ms => w.sleep work ms
  | .shutDown => { w with timetable := w.timetable.cancelAll, log := .closed :: w.log }

/-- What has come to pass after several events, the first one first. -/
def after (w : Watch Query Answer υ σ) (events : List (Event υ σ)) : Watch Query Answer υ σ :=
  events.foldl (next work) w

end

/-! ### Every event -/

/-- The log tells of the series of the timetable. -/
def Consistent (w : Watch Query Answer υ σ) : Prop := w.timetable.Matches w.clock w.log

lemma consistent_idle (policy : Policy) (state : σ) :
    (idle policy state : Watch Query Answer υ σ).Consistent :=
  ⟨trivial, rfl, fun _ => rfl, fun _ h => (List.not_mem_nil h).elim⟩

lemma Consistent.schedule (h : w.Consistent) (config : Config) (c : String) (u : υ) :
    (w.timetable.schedule config w.clock c u).Matches w.clock (.scheduled c u w.clock :: w.log) := by
  cases hclosed : w.timetable.closed with
  | true =>
      have hlog : w.log.isClosed = true := h.closed.trans hclosed
      have hsame : w.timetable.schedule config w.clock c u = w.timetable := if_pos hclosed
      rw [hsame]
      refine ⟨⟨trivial, h.orderly⟩, h.closed, fun d => ?_, fun s hs => ?_⟩
      · rw [← h.assigned, Log.assigned?_of_isClosed hlog]
        exact if_pos hlog
      · exact (h.released s hs).append [_]
  | false =>
      have hlog : ¬w.log.isClosed = true := by
        rw [h.closed, hclosed]
        exact Bool.false_ne_true
      refine ⟨⟨trivial, h.orderly⟩, ?_, fun d => ?_, fun s hs => ?_⟩
      · rw [Timetable.schedule, if_neg (by simp [hclosed])]
        exact h.closed
      · rw [Timetable.find?_schedule hclosed, Log.assigned?, if_neg hlog]
        split
        · rfl
        · exact h.assigned d
      · rw [Timetable.schedule, if_neg (by simp [hclosed])] at hs
        rcases List.mem_append.mp hs with hs | hs
        · exact (h.released s (List.mem_filter.mp hs).1).append [_]
        · -- the series that is replaced was in the middle of a round
          have hreplaced : s ∈ (w.timetable.series.find? c).filter Series.inRound := by
            simpa using hs
          obtain ⟨hfind, hround⟩ := Option.mem_filter_iff.mp hreplaced
          refine ⟨[], w.log, c, u, rfl, ?_⟩
          rw [h.assigned, hfind, Option.map_some, Series.assignment, hround]

lemma Consistent.shutDown (h : w.Consistent) :
    w.timetable.cancelAll.Matches w.clock (.closed :: w.log) := by
  refine ⟨⟨trivial, h.orderly⟩, rfl, fun _ => rfl, fun s hs => ?_⟩
  rw [Timetable.cancelAll] at hs
  dsimp only at hs
  split at hs
  · cases hs
  · exact (h.released s hs).append [_]

variable [DecidableEq υ] (work : Workload Query Answer υ σ)

/-- Every event keeps the log consistent, and adds to it. -/
lemma Consistent.next (h : w.Consistent) (e : Event υ σ) :
    (w.next work e).Consistent ∧ ∃ newer, (w.next work e).log = newer ++ w.log := by
  cases e with
  | schedule config c u => exact ⟨h.schedule config c u, [_], rfl⟩
  | change f => exact ⟨h, [], rfl⟩
  | shutDown => exact ⟨h.shutDown, [_], rfl⟩
  | sleep ms =>
      rw [Watch.next, sleep]
      split
      · exact ⟨h, [], rfl⟩
      · obtain ⟨newer, hr, hmatches⟩ :=
          Timetable.runUntil_noted work w.state (w.clock + ms) h
        have hlog := congrArg (fun r => r.2.2) hr
        refine ⟨?_, newer, hlog⟩
        rw [Consistent]
        dsimp only at hlog ⊢
        rw [hlog]
        exact hmatches

lemma Consistent.after (h : w.Consistent) (events : List (Event υ σ)) :
    (w.after work events).Consistent ∧ ∃ newer, (w.after work events).log = newer ++ w.log := by
  induction events generalizing w with
  | nil => exact ⟨h, [], rfl⟩
  | cons e events ih =>
      obtain ⟨hnext, last, hlast⟩ := h.next work e
      obtain ⟨hafter, newer, hnewer⟩ := ih hnext
      refine ⟨hafter, newer ++ last, hnewer.trans ?_⟩
      rw [hlast, List.append_assoc]

omit [DecidableEq υ] in
/-- Once all rounds were cancelled nothing is scheduled. -/
lemma Consistent.clusters_eq_nil (h : w.Consistent) (hclosed : .closed ∈ w.log) :
    w.timetable.clusters = [] := by
  refine List.map_eq_nil_iff.mpr (List.eq_nil_iff_forall_not_mem.mpr fun s hs => ?_)
  have hnone := h.assigned s.cluster
  rw [Log.assigned?_of_isClosed (Log.isClosed_iff.mpr hclosed), Keyed.mem_iff_find?.mp hs] at hnone
  cases hnone

/-! ### Every order of events -/

/-- In whichever order series are asked for, updaters are dropped, time passes and all rounds are
cancelled: every cluster has one series at most, and its rounds are those that the log tells of.
Rounds belong to the series that was asked for last, those of a cluster are never in progress
together unless the earlier one was cancelled, and none begins for an updater that nobody holds.
After the end nothing is scheduled, no round is in progress and none begins or ends any more. -/
theorem rounds_disciplined (policy : Policy) (state : σ) (events : List (Event υ σ)) :
    let w := (idle policy state).after work events
    (w.timetable.clusters.Nodup ∧
      ∀ c, Log.assigned? c w.log = (w.timetable.series.find? c).map Series.assignment) ∧
    w.log.Disciplined ∧
    ∀ before later, events = before ++ .shutDown :: later →
      let ended := (idle policy state).after work (before ++ [.shutDown])
      ended.timetable.clusters = [] ∧ w.timetable.clusters = [] ∧
        (∀ c, ended.timetable.roundOf? c = none ∧ w.timetable.roundOf? c = none) ∧
        ∃ newer, w.log = newer ++ ended.log ∧ ∀ c, ∀ e ∈ newer, ¬e.OfRound c := by
  intro w
  have hidle : (idle policy state : Watch Query Answer υ σ).Consistent := consistent_idle policy state
  have hw : w.Consistent := (hidle.after work events).1
  refine ⟨⟨w.timetable.series.nodup_keys, hw.assigned⟩, hw.orderly.disciplined, ?_⟩
  rintro before later rfl ended
  have hended : ended.Consistent := (hidle.after work (before ++ [.shutDown])).1
  have hlog : ended.log = .closed :: ((idle policy state).after work before).log := by
    change ((before ++ [Event.shutDown]).foldl (next work) (idle policy state)).log = _
    rw [List.foldl_append]
    rfl
  have hw' : w = ended.after work later := by
    change (before ++ .shutDown :: later).foldl (next work) (idle policy state) = _
    rw [List.append_cons, List.foldl_append]
    rfl
  obtain ⟨newer, hnewer⟩ := (hended.after work later).2
  rw [← hw'] at hnewer
  have hclosed : .closed ∈ ended.log := hlog ▸ List.mem_cons_self
  have hnil := hended.clusters_eq_nil hclosed
  have hnil' := hw.clusters_eq_nil (hnewer ▸ List.mem_append_right newer hclosed)
  refine ⟨hnil, hnil', fun c => ⟨?_, ?_⟩, newer, hnewer, ?_⟩
  · exact Timetable.roundOf?_of_clusters_eq_nil hnil c
  · exact Timetable.roundOf?_of_clusters_eq_nil hnil' c
  · rw [hlog] at hnewer
    exact hw.orderly.disciplined.quiet hnewer

/-- A round in progress holds an updater that was dropped, so that a round for another cluster still
begins, but none does after both. -/
example : ((idle .fixed [.ofRounds [⟨3000, some 0⟩]]).after Script.workload
    [.schedule (.single "europe") "asia" 0, .sleep 1000, .change (Script.drop · 0),
      .schedule (.single "europe") "africa" 0, .sleep 20000, .shutDown,
      .schedule (.single "europe") "asia" 0, .sleep 20000]).log =
    [.scheduled "asia" 0 21000, .closed, .finished "africa" (some 0), .finished "asia" (some 0),
      .began "africa" 0 1000 false, .scheduled "africa" 0 1000, .began "asia" 0 0 true,
      .scheduled "asia" 0 0] := by decide +kernel

end Watch

end Federation
