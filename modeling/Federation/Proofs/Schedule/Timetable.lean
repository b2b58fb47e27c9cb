import Federation.Proofs.Collection.Keyed
import Federation.Proofs.Program.Ensures
import Federation.Schedule.Timetable

/-!
What a timetable keeps true.

* `Phase.rest?`, `Timetable.roundOf?`: what is left of the round of a cluster that is in progress.
* `Series.cluster_advance`: a series stays with its cluster. `Series.advance_induction`: what the
  beginnings of rounds and all answers keep true of the state.
* `Timetable.find?_schedule`, `Timetable.find?_advanceOne`: the series after one has begun, and
  after one of them has done what is due.
* `Timetable.runUntil_of_empty`: without series nothing happens as time passes.
* `Timetable.KeepsAt`: a property of the time, the timetable and the state that every single advance
  of a series keeps. `Timetable.KeepsAt.runUntil`: it is kept as time passes. `Timetable.Keeps`: the
  same for a property that says nothing of the time.
-/

namespace Federation

variable {Query : Type} {Answer : Query → Type} {υ σ : Type}
  {work : Workload Query Answer υ σ} {now stop : ℕ} {c : String} {state : σ}

/-! ### Rounds in progress -/

/-- What is left of a program that waits. -/
def Pause.rest? {α : Type} : Pause Query Answer α → Option (Program Query Answer α)
  | .finished _ => none
  | .waiting _ rest => some rest

/-- What is left of the round that is in progress. -/
def Phase.rest? : Phase Query Answer → Option (Program Query Answer Outcome)
  | .running _ rest => some rest
  | _ => none

namespace Series

variable {s : Series Query Answer υ} (policy : Policy) (p : Program Query Answer Outcome)

/-- A round goes on up to its next wait. -/
lemma proceed_keeps : (s.proceed work policy now p state).1.phase.rest? =
      (p.advance work.answer state).1.rest? ∧
    (s.proceed work policy now p state).2 = (p.advance work.answer state).2 := by
  rw [proceed]
  generalize p.advance work.answer state = stopped
  obtain ⟨outcome | ⟨ms, rest⟩, state⟩ := stopped
  · exact ⟨rfl, rfl⟩
  · exact ⟨rfl, rfl⟩

lemma cluster_proceed :
    (s.proceed work policy now p state).1.cluster = s.cluster := by
  -- stated for any interval, which therefore nobody computes
  have hkeep : ∀ interval phase,
      ({ s with interval, phase } : Series Query Answer υ).cluster = s.cluster := fun _ _ => rfl
  rw [proceed]
  generalize p.advance work.answer state = stopped
  obtain ⟨outcome | ⟨ms, rest⟩, state⟩ := stopped
  · exact hkeep _ _
  · exact hkeep _ _

/-- A series stays with its cluster. -/
lemma cluster_advance (held : Bool) :
    (s.advance work policy held now state).1.cluster = s.cluster := by
  rw [advance]
  split
  · split
    · split
      · exact cluster_proceed policy _
      · rfl
    · rfl
  · split
    · exact cluster_proceed policy _
    · rfl
  · rfl

/-- What the beginnings of rounds and all answers keep true of the state. -/
lemma advance_induction {I : σ → Prop} (hanswer : ∀ q t, I t → I (work.answer q t).2)
    (hbegin : ∀ u c now t, I t → I (work.begin u c now t).2) (held : Bool) (h : I state) :
    I (s.advance work policy held now state).2 := by
  have hproceed : ∀ p started, I started → I (s.proceed work policy now p started).2 :=
    fun p started hstarted => by
      rw [(proceed_keeps policy p).2]
      exact Program.advance_keeps hanswer hstarted
  rw [advance]
  split
  · split
    · split
      · exact hproceed _ _ (hbegin _ _ _ _ h)
      · exact h
    · exact h
  · split
    · exact hproceed _ _ h
    · exact h
  · exact h

end Series

/-! ### Series in their timetable -/

namespace Timetable

variable {t : Timetable Query Answer υ} {s : Series Query Answer υ}

/-- What is left of the round of a cluster that is in progress. -/
def roundOf? (t : Timetable Query Answer υ) (cluster : String) :
    Option (Program Query Answer Outcome) :=
  (t.series.find? cluster).bind fun s => s.phase.rest?

lemma roundOf?_of_clusters_eq_nil (h : t.clusters = []) (c : String) : t.roundOf? c = none := by
  rw [roundOf?, Keyed.find?, List.map_eq_nil_iff.mp h]
  rfl

/-- The new series of a cluster takes the place of the one before. -/
lemma find?_schedule {config : Config} {updater : υ} {d : String} (h : t.closed = false) :
    (t.schedule config now c updater).series.find? d =
      if c = d then some ⟨c, updater, t.policy.firstWait config, .armed now⟩
      else t.series.find? d := by
  rw [schedule, if_neg (by simp [h])]
  exact Keyed.find?_insert

variable [DecidableEq υ]

lemma find?_advanceOne : (advanceOne work now (t, state) s).1.series.find? c =
    if s.cluster = c then some (s.advance work t.policy (t.holds s.updater) now state).1
    else t.series.find? c := by
  have hcluster : (s.advance work t.policy (t.holds s.updater) now state).1.cluster = s.cluster :=
    s.cluster_advance t.policy _
  rw [← hcluster]
  exact Keyed.find?_insert

/-- Of other clusters the series stay as they are. -/
lemma find?_advanceOne_of_ne (hc : s.cluster ≠ c) :
    (advanceOne work now (t, state) s).1.series.find? c = t.series.find? c :=
  find?_advanceOne.trans (if_neg hc)

/-- Series of other clusters are still in the timetable when it is their turn. -/
lemma find?_advanceOne_of_mem {l : List (Series Query Answer υ)}
    (hs : s.cluster ∉ l.map Series.cluster)
    (ht : ∀ s' ∈ l, t.series.find? s'.cluster = some s') :
    ∀ s' ∈ l, (advanceOne work now (t, state) s).1.series.find? s'.cluster = some s' := by
  intro s' hs'
  have hne : s.cluster ≠ s'.cluster := fun he => hs (List.mem_map.mpr ⟨s', hs', he.symm⟩)
  rw [find?_advanceOne_of_ne hne]
  exact ht s' hs'

/-! ### The passing of time -/

lemma runAfter_of_none (h : t.nextDue? now stop = none) :
    t.runAfter work stop now state = (t, state) := by
  rw [runAfter]
  split
  next => rfl
  next due hdue => cases h.symm.trans hdue

lemma runAfter_of_some {due : ℕ} (h : t.nextDue? now stop = some due) :
    t.runAfter work stop now state = (t.advanceAll work due state).1.runAfter work stop due
      (t.advanceAll work due state).2 := by
  rw [runAfter]
  split
  next hnone => cases h.symm.trans hnone
  next due' hdue =>
    obtain rfl := Option.some.inj (h.symm.trans hdue)
    rfl

lemma takeTurns_of_empty (turns : List (Turn Query Answer υ)) (h : t.series = ∅) :
    takeTurns work now turns t state = ({ t with turns := [] }, state) := by
  induction turns generalizing t with
  | nil => rfl
  | cons turn rest ih =>
      cases turn with
      | release s => exact ih (t := { t with turns := rest }) h
      | start c =>
          have hnone : t.series.find? c = none := by rw [h, Keyed.find?_empty]
          rw [takeTurns, hnone]
          exact ih (t := { t with turns := rest }) h

/-- Nothing is ever due without series. -/
lemma runUntil_of_empty (h : t.series = ∅) :
    t.runUntil work stop now state = ({ t with turns := [] }, state) := by
  have hnone : ({ t with turns := [] } : Timetable Query Answer υ).nextDue? now stop = none := by
    rw [nextDue?, h]
    rfl
  rw [runUntil, takeTurns_of_empty t.turns h]
  exact runAfter_of_none hnone

/-- What is kept true as the series of a timetable advance one by one and as time passes. -/
structure KeepsAt (work : Workload Query Answer υ σ)
    (P : ℕ → Timetable Query Answer υ → σ → Prop) : Prop where
  advance : ∀ {now t state s}, P now t state → t.series.find? s.cluster = some s →
    P now (advanceOne work now (t, state) s).1 (advanceOne work now (t, state) s).2
  turns : ∀ {now t state} (turns : List (Turn Query Answer υ)),
    P now t state → P now { t with turns } state
  later : ∀ {now later t state}, now ≤ later → P now t state → P later t state

namespace KeepsAt

variable {P : ℕ → Timetable Query Answer υ → σ → Prop}

/-- Series of different clusters advance one after the other. Each is still in the timetable when it
is its turn. -/
lemma foldl_advanceOne (hP : KeepsAt work P) {l : List (Series Query Answer υ)}
    (hl : (l.map Series.cluster).Nodup) (ht : ∀ s ∈ l, t.series.find? s.cluster = some s)
    (h : P now t state) : P now (l.foldl (advanceOne work now) (t, state)).1
      (l.foldl (advanceOne work now) (t, state)).2 := by
  induction l generalizing t state with
  | nil => exact h
  | cons s l ih =>
      obtain ⟨hs, hl⟩ := List.nodup_cons.mp hl
      obtain ⟨hfirst, ht⟩ := List.forall_mem_cons.mp ht
      exact ih hl (find?_advanceOne_of_mem hs ht) (hP.advance h hfirst)

lemma advanceAll (hP : KeepsAt work P) (h : P now t state) :
    P now (t.advanceAll work now state).1 (t.advanceAll work now state).2 :=
  hP.foldl_advanceOne t.series.nodup_keys
    (fun _ hs => Keyed.find?_eq_some_iff.mpr ⟨hs, rfl⟩) h

lemma takeTurns (hP : KeepsAt work P) (turns : List (Turn Query Answer υ)) (h : P now t state) :
    P now (Timetable.takeTurns work now turns t state).1
      (Timetable.takeTurns work now turns t state).2 := by
  induction turns generalizing t state with
  | nil => exact hP.turns [] h
  | cons turn rest ih =>
      have hleft := hP.turns rest h
      cases turn with
      | release s => exact ih hleft
      | start c =>
          rw [Timetable.takeTurns]
          split
          next => exact ih hleft
          next s hs =>
            obtain rfl := (Keyed.find?_eq_some_iff.mp hs).2
            exact ih (hP.advance hleft hs)

lemma runAfter (hP : KeepsAt work P) (h : P now t state) :
    P (max now stop) (t.runAfter work stop now state).1 (t.runAfter work stop now state).2 := by
  induction now, t, state using Timetable.runAfter.induct work stop with
  | case1 now t state hdue =>
      rw [runAfter_of_none hdue]
      exact hP.later (le_max_left now stop) h
  | case2 now t state due hdue t' state' hadvance ih =>
      obtain ⟨hnow, hstop⟩ := nextDue?_bounds hdue
      have hall : P due (Timetable.advanceAll work due t state).1
          (Timetable.advanceAll work due t state).2 := hP.advanceAll (hP.later hnow.le h)
      have hmoment : max now stop = max due stop := by omega
      rw [runAfter_of_some hdue, hmoment]
      rw [hadvance] at hall ⊢
      exact ih hall

/-- What single advances keep true is true at the end of the time that passes. -/
theorem runUntil (hP : KeepsAt work P) (h : P now t state) :
    P (max now stop) (t.runUntil work stop now state).1 (t.runUntil work stop now state).2 :=
  hP.runAfter (hP.takeTurns t.turns h)

end KeepsAt

/-- What is kept true as the series of a timetable advance one by one. -/
structure Keeps (work : Workload Query Answer υ σ) (P : Timetable Query Answer υ → σ → Prop) :
    Prop where
  advance : ∀ {now t state s}, P t state → t.series.find? s.cluster = some s →
    P (advanceOne work now (t, state) s).1 (advanceOne work now (t, state) s).2
  turns : ∀ {t state} (turns : List (Turn Query Answer υ)), P t state → P { t with turns } state

namespace Keeps

variable {P : Timetable Query Answer υ → σ → Prop}

/-- What says nothing of the time is kept as it passes. -/
lemma keepsAt (hP : Keeps work P) : KeepsAt work fun _ => P :=
  ⟨hP.advance, hP.turns, fun _ h => h⟩

/-- What single advances keep true is true whatever time passes. -/
theorem runUntil (hP : Keeps work P) (h : P t state) :
    P (t.runUntil work stop now state).1 (t.runUntil work stop now state).2 :=
  hP.keepsAt.runUntil h

end Keeps

end Timetable

end Federation
