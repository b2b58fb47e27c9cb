import Federation.Proofs.Schedule.Logbook
import Federation.Proofs.Schedule.Timetable

/-!
A timetable whose rounds are written down.

* `Workload.noted`: the same rounds, which write down that they begin and that they are finished.
  `Timetable.noted`: the same timetable with rounds that still do so.
* `Timetable.Matches`: the series of a timetable are those of which a log tells.
* `Series.advance_noted`: a series does the same whether its rounds are written down or not, and what
  it writes down is in order.
* `Timetable.runUntil_noted`: so does the whole timetable, whatever time passes.
-/

namespace Federation

variable {Query : Type} {Answer : Query → Type} {υ σ : Type}

/-! ### Rounds that are written down -/

/-- The answers to a question of a round, or to the remark that the round of a cluster is finished.
-/
abbrev NotedAnswer (Answer : Query → Type) : Query ⊕ String × Outcome → Type
  | .inl q => Answer q
  | .inr _ => Unit

/-- A round that in the end remarks that it is finished. -/
def Program.noted (c : String) :
    Program Query Answer Outcome → Program (Query ⊕ String × Outcome) (NotedAnswer Answer) Outcome
  | done outcome => ask (.inr (c, outcome)) fun _ => done outcome
  | ask q next => ask (.inl q) fun a => (next a).noted c
  | wait ms next => wait ms (next.noted c)

/-- The same rounds. They write down that they begin and that they are finished. -/
def Workload.noted (work : Workload Query Answer υ σ) :
    Workload (Query ⊕ String × Outcome) (NotedAnswer Answer) υ (σ × Log υ) where
  answer
    | .inl q, (state, log) => ((work.answer q state).1, (work.answer q state).2, log)
    | .inr (c, outcome), (state, log) => ((), state, .finished c outcome :: log)
  alive u s := work.alive u s.1
  begin u c now s := ((work.begin u c now s.1).1.noted c, (work.begin u c now s.1).2,
    .began c u now (work.alive u s.1) :: s.2)

/-- The same phase, with what is left of a round. -/
def Phase.noted (c : String) :
    Phase Query Answer → Phase (Query ⊕ String × Outcome) (NotedAnswer Answer)
  | armed due => armed due
  | running due rest => running due (rest.noted c)
  | ended => ended

/-- The same series. -/
def Series.noted (s : Series Query Answer υ) :
    Series (Query ⊕ String × Outcome) (NotedAnswer Answer) υ :=
  ⟨s.cluster, s.updater, s.interval, s.phase.noted s.cluster⟩

/-- The same turn. -/
def Turn.noted : Turn Query Answer υ → Turn (Query ⊕ String × Outcome) (NotedAnswer Answer) υ
  | start c => start c
  | release s => release s.noted

/-- The same timetable. -/
def Timetable.noted (t : Timetable Query Answer υ) :
    Timetable (Query ⊕ String × Outcome) (NotedAnswer Answer) υ where
  policy := t.policy
  closed := t.closed
  series := ⟨t.series.toList.map Series.noted, List.pairwise_map.mpr t.series.ascending⟩
  turns := t.turns.map Turn.noted

/-! ### One series -/

/-- Who runs the rounds of a series. -/
def Series.assignment (s : Series Query Answer υ) : Assignment υ := ⟨s.updater, s.inRound⟩

namespace Series

variable {work : Workload Query Answer υ σ} {s : Series Query Answer υ} {now : ℕ} {log : Log υ}
  {state : σ} {c : String} (policy : Policy)

lemma inRound_noted (s : Series Query Answer υ) : s.noted.inRound = s.inRound := by
  rw [inRound, inRound, noted]
  cases s.phase <;> rfl

lemma due?_noted (s : Series Query Answer υ) : s.noted.phase.due? = s.phase.due? := by
  rw [noted]
  cases s.phase <;> rfl

/-- A program stops at the same place, and in the end it remarks that it is finished. -/
lemma advance_program_noted (p : Program Query Answer Outcome) (c : String) (log : Log υ) :
    (p.noted c).advance work.noted.answer (state, log) =
      match p.advance work.answer state with
      | (.finished outcome, state) => (.finished outcome, state, .finished c outcome :: log)
      | (.waiting ms rest, state) => (.waiting ms (rest.noted c), state, log) := by
  induction p generalizing state with
  | done outcome => rfl
  | ask q next ih => exact ih _
  | wait ms next ih =>
      cases ms with
      | zero => exact ih
      | succ ms => rfl

/-- A series has come to the same with its rounds written down. What was added to the log tells of
its rounds and is in order. -/
def Recorded (c : String) (log : Log υ)
    (r : Series (Query ⊕ String × Outcome) (NotedAnswer Answer) υ × σ × Log υ)
    (plain : Series Query Answer υ × σ) : Prop :=
  ∃ newer, r = (plain.1.noted, plain.2, newer ++ log) ∧ (∀ e ∈ newer, e.OfRound c) ∧
    Log.Orderly (newer ++ log) ∧ Log.assigned? c (newer ++ log) = some plain.1.assignment

lemma recorded_nil (hlog : Log.Orderly log) (hs : Log.assigned? c log = some s.assignment) :
    Recorded c log (s.noted, state, log) (s, state) :=
  ⟨[], rfl, fun _ he => (List.not_mem_nil he).elim, hlog, hs⟩

lemma recorded_cons {e : LogEntry υ}
    {r : Series (Query ⊕ String × Outcome) (NotedAnswer Answer) υ × σ × Log υ}
    {plain : Series Query Answer υ × σ} (he : e.OfRound c) (h : Recorded c (e :: log) r plain) :
    Recorded c log r plain := by
  obtain ⟨newer, hr, hround, horderly, hassigned⟩ := h
  have happend : newer ++ e :: log = newer ++ [e] ++ log := by simp
  rw [happend] at hr horderly hassigned
  refine ⟨newer ++ [e], hr, fun e' he' => ?_, horderly, hassigned⟩
  rcases List.mem_append.mp he' with he' | he'
  · exact hround e' he'
  · exact List.mem_singleton.mp he' ▸ he

/-- A round that goes on does the same, and it writes down its end. -/
lemma proceed_noted (p : Program Query Answer Outcome) (hlog : Log.Orderly log)
    (hs : Log.assigned? s.cluster log = some ⟨s.updater, true⟩) :
    Recorded s.cluster log
      (s.noted.proceed work.noted policy now (p.noted s.cluster) (state, log))
      (s.proceed work policy now p state) := by
  rw [proceed, proceed, advance_program_noted]
  generalize p.advance work.answer state = stopped
  obtain ⟨outcome | ⟨ms, rest⟩, state⟩ := stopped
  · refine ⟨[.finished s.cluster outcome], ?_, ?_, ⟨⟨s.updater, hs⟩, hlog⟩, ?_⟩
    · -- stated for any interval, which therefore nobody computes
      have hnoted : ∀ interval due, ({ s.noted with interval, phase := .armed due } :
          Series (Query ⊕ String × Outcome) (NotedAnswer Answer) υ) =
            Series.noted { s with interval, phase := .armed due } := fun _ _ => rfl
      exact Prod.ext (hnoted _ _) rfl
    · exact fun e he => List.mem_singleton.mp he ▸ .finished outcome
    · exact (if_pos rfl).trans (congrArg _ hs)
  · exact ⟨[], rfl, fun e he => (List.not_mem_nil he).elim, hlog, hs⟩

variable (work state) in
/-- A series does the same whether its rounds are written down or not. -/
lemma advance_noted (held : Bool) (hlog : Log.Orderly log)
    (hs : Log.assigned? s.cluster log = some s.assignment)
    (hheld : held = true → Log.Holds now s.updater log) :
    Recorded s.cluster log (s.noted.advance work.noted policy held now (state, log))
      (s.advance work policy held now state) := by
  obtain ⟨c, u, interval, phase⟩ := s
  cases phase with
  | ended => exact recorded_nil hlog hs
  | running due rest =>
      dsimp only [advance, noted, Phase.noted]
      split
      next => exact proceed_noted policy rest hlog hs
      next => exact recorded_nil hlog hs
  | armed due =>
      dsimp only [advance, noted, Phase.noted]
      by_cases hdue : due ≤ now
      · rw [if_pos hdue, if_pos hdue]
        by_cases hbegins : (held || work.alive u state) = true
        · have hnoted : (held || work.noted.alive u (state, log)) = true := hbegins
          rw [if_pos hnoted, if_pos hbegins]
          have horderly : Log.Orderly (.began c u now (work.alive u state) :: log) := by
            refine ⟨⟨hs, ?_⟩, hlog⟩
            rcases Bool.or_eq_true_iff.mp hbegins with h | h
            · exact Or.inr (hheld h)
            · exact Or.inl h
          have hbegan : Log.assigned? c (.began c u now (work.alive u state) :: log) =
              some ⟨u, true⟩ := (if_pos rfl).trans (congrArg _ hs)
          refine recorded_cons (.began u now (work.alive u state)) ?_
          exact proceed_noted (s := ⟨c, u, interval, .armed due⟩) policy
            (work.begin u c now state).1 horderly hbegan
        · have hnoted : ¬(held || work.noted.alive u (state, log)) = true := hbegins
          rw [if_neg hnoted, if_neg hbegins]
          exact recorded_nil (s := ⟨c, u, interval, .ended⟩) hlog hs
      · rw [if_neg hdue, if_neg hdue]
        exact recorded_nil hlog hs

end Series

/-! ### The timetable -/

namespace Timetable

variable {work : Workload Query Answer υ σ} {t : Timetable Query Answer υ}
  {s : Series Query Answer υ} {now stop : ℕ} {log : Log υ} {state : σ} {c : String} {u : υ}

lemma place_noted (l : List (Series Query Answer υ)) :
    Keyed.place Series.cluster s.noted (l.map Series.noted) =
      (Keyed.place Series.cluster s l).map Series.noted := by
  induction l with
  | nil => rfl
  | cons s' l ih =>
      have hcluster : ∀ s : Series Query Answer υ, s.noted.cluster = s.cluster := fun _ => rfl
      rw [List.map_cons, Keyed.place, Keyed.place, hcluster, hcluster]
      split
      · rfl
      · rfl
      · rw [List.map_cons, ih]

lemma noted_insert : ({ t with series := t.series.insert s } : Timetable Query Answer υ).noted =
    { t.noted with series := t.noted.series.insert s.noted } := by
  have hseries : ({ t with series := t.series.insert s } : Timetable Query Answer υ).noted.series =
      t.noted.series.insert s.noted := Keyed.ext_toList (place_noted _).symm
  rw [← hseries]
  rfl

lemma find?_noted : t.noted.series.find? c = (t.series.find? c).map Series.noted :=
  List.find?_map

lemma nextDue?_noted : t.noted.nextDue? now stop = t.nextDue? now stop := by
  have hdue : t.noted.series.toList.filterMap (fun s => s.phase.due?) =
      t.series.toList.filterMap fun s => s.phase.due? := by
    refine List.filterMap_map.trans (List.filterMap_congr fun s _ => s.due?_noted)
  rw [nextDue?, nextDue?, hdue]

/-- The series of a timetable are those of which a log tells, and those that still have to let their
updaters go were replaced at this moment. -/
structure Matches (now : ℕ) (t : Timetable Query Answer υ) (log : Log υ) : Prop where
  orderly : Log.Orderly log
  closed : Log.isClosed log = t.closed
  assigned : ∀ c, Log.assigned? c log = (t.series.find? c).map Series.assignment
  released : ∀ s, .release s ∈ t.turns → Log.Cancelled now s.updater log

lemma Matches.of_turns {turns : List (Turn Query Answer υ)} (h : t.Matches now log)
    (hturns : turns ⊆ t.turns) : ({ t with turns } : Timetable Query Answer υ).Matches now log :=
  ⟨h.orderly, h.closed, h.assigned, fun s hs => h.released s (hturns hs)⟩

/-- If nothing waits for time to pass, a log matches at any time. -/
lemma Matches.later (h : t.Matches now log) (hturns : t.turns = []) (stop : ℕ) :
    t.Matches stop log :=
  ⟨h.orderly, h.closed, h.assigned, fun _ hs => (List.not_mem_nil (hturns ▸ hs)).elim⟩

/-- A timetable has come to the same with its rounds written down, and its log goes on. -/
def Recorded (now : ℕ) (log : Log υ)
    (r : Timetable (Query ⊕ String × Outcome) (NotedAnswer Answer) υ × σ × Log υ)
    (plain : Timetable Query Answer υ × σ) : Prop :=
  ∃ newer, r = (plain.1.noted, plain.2, newer ++ log) ∧ plain.1.Matches now (newer ++ log)

/-- What comes to the same goes on to the same. -/
lemma Recorded.trans {later : ℕ} {newer : Log υ}
    {r : Timetable (Query ⊕ String × Outcome) (NotedAnswer Answer) υ × σ × Log υ}
    {plain : Timetable Query Answer υ × σ} (h : Recorded later (newer ++ log) r plain) :
    Recorded later log r plain := by
  obtain ⟨last, hr, hplain⟩ := h
  rw [← List.append_assoc] at hr hplain
  exact ⟨last ++ newer, hr, hplain⟩

variable [DecidableEq υ]

lemma holds_noted : t.noted.holds u = t.holds u := by
  have hseries : t.noted.series.toList.filter Series.inRound =
      (t.series.toList.filter Series.inRound).map Series.noted :=
    List.filter_map.trans (congrArg _ (List.filter_congr fun s _ => s.inRound_noted))
  have hturns : t.noted.turns.filterMap Turn.released? =
      (t.turns.filterMap Turn.released?).map Series.noted := by
    refine List.filterMap_map.trans (Eq.trans ?_ List.map_filterMap.symm)
    refine List.filterMap_congr fun turn _ => ?_
    cases turn <;> rfl
  rw [holds, holds, hseries, hturns, ← List.map_append, List.any_map]
  rfl

/-- Who is held by a round in a timetable is held by one in its log. -/
lemma Matches.holds (h : t.Matches now log) (hu : t.holds u = true) : Log.Holds now u log := by
  rw [Timetable.holds, List.any_eq_true] at hu
  obtain ⟨s, hs, hupdater⟩ := hu
  obtain rfl := of_decide_eq_true hupdater
  rcases List.mem_append.mp hs with hs | hs
  · obtain ⟨hmem, hround⟩ := List.mem_filter.mp hs
    refine Or.inl ⟨s.cluster, ?_⟩
    rw [h.assigned, Keyed.mem_iff_find?.mp hmem, Option.map_some, Series.assignment, hround]
  · obtain ⟨turn, hturn, hreleased⟩ := List.mem_filterMap.mp hs
    cases turn with
    | start c => cases hreleased
    | release s' =>
        obtain rfl := Option.some.inj hreleased
        exact Or.inr (h.released s' hturn)

lemma turns_foldl_advanceOne (l : List (Series Query Answer υ)) :
    (l.foldl (advanceOne work now) (t, state)).1.turns = t.turns := by
  induction l generalizing t state with
  | nil => rfl
  | cons s l ih => exact ih

lemma turns_takeTurns (turns : List (Turn Query Answer υ)) :
    (takeTurns work now turns t state).1.turns = [] := by
  induction turns generalizing t state with
  | nil => rfl
  | cons turn rest ih =>
      cases turn with
      | release s => exact ih
      | start c =>
          rw [takeTurns]
          split
          · exact ih
          · exact ih

variable (work state)

/-- One series of a timetable does the same. -/
lemma advanceOne_noted (h : t.Matches now log) (hs : t.series.find? s.cluster = some s) :
    Recorded now log (advanceOne work.noted now (t.noted, state, log) s.noted)
      (advanceOne work now (t, state) s) := by
  have hassigned : Log.assigned? s.cluster log = some s.assignment := by
    rw [h.assigned, hs, Option.map_some]
  obtain ⟨newer, hr, hround, horderly, hafter⟩ := Series.advance_noted work state t.policy
    (t.holds s.updater) h.orderly hassigned h.holds
  refine ⟨newer, ?_, horderly, ?_, fun c => ?_, fun s' hs' => ?_⟩
  · have hholds : t.noted.holds s.noted.updater = t.holds s.updater := holds_noted
    rw [advanceOne, advanceOne, hholds]
    dsimp only
    rw [show t.noted.policy = t.policy from rfl, hr, noted_insert]
    rfl
  · exact (Log.isClosed_append hround).trans h.closed
  · rw [find?_advanceOne]
    split
    next hc => rw [← hc, hafter, Option.map_some]
    next hc => rw [Log.assigned?_append_of_ne hround hc, h.assigned]
  · exact (h.released s' hs').append newer

/-- Series of different clusters do the same one after the other. -/
lemma foldl_advanceOne_noted {l : List (Series Query Answer υ)}
    (hl : (l.map Series.cluster).Nodup) (hs : ∀ s ∈ l, t.series.find? s.cluster = some s)
    (h : t.Matches now log) :
    Recorded now log ((l.map Series.noted).foldl (advanceOne work.noted now) (t.noted, state, log))
      (l.foldl (advanceOne work now) (t, state)) := by
  induction l generalizing t state log with
  | nil => exact ⟨[], rfl, h⟩
  | cons s l ih =>
      obtain ⟨hnew, hl⟩ := List.nodup_cons.mp hl
      obtain ⟨hfirst, hs⟩ := List.forall_mem_cons.mp hs
      obtain ⟨newer, hr, hmatches⟩ := advanceOne_noted work state h hfirst
      rw [List.map_cons, List.foldl_cons, List.foldl_cons, hr]
      exact (ih _ hl (find?_advanceOne_of_mem hnew hs) hmatches).trans

lemma advanceAll_noted (h : t.Matches now log) :
    Recorded now log (t.noted.advanceAll work.noted now (state, log))
      (t.advanceAll work now state) :=
  foldl_advanceOne_noted work state t.series.nodup_keys
    (fun _ hs => Keyed.find?_eq_some_iff.mpr ⟨hs, rfl⟩) h

/-- Turns are taken in the same way. -/
lemma takeTurns_noted (turns : List (Turn Query Answer υ))
    (h : ({ t with turns } : Timetable Query Answer υ).Matches now log) :
    Recorded now log (takeTurns work.noted now (turns.map Turn.noted) t.noted (state, log))
      (takeTurns work now turns t state) := by
  induction turns generalizing t state log with
  | nil => exact ⟨[], rfl, h⟩
  | cons turn rest ih =>
      let left : Timetable Query Answer υ := { t with turns := rest }
      have hleft : left.Matches now log := h.of_turns (List.subset_cons_self turn rest)
      cases turn with
      | release s => exact ih (t := left) _ hleft
      | start c =>
          rw [List.map_cons, Turn.noted, takeTurns, takeTurns, find?_noted]
          cases hs : t.series.find? c with
          | none => exact ih (t := left) _ hleft
          | some s =>
              obtain rfl := (Keyed.find?_eq_some_iff.mp hs).2
              obtain ⟨newer, hr, hmatches⟩ :=
                advanceOne_noted work state hleft hs
              change Recorded now log
                (takeTurns work.noted now (rest.map Turn.noted)
                  (advanceOne work.noted now (left.noted, state, log) s.noted).1
                  (advanceOne work.noted now (left.noted, state, log) s.noted).2)
                (takeTurns work now rest (advanceOne work now (left, state) s).1
                  (advanceOne work now (left, state) s).2)
              rw [hr]
              exact (ih (t := (advanceOne work now (left, state) s).1) _ hmatches).trans

/-- Whatever is due later is done in the same way. -/
lemma runAfter_noted (stop : ℕ) (h : t.Matches now log) (hturns : t.turns = []) :
    Recorded stop log (t.noted.runAfter work.noted stop now (state, log))
      (t.runAfter work stop now state) := by
  induction now, t, state using Timetable.runAfter.induct work stop generalizing log with
  | case1 now t state hdue =>
      rw [runAfter_of_none hdue, runAfter_of_none (nextDue?_noted.trans hdue)]
      exact ⟨[], rfl, h.later hturns stop⟩
  | case2 now t state due hdue t' state' hadvance ih =>
      obtain ⟨newer, hr, hmatches⟩ :=
        advanceAll_noted work state (h.later hturns due)
      have hafter : (t.advanceAll work due state).1.turns = t.turns := turns_foldl_advanceOne _
      rw [runAfter_of_some hdue, runAfter_of_some (nextDue?_noted.trans hdue), hr]
      rw [hadvance] at hmatches hafter ⊢
      exact (ih hmatches (hafter.trans hturns)).trans

/-- Whatever time passes, a timetable does the same whether its rounds are written down or not. If
the log matched the timetable before, it does so again. -/
theorem runUntil_noted (stop : ℕ) (h : t.Matches now log) :
    Recorded stop log (t.noted.runUntil work.noted stop now (state, log))
      (t.runUntil work stop now state) := by
  obtain ⟨newer, hr, hmatches⟩ := takeTurns_noted work state t.turns h
  rw [runUntil, runUntil]
  rw [show t.noted.turns = t.turns.map Turn.noted from rfl, hr]
  exact (runAfter_noted work _ stop hmatches (turns_takeTurns t.turns)).trans

end Timetable

end Federation
