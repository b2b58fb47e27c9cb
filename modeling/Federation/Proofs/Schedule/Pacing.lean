import Federation.Proofs.Pace.Intervals
import Federation.Proofs.Schedule.Discipline

/-!
The intervals that a timetable waits for.

* `Log.ofSeries`, `Log.outcomes`, `Log.starts`: what a log tells of the series that a cluster has
  now.
* `Series.Paced`: the interval of a series is what the outcomes of its rounds come to, and after a
  round the next one is due when the interval has passed.
* `Series.paced_advance`: a series stays paced whatever it does. `Timetable.keepsAt_paced`: so do
  all series as time passes.
* `Watch.configOf?`: the configuration with which the series of a cluster was asked for last.
* `Watch.rounds_paced`: in whichever order series are asked for, updaters are dropped, time passes
  and rounds are cancelled, all series are paced by their policy, and how long the intervals of both
  policies are.
-/

namespace Federation

variable {Query : Type} {Answer : Query → Type} {υ σ : Type}

/-! ### What a log tells of a series -/

namespace Log

variable {log newer : Log υ} {c d : String}

/-- The entries about a cluster since a series of it was asked for last. -/
def ofSeries (c : String) : Log υ → Log υ
  | [] => []
  | .scheduled d _ _ :: log => if d = c then [] else ofSeries c log
  | e :: log => if e.cluster? = some c then e :: ofSeries c log else ofSeries c log

/-- The outcomes of the rounds of a series, the oldest one first. -/
def outcomes (c : String) (log : Log υ) : List Outcome :=
  (ofSeries c log).reverse.filterMap fun
    | .finished _ outcome => some outcome
    | _ => none

/-- When the rounds of a series began. -/
def starts (c : String) (log : Log υ) : List ℕ :=
  (ofSeries c log).filterMap fun
    | .began _ _ now _ => some now
    | _ => none

lemma ofSeries_scheduled (u : υ) (now : ℕ) : ofSeries c (.scheduled c u now :: log) = [] :=
  if_pos rfl

lemma ofSeries_cons {e : LogEntry υ} (he : e.OfRound c) :
    ofSeries c (e :: log) = e :: ofSeries c log := by
  cases he <;> exact if_pos rfl

/-- What is about other clusters is left out. -/
lemma ofSeries_cons_of_ne {e : LogEntry υ} (he : e.cluster? ≠ some d) :
    ofSeries d (e :: log) = ofSeries d log := by
  cases e with
  | scheduled c u now => exact if_neg fun h => he (congrArg some h)
  | _ => exact if_neg he

lemma ofSeries_append_of_ne (h : ∀ e ∈ newer, e.OfRound c) (hc : c ≠ d) :
    ofSeries d (newer ++ log) = ofSeries d log := by
  induction newer with
  | nil => rfl
  | cons e newer ih =>
      obtain ⟨he, hnewer⟩ := List.forall_mem_cons.mp h
      have hne : e.cluster? ≠ some d := by
        cases he <;> exact fun h => hc (Option.some.inj h)
      rw [List.cons_append, ofSeries_cons_of_ne hne, ih hnewer]

lemma outcomes_finished (outcome : Outcome) :
    outcomes c (.finished c outcome :: log) = outcomes c log ++ [outcome] := by
  rw [outcomes, ofSeries_cons (.finished outcome), List.reverse_cons, List.filterMap_append]
  rfl

lemma starts_finished (outcome : Outcome) :
    starts c (.finished c outcome :: log) = starts c log := by
  rw [starts, ofSeries_cons (.finished outcome)]
  rfl

lemma outcomes_began (u : υ) (now : ℕ) (held : Bool) :
    outcomes c (.began c u now held :: log) = outcomes c log := by
  rw [outcomes, ofSeries_cons (.began u now held), List.reverse_cons, List.filterMap_append]
  exact List.append_nil _

lemma starts_began (u : υ) (now : ℕ) (held : Bool) :
    starts c (.began c u now held :: log) = now :: starts c log := by
  rw [starts, ofSeries_cons (.began u now held)]
  rfl

end Log

/-! ### One series -/

namespace Series

/-- A series waits as a policy says, if `first` is the interval with which it began. -/
structure Paced (policy : Policy) (first : Duration) (now : ℕ) (log : Log υ)
    (s : Series Query Answer υ) : Prop where
  interval : s.interval = policy.waitAfter first (log.outcomes s.cluster)
  began : ∀ t ∈ log.starts s.cluster, t ≤ now
  due : ∀ due, s.phase = .armed due → log.outcomes s.cluster ≠ [] → ∃ finished ≤ now,
    (∀ t ∈ log.starts s.cluster, t ≤ finished) ∧ due = finished + s.interval.ceilMillis

variable {work : Workload Query Answer υ σ} {s : Series Query Answer υ} {policy : Policy}
  {first : Duration} {now stop : ℕ} {log log' : Log υ} {state : σ}

lemma Paced.later (h : s.Paced policy first now log) (hle : now ≤ stop) :
    s.Paced policy first stop log where
  interval := h.interval
  began t ht := (h.began t ht).trans hle
  due due hphase hsome := by
    obtain ⟨finished, hfinished, hdue⟩ := h.due due hphase hsome
    exact ⟨finished, hfinished.trans hle, hdue⟩

/-- Only what a log tells of the series counts. -/
lemma Paced.of_ofSeries (h : s.Paced policy first now log)
    (hlog : Log.ofSeries s.cluster log' = Log.ofSeries s.cluster log) :
    s.Paced policy first now log' := by
  have houtcomes : log'.outcomes s.cluster = log.outcomes s.cluster := by
    rw [Log.outcomes, hlog, Log.outcomes]
  have hstarts : log'.starts s.cluster = log.starts s.cluster := by
    rw [Log.starts, hlog, Log.starts]
  refine ⟨?_, ?_, ?_⟩
  · rw [houtcomes]
    exact h.interval
  · rw [hstarts]
    exact h.began
  · rw [houtcomes, hstarts]
    exact h.due

/-- Nothing is due for a while if no round is armed. -/
lemma Paced.of_not_armed (hinterval : s.interval = policy.waitAfter first (log.outcomes s.cluster))
    (hbegan : ∀ t ∈ log.starts s.cluster, t ≤ now) (hphase : ∀ due, s.phase ≠ .armed due) :
    s.Paced policy first now log :=
  ⟨hinterval, hbegan, fun due hdue => (hphase due hdue).elim⟩

lemma paced_noted : s.noted.Paced policy first now log ↔ s.Paced policy first now log := by
  have hphase : ∀ due, s.noted.phase = .armed due ↔ s.phase = .armed due := by
    intro due
    rw [noted]
    cases s.phase <;> simp [Phase.noted]
  constructor
  · exact fun h => ⟨h.interval, h.began, fun due hdue => h.due due ((hphase due).mpr hdue)⟩
  · exact fun h => ⟨h.interval, h.began, fun due hdue => h.due due ((hphase due).mp hdue)⟩

/-- A series is paced after some of its rounds, which were written down. -/
def Onward (policy : Policy) (first : Duration) (now : ℕ) (c : String) (log : Log υ)
    (r : Series (Query ⊕ String × Outcome) (NotedAnswer Answer) υ × σ × Log υ) : Prop :=
  ∃ (s : Series Query Answer υ) (state : σ) (newer : Log υ), r = (s.noted, state, newer ++ log) ∧
    s.cluster = c ∧ (∀ e ∈ newer, e.OfRound c) ∧ s.Paced policy first now (newer ++ log)

lemma Onward.of_cons {c : String} {e : LogEntry υ}
    {r : Series (Query ⊕ String × Outcome) (NotedAnswer Answer) υ × σ × Log υ}
    (he : e.OfRound c) (h : Onward policy first now c (e :: log) r) :
    Onward policy first now c log r := by
  obtain ⟨s, state, newer, hr, hs, hround, hpaced⟩ := h
  have happend : newer ++ e :: log = newer ++ [e] ++ log := by simp
  rw [happend] at hr hpaced
  refine ⟨s, state, newer ++ [e], hr, hs, ?_, hpaced⟩
  exact List.forall_mem_append.mpr ⟨hround, List.forall_mem_singleton.mpr he⟩

/-- A round goes on, and when it is finished the next interval begins. -/
lemma paced_proceed (p : Program Query Answer Outcome)
    (hinterval : s.interval = policy.waitAfter first (log.outcomes s.cluster))
    (hbegan : ∀ t ∈ log.starts s.cluster, t ≤ now) :
    Onward policy first now s.cluster log
      (s.noted.proceed work.noted policy now (p.noted s.cluster) (state, log)) := by
  rw [proceed, advance_program_noted]
  generalize p.advance work.answer state = stopped
  obtain ⟨outcome | ⟨ms, rest⟩, state⟩ := stopped
  · obtain ⟨interval, hnext⟩ :
        ∃ interval, interval = policy.nextWait outcome s.noted.interval := ⟨_, rfl⟩
    dsimp only
    rw [← hnext]
    refine ⟨{ s with interval, phase := .armed (now + interval.ceilMillis) }, state,
      [.finished s.cluster outcome], rfl, rfl,
      List.forall_mem_singleton.mpr (.finished outcome), ?_, ?_, ?_⟩
    · change interval =
        policy.waitAfter first (Log.outcomes s.cluster (.finished s.cluster outcome :: log))
      rw [Log.outcomes_finished, Policy.waitAfter_concat, ← hinterval]
      exact hnext
    · change ∀ t ∈ Log.starts s.cluster (.finished s.cluster outcome :: log), t ≤ now
      rw [Log.starts_finished]
      exact hbegan
    · rintro due hdue -
      cases hdue
      refine ⟨now, le_rfl, ?_, rfl⟩
      change ∀ t ∈ Log.starts s.cluster (.finished s.cluster outcome :: log), t ≤ now
      rw [Log.starts_finished]
      exact hbegan
  · exact ⟨{ s with phase := .running (now + ms) rest }, state, [], rfl, rfl,
      List.forall_mem_nil _, .of_not_armed hinterval hbegan fun _ h => by cases h⟩

variable (work state) in
/-- Whatever a series does, it stays paced. -/
lemma paced_advance (held : Bool) (h : s.Paced policy first now log) :
    Onward policy first now s.cluster log
      (s.noted.advance work.noted policy held now (state, log)) := by
  obtain ⟨c, u, interval, phase⟩ := s
  have hstay : Onward policy first now c log
      ((⟨c, u, interval, phase⟩ : Series Query Answer υ).noted, state, log) :=
    ⟨⟨c, u, interval, phase⟩, state, [], rfl, rfl, List.forall_mem_nil _, h⟩
  cases phase with
  | ended => exact hstay
  | running due rest =>
      dsimp only [advance, noted, Phase.noted]
      split
      next => exact paced_proceed rest h.interval h.began
      next => exact hstay
  | armed due =>
      dsimp only [advance, noted, Phase.noted]
      split
      next =>
        split
        next =>
          have hbegan : ∀ t ∈ Log.starts c (.began c u now (work.alive u state) :: log),
              t ≤ now := by
            rw [Log.starts_began]
            exact List.forall_mem_cons.mpr ⟨le_rfl, h.began⟩
          have hinterval : interval = policy.waitAfter first
              (Log.outcomes c (.began c u now (work.alive u state) :: log)) := by
            rw [Log.outcomes_began]
            exact h.interval
          refine Onward.of_cons (.began u now (work.alive u state)) ?_
          exact paced_proceed (s := ⟨c, u, interval, .armed due⟩) (work.begin u c now state).1
            hinterval hbegan
        next =>
          exact ⟨⟨c, u, interval, .ended⟩, state, [], rfl, rfl,
            List.forall_mem_nil _, .of_not_armed h.interval h.began fun _ h => by cases h⟩
      next => exact hstay

end Series

/-! ### The timetable -/

namespace Timetable

variable {work : Workload Query Answer υ σ} {policy : Policy} {asked : String → Option Config}
  {now : ℕ} {log : Log υ}

/-- All series wait as the policy of the timetable says. `asked` gives the configurations with which
they were asked for. -/
structure Paced (policy : Policy) (asked : String → Option Config) (now : ℕ) (log : Log υ)
    (t : Timetable Query Answer υ) : Prop where
  same : t.policy = policy
  series : ∀ c s, t.series.find? c = some s →
    ∃ config, asked c = some config ∧ s.Paced policy (policy.firstWait config) now log

variable (Query Answer) in
/-- The same of a timetable whose rounds are written down. -/
structure PacedNoted (policy : Policy) (asked : String → Option Config) (now : ℕ)
    (t : Timetable (Query ⊕ String × Outcome) (NotedAnswer Answer) υ) (state : σ × Log υ) :
    Prop where
  same : t.policy = policy
  series : ∀ c s, t.series.find? c = some s →
    ∃ (plain : Series Query Answer υ) (config : Config), s = plain.noted ∧
      asked c = some config ∧ plain.Paced policy (policy.firstWait config) now state.2

lemma pacedNoted_noted {t : Timetable Query Answer υ} {state : σ} :
    PacedNoted Query Answer policy asked now t.noted (state, log) ↔
      t.Paced policy asked now log := by
  constructor
  · intro h
    refine ⟨h.same, fun c s hs => ?_⟩
    have hnoted : t.noted.series.find? c = some s.noted := by
      rw [find?_noted, hs, Option.map_some]
    obtain ⟨plain, config, hplain, hconfig, hpaced⟩ := h.series c s.noted hnoted
    refine ⟨config, hconfig, Series.paced_noted.mp ?_⟩
    rw [hplain]
    exact Series.paced_noted.mpr hpaced
  · intro h
    refine ⟨h.same, fun c s hs => ?_⟩
    rw [find?_noted] at hs
    obtain ⟨plain, hplain, rfl⟩ := Option.map_eq_some_iff.mp hs
    obtain ⟨config, hconfig, hpaced⟩ := h.series c plain hplain
    exact ⟨plain, config, rfl, hconfig, hpaced⟩

variable [DecidableEq υ]

/-- All series stay paced as time passes. -/
lemma keepsAt_paced : KeepsAt work.noted (PacedNoted (σ := σ) Query Answer policy asked) where
  turns turns h := ⟨h.same, h.series⟩
  later hle h := by
    refine ⟨h.same, fun c s hs => ?_⟩
    obtain ⟨plain, config, hplain, hconfig, hpaced⟩ := h.series c s hs
    exact ⟨plain, config, hplain, hconfig, hpaced.later hle⟩
  advance := by
    rintro now t ⟨state, log⟩ s ⟨rfl, hseries⟩ hs
    obtain ⟨plain, config, rfl, hconfig, hpaced⟩ := hseries _ _ hs
    obtain ⟨plain', state', newer, hr, hcluster, hround, hpaced'⟩ :=
      Series.paced_advance work state (t.holds plain.noted.updater) hpaced
    have hadvance : advanceOne work.noted now (t, state, log) plain.noted =
        ({ t with series := t.series.insert plain'.noted }, state', newer ++ log) := by
      rw [advanceOne]
      dsimp only
      rw [hr]
    rw [hadvance]
    refine ⟨rfl, fun c s hs => ?_⟩
    change (t.series.insert plain'.noted).find? c = some s at hs
    rw [Keyed.find?_insert] at hs
    split at hs
    next hc =>
      have hsame : plain.noted.cluster = c := hcluster.symm.trans hc
      exact ⟨plain', config, (Option.some.inj hs).symm, hsame ▸ hconfig, hpaced'⟩
    next hc =>
      -- the log tells nothing new of other series
      obtain ⟨other, config, rfl, hconfig, hpaced⟩ := hseries c s hs
      have hother : plain.cluster ≠ other.cluster := fun heq =>
        hc ((hcluster.trans heq).trans (Keyed.find?_eq_some_iff.mp hs).2)
      exact ⟨other, config, rfl, hconfig,
        hpaced.of_ofSeries (Log.ofSeries_append_of_ne hround hother)⟩

variable (work) in
/-- The plain run is read off the one in which rounds are written down. -/
lemma Paced.runUntil {t : Timetable Query Answer υ} (h : t.Paced policy asked now log)
    (hmatches : t.Matches now log) (state : σ) (stop : ℕ) :
    (t.runUntil work stop now state).1.Paced policy asked (max now stop)
      (t.noted.runUntil work.noted stop now (state, log)).2.2 := by
  have hnoted : PacedNoted Query Answer policy asked now t.noted (state, log) :=
    pacedNoted_noted.mpr h
  have hafter : PacedNoted Query Answer policy asked (max now stop)
      (t.noted.runUntil work.noted stop now (state, log)).1
      (t.noted.runUntil work.noted stop now (state, log)).2 := keepsAt_paced.runUntil hnoted
  obtain ⟨newer, hr, -⟩ := runUntil_noted work state stop hmatches
  rw [hr] at hafter ⊢
  exact pacedNoted_noted.mp hafter

end Timetable

/-! ### Every event -/

namespace Watch

variable {w : Watch Query Answer υ σ} {policy : Policy} {c : String}

/-- The configuration with which the series of a cluster was asked for last. -/
def configOf? (c : String) (events : List (Event υ σ)) : Option Config :=
  events.reverse.findSome? fun
    | .schedule config d _ => if d = c then some config else none
    | _ => none

/-- All series wait as the policy says. -/
def Paced (policy : Policy) (events : List (Event υ σ)) (w : Watch Query Answer υ σ) : Prop :=
  w.timetable.Paced policy (configOf? · events) w.clock w.log

variable [DecidableEq υ] (work : Workload Query Answer υ σ) {events : List (Event υ σ)}

omit [DecidableEq υ] in
/-- Events that ask for no series leave the configurations as they are. -/
lemma configOf?_concat_of_ne {e : Event υ σ} (he : ∀ config d u, e ≠ .schedule config d u) :
    configOf? c (events ++ [e]) = configOf? c events := by
  rw [configOf?, List.reverse_concat, List.findSome?_cons]
  cases e with
  | schedule config d u => exact (he config d u rfl).elim
  | _ => rfl

omit [DecidableEq υ] in
lemma configOf?_concat_schedule {config : Config} {d : String} {u : υ} :
    configOf? c (events ++ [.schedule config d u]) =
      if d = c then some config else configOf? c events := by
  rw [configOf?, List.reverse_concat, List.findSome?_cons]
  by_cases hd : d = c
  · rw [if_pos hd]
    dsimp only
    rw [if_pos hd]
  · rw [if_neg hd]
    dsimp only
    rw [if_neg hd]
    rfl

omit [DecidableEq υ] in
lemma paced_idle (state : σ) : (idle policy state : Watch Query Answer υ σ).Paced policy [] :=
  ⟨rfl, fun _ _ h => by cases h⟩

omit [DecidableEq υ] in
/-- A series that is asked for begins with the configured interval. -/
lemma Paced.schedule (hw : w.Consistent) (h : w.Paced policy events) (config : Config) (d : String)
    (u : υ) : (w.timetable.schedule config w.clock d u).Paced policy
      (configOf? · (events ++ [.schedule config d u])) w.clock
      (.scheduled d u w.clock :: w.log) := by
  cases hclosed : w.timetable.closed with
  | true =>
      -- nothing is scheduled any more
      have hnil := hw.clusters_eq_nil (Log.isClosed_iff.mp (hw.closed.trans hclosed))
      have hsame : w.timetable.schedule config w.clock d u = w.timetable := if_pos hclosed
      rw [hsame]
      refine ⟨h.same, fun c s hs => ?_⟩
      have hmem := (Keyed.find?_eq_some_iff.mp hs).1
      rw [List.map_eq_nil_iff.mp hnil] at hmem
      cases hmem
  | false =>
      refine ⟨?_, fun c s hs => ?_⟩
      · rw [Timetable.schedule, if_neg (by simp [hclosed])]
        exact h.same
      · rw [Timetable.find?_schedule hclosed] at hs
        rw [configOf?_concat_schedule]
        by_cases hd : d = c
        · rw [if_pos hd] at hs
          obtain rfl := Option.some.inj hs
          have hlog : Log.ofSeries d (.scheduled d u w.clock :: w.log) = [] :=
            Log.ofSeries_scheduled u w.clock
          refine ⟨config, if_pos hd, ?_, fun t ht => ?_, fun due _ hsome => ?_⟩
          · -- stated for any interval, which therefore nobody computes
            have hbegin : ∀ interval, interval = policy.waitAfter interval [] := fun _ => rfl
            rw [Log.outcomes, hlog, h.same]
            exact hbegin _
          · rw [Log.starts, hlog] at ht
            cases ht
          · rw [Log.outcomes, hlog] at hsome
            exact (hsome rfl).elim
        · rw [if_neg hd] at hs
          rw [if_neg hd]
          obtain ⟨config, hconfig, hpaced⟩ := h.series c s hs
          have hsc : s.cluster = c := (Keyed.find?_eq_some_iff.mp hs).2
          refine ⟨config, hconfig, hpaced.of_ofSeries (Log.ofSeries_cons_of_ne fun heq => hd ?_)⟩
          exact (Option.some.inj heq).trans hsc

/-- All series stay paced as time passes. -/
lemma Paced.sleep (hw : w.Consistent) (h : w.Paced policy events) (ms : ℕ) :
    (w.sleep work ms).Paced policy events := by
  rw [Watch.sleep]
  split
  · exact h
  · have hafter := Timetable.Paced.runUntil work h hw w.state (w.clock + ms)
    rw [max_eq_right (Nat.le_add_right _ _)] at hafter
    exact hafter

/-- Every event keeps all series paced. -/
lemma Paced.next (hw : w.Consistent) (h : w.Paced policy events) (e : Event υ σ) :
    (w.next work e).Paced policy (events ++ [e]) := by
  cases e with
  | schedule config d u => exact h.schedule hw config d u
  | shutDown => exact ⟨h.same, fun c s hs => by cases hs⟩
  | change f =>
      refine ⟨h.same, fun c s hs => ?_⟩
      rw [configOf?_concat_of_ne fun _ _ _ h => by cases h]
      exact h.series c s hs
  | sleep ms =>
      obtain ⟨hsame, hseries⟩ := h.sleep work hw ms
      refine ⟨hsame, fun c s hs => ?_⟩
      rw [configOf?_concat_of_ne fun _ _ _ h => by cases h]
      exact hseries c s hs

lemma paced_after (state : σ) (events : List (Event υ σ)) :
    ((idle policy state : Watch Query Answer υ σ).after work events).Paced policy events := by
  induction events using List.reverseRecOn with
  | nil => exact paced_idle state
  | append_singleton events e ih =>
      have hconsistent := ((consistent_idle policy state :
        (idle policy state : Watch Query Answer υ σ).Consistent).after work events).1
      rw [Watch.after, List.foldl_concat]
      exact ih.next work hconsistent e

/-- By an adaptive policy with valid settings no interval is shorter than a second. Until a round
succeeds it is the configured one, or a second, and from then on it is in full seconds and within
the limit. A failed round repeats the interval before it. By the fixed policy it is always the
configured one, or a second. In whichever order series are asked for, updaters are dropped, time
passes and all rounds are cancelled, every series waits for these intervals after its rounds. -/
theorem rounds_paced (a : Adaptation) (ha : a.check = .ok ()) :
    (∀ (config : Config) (outcomes : List Outcome),
      let x := (Policy.adaptive a).waitAfter ((Policy.adaptive a).firstWait config)
      Policy.minInterval.toNanos ≤ (x outcomes).toNanos ∧
      ((∀ o ∈ outcomes, o = none) → x outcomes = config.interval.max Policy.minInterval) ∧
      ((∃ o ∈ outcomes, o ≠ none) → a.Capped (x outcomes)) ∧
      x (outcomes ++ [none]) = x outcomes) ∧
    (∀ (config : Config) (outcomes : List Outcome),
      Policy.fixed.waitAfter (Policy.fixed.firstWait config) outcomes =
        config.interval.max Policy.minInterval) ∧
    ∀ (policy : Policy) (state : σ) (events : List (Event υ σ)),
      let w := (idle policy state).after work events
      ∀ c s, w.timetable.series.find? c = some s → ∃ config, configOf? c events = some config ∧
        s.Paced policy (policy.firstWait config) w.clock w.log := by
  refine ⟨fun config outcomes => ?_, fun config outcomes => ?_, fun policy state events => ?_⟩
  · have hfirst := (Policy.adaptive a).minInterval_le_firstWait config
    have hlong := (Policy.adaptive a).minInterval_le_waitAfter outcomes hfirst
    refine ⟨hlong, Adaptation.waitAfter_of_failed hfirst, Adaptation.capped_waitAfter ha hfirst, ?_⟩
    rw [Policy.waitAfter_concat]
    exact Adaptation.nextWait_none hlong
  · exact Policy.fixed_waitAfter outcomes (Policy.fixed.minInterval_le_firstWait config)
  · exact (paced_after work state events).series

/-- By the standard settings, with a first interval of twenty seconds and a half and a script of two
rounds, the first of which fails. -/
theorem rounds_paced_standard :
    let policy := Policy.adaptive .standard
    let config : Config := { Config.single "europe" with intervalMs := 20500 }
    let x := policy.waitAfter (policy.firstWait config)
    let w := (idle policy [.ofRounds [⟨3000, none⟩, ⟨3000, some 0⟩]]).after Script.workload
      [.schedule config "asia" 0, .sleep 30000]
    Adaptation.standard.check = .ok () ∧ x [none] = config.interval.max Policy.minInterval ∧
    Adaptation.standard.Capped (x [none, some 0]) ∧ w.log.outcomes "asia" = [none, some 0] ∧
    ∃ s, w.timetable.series.find? "asia" = some s ∧
      s.Paced policy (policy.firstWait config) w.clock w.log := by
  intro policy config x w
  obtain ⟨hadaptive, -, hrounds⟩ := rounds_paced Script.workload .standard rfl
  obtain ⟨-, hfailed, -, -⟩ := hadaptive config [none]
  obtain ⟨-, -, hcapped, -⟩ := hadaptive config [none, some 0]
  have hsome : (w.timetable.series.find? "asia").isSome = true := by decide +kernel
  obtain ⟨s, hs⟩ := Option.isSome_iff_exists.mp hsome
  obtain ⟨config', hconfig, hpaced⟩ := hrounds policy [.ofRounds [⟨3000, none⟩, ⟨3000, some 0⟩]]
    [.schedule config "asia" 0, .sleep 30000] "asia" s hs
  obtain rfl : config = config' := Option.some.inj hconfig
  exact ⟨rfl, hfailed (by decide), hcapped (by decide), by decide +kernel, s, hs, hpaced⟩

end Watch

end Federation
