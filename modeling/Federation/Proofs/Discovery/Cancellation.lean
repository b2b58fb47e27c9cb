import Federation.Proofs.Discovery.Leaks
import Federation.Proofs.Discovery.Pauses
import Federation.Proofs.Schedule.Timetable
import Federation.Proofs.Simulation.Timed

/-!
Discovery that ends in the middle of a round.

* `World.Suspended`: what holds of the connections of a cluster and of what is left of its round, if
  that is in progress. `Series.suspended_advance`: a series keeps it when it does what is due.
* `Timetable.Wired`, `Session.Wired`: the invariant of a timetable and of its session, which every
  happening keeps (`Session.Wired.happen`).
* `Session.awaited?`: the node whose answer the round of a cluster awaits.
* `Session.shutDown_disconnects_iff`: when discovery ends, exactly those nodes stay connected whose
  answer a round awaits although their cluster has no live nodes. These are bootstrap nodes
  (`Session.not_always_disconnected`).
-/

namespace Federation

open World

variable {w w' : World} {c d : String} {h : Handle}

/-! ### Rounds in progress -/

/-- What is kept true of the connections of a cluster and of what is left of its round. The rest of
a round begins with a question for a view. -/
def World.Suspended (c : String) (w : World) : Option (Program Query Query.Answer Outcome) → Prop
  | none => Settled c w
  | some rest => rest.Ensures (wiring c) (fun _ => Settled c) w ∧
      (∃ h, rest.question? = some (.membership h)) ∧
      rest.WaitsFor fun q => ∃ h, q = .membership h

namespace World.Suspended

variable {rest : Program Query Query.Answer Outcome}
  {rest? : Option (Program Query Query.Answer Outcome)}

lemma of_others (hw : Suspended c w rest?) (hs : Aside c w w') : Suspended c w' rest? := by
  cases rest? with
  | none => exact Settled.of_others hw hs
  | some rest => exact ⟨Program.ensures_of_others hw.1 hs, hw.2⟩

/-- While a round is in progress, it awaits the answer of a node that may be asked. -/
lemma exists_asked (hw : Suspended c w (some rest)) : ∃ h, rest.question? = some (.membership h) ∧
    h.cluster = c ∧ Covered c (.membership h) w := by
  obtain ⟨hensures, ⟨h, hq⟩, -⟩ := hw
  exact ⟨h, hq, Program.Ensures.allows_of_question hensures hq⟩

end World.Suspended

/-! ### Series of rounds -/

/-- A change by the rounds of a cluster. -/
structure World.Within (c : String) (w w' : World) : Prop where
  aside : ∀ d, d ≠ c → Aside d w w'
  joined : ∀ d, w'.enrolments.contains d = w.enrolments.contains d

lemma World.Within.refl (w : World) : Within c w w := ⟨fun _ _ => Aside.refl w, fun _ => rfl⟩

/-- A round takes one more step. -/
lemma World.Within.answer {q : Query} (hs : Within c w w') (hq : q.IsFor c) :
    Within c w (w'.answer q).2 :=
  ⟨fun d hd => (hs.aside d hd).trans (aside_answer hq hd), fun d =>
    ((answer_keeps w' q).2.2 d).trans (hs.joined d)⟩

/-- A round leaves its cluster settled, whatever it tells the policy. -/
lemma Round.begin_ensures (hw : Settled c w) :
    (Outcome.ofResult <$> (Round.update c).run).Ensures (wiring c) (fun _ => Settled c) w := by
  refine Program.ensures_bind (Program.Ensures.mono (Round.update_wired hw) fun r t ht => ?_)
  have hfinished : Finished c r t := ht t (Aside.refl t)
  exact fun u hu => hfinished.settled.of_others hu

lemma Round.begin_waits (c : String) : (Outcome.ofResult <$> (Round.update c).run).WaitsFor
    fun q => ∃ h, q = .membership h :=
  (Round.update_waits c).bind fun _ => trivial

namespace Series

variable {s : Series Query Query.Answer Unit} (policy : Policy) (held : Bool) (now : ℕ)
  {p : Program Query Query.Answer Outcome}

/-- A round goes on up to its next wait. -/
lemma suspended_proceed (hp : p.Ensures (wiring c) (fun _ => Settled c) w)
    (hwaits : p.WaitsFor fun q => ∃ h, q = .membership h) :
    Suspended c (s.proceed World.workload policy now p w).2
        (s.proceed World.workload policy now p w).1.phase.rest? ∧
      Within c w (s.proceed World.workload policy now p w).2 := by
  rw [(proceed_keeps policy p).1, (proceed_keeps policy p).2]
  have hstop := hp.advance fun _ _ => trivial
  have hwithin : Within c w (p.advance World.answer w).2 :=
    hp.advance_induction (fun _ _ => trivial) (Within.refl w) fun q t hq ht => ht.answer hq.1
  refine ⟨?_, hwithin⟩
  change Suspended c (p.advance World.answer w).2 (p.advance World.answer w).1.rest?
  change Program.EnsuresPaused (wiring c) _ (p.advance World.answer w).1
    (p.advance World.answer w).2 at hstop
  cases hpause : (p.advance World.answer w).1 with
  | finished outcome =>
      rw [hpause] at hstop
      exact hstop
  | waiting ms rest =>
      rw [hpause] at hstop
      obtain ⟨⟨_, hq, h, rfl⟩, hlater⟩ := hwaits.advance hpause
      exact ⟨hstop, ⟨h, hq⟩, hlater⟩

/-- A series does what is due. -/
lemma suspended_advance (hw : Suspended s.cluster w s.phase.rest?) :
    Suspended s.cluster (s.advance World.workload policy held now w).2
        (s.advance World.workload policy held now w).1.phase.rest? ∧
      Within s.cluster w (s.advance World.workload policy held now w).2 := by
  rw [advance]
  cases hphase : s.phase with
  | armed due =>
      rw [hphase] at hw
      dsimp only
      split
      · have halive : (held || World.workload.alive s.updater w) = true := Bool.or_true held
        rw [if_pos halive]
        exact suspended_proceed policy now (Round.begin_ensures hw) (Round.begin_waits s.cluster)
      · rw [hphase]
        exact ⟨hw, Within.refl w⟩
  | running due rest =>
      rw [hphase] at hw
      dsimp only
      split
      · exact suspended_proceed policy now hw.1 hw.2.2
      · rw [hphase]
        exact ⟨hw, Within.refl w⟩
  | ended =>
      rw [hphase] at hw
      dsimp only
      rw [hphase]
      exact ⟨hw, Within.refl w⟩

end Series

/-! ### Timetables -/

/-- What is kept true of the connections while rounds run by a timetable. -/
structure Timetable.Wired (t : Timetable Query Query.Answer Unit) (w : World) : Prop where
  suspended : ∀ c, Suspended c w (t.roundOf? c)
  joined : ∀ c, t.series.contains c = true → w.enrolments.contains c = true

namespace Timetable

variable {t : Timetable Query Query.Answer Unit}

lemma Wired.of_others (ht : t.Wired w) (hs : ∀ c, Aside c w w') : t.Wired w' :=
  ⟨fun c => (ht.suspended c).of_others (hs c), fun c hc => (hs c).spares.joined (ht.joined c hc)⟩

/-- The series of one cluster goes on aside from all others. -/
lemma Wired.advanceOne {s : Series Query Query.Answer Unit} {now : ℕ} (ht : t.Wired w)
    (hs : t.series.find? s.cluster = some s) :
    (Timetable.advanceOne World.workload now (t, w) s).1.Wired
      (Timetable.advanceOne World.workload now (t, w) s).2 := by
  have hround : t.roundOf? s.cluster = s.phase.rest? := by rw [roundOf?, hs, Option.bind_some]
  have hsuspended := ht.suspended s.cluster
  rw [hround] at hsuspended
  obtain ⟨hself, hwithin⟩ :=
    Series.suspended_advance t.policy (t.holds s.updater) now hsuspended
  refine ⟨fun c => ?_, fun c hc => ?_⟩
  · rw [roundOf?]
    by_cases hc : s.cluster = c
    · rw [find?_advanceOne, if_pos hc, Option.bind_some, ← hc]
      exact hself
    · rw [find?_advanceOne_of_ne hc]
      exact (ht.suspended c).of_others (hwithin.aside c (Ne.symm hc))
  · refine (hwithin.joined c).trans (ht.joined c ?_)
    by_cases hcs : s.cluster = c
    · exact Keyed.contains_of_find? (hcs ▸ hs)
    · rw [Keyed.contains_eq_isSome, find?_advanceOne_of_ne hcs] at hc
      rw [Keyed.contains_eq_isSome]
      exact hc

/-- Time may pass. -/
theorem keeps_wired : Keeps World.workload Wired :=
  ⟨fun ht hs => ht.advanceOne hs, fun _ ht => ⟨ht.suspended, ht.joined⟩⟩

/-- A series that has just begun is no round in progress. -/
lemma roundOf?_schedule {config : Config} {now : ℕ} (h : t.closed = false) :
    (t.schedule config now c ()).roundOf? d = if c = d then none else t.roundOf? d := by
  rw [roundOf?, find?_schedule h]
  split <;> rfl

/-- A cluster is scheduled when it is joined for the first time, and is settled then. -/
lemma Wired.schedule {config : Config} {now : ℕ} (ht : t.Wired w)
    (hnew : t.series.contains c = false) (hc : w.enrolments.contains c = true) :
    (t.schedule config now c ()).Wired w := by
  cases hclosed : t.closed with
  | true =>
      rw [Timetable.schedule, if_pos hclosed]
      exact ht
  | false =>
      have hnone : t.series.find? c = none :=
        Keyed.find?_eq_none_iff.mpr (Keyed.contains_eq_false_iff.mp hnew)
      refine ⟨fun d => ?_, fun d hd => ?_⟩
      · rw [roundOf?_schedule hclosed]
        split
        next h =>
          subst h
          have hc := ht.suspended c
          rwa [roundOf?, hnone] at hc
        next => exact ht.suspended d
      · by_cases hcd : c = d
        · exact hcd ▸ hc
        · rw [Keyed.contains_eq_isSome, find?_schedule hclosed, if_neg hcd,
            ← Keyed.contains_eq_isSome] at hd
          exact ht.joined d hd

end Timetable

/-! ### Sessions -/

/-- A cluster that is joined is known from then on. -/
lemma World.contains_of_join {cluster : Cluster} {seed : String}
    (h : w.join cluster seed = .ok w') : w'.enrolments.contains cluster.name = true := by
  obtain ⟨a, -, rfl⟩ := map_eq_ok_iff.mp h
  set registered := { w with router := w.router.setUp (.ofList [.ofRemote cluster.name]) }
  cases he : registered.enrolments.find? cluster.name with
  | some e => exact Keyed.contains_of_find? (find?_enrol_of_joined ⟨seed, a⟩ he)
  | none => exact Keyed.contains_of_find? (find?_enrol_of_new ⟨seed, a⟩ he)

namespace Session

variable {s s' : Session} {cluster : Cluster} {seed : String}

/-- Rounds run by a timetable, and what is kept true of the connections holds. -/
def Wired (s : Session) : Prop := ∃ t, s.timetable? = some t ∧ t.Wired s.world

lemma Wired.of_others (hs : s.Wired) (htimetable : s'.timetable? = s.timetable?)
    (haside : ∀ c, Aside c s.world s'.world) : s'.Wired := by
  obtain ⟨t, ht, hwired⟩ := hs
  exact ⟨t, htimetable.trans ht, hwired.of_others haside⟩

/-- Joining contacts no node. Only a cluster without a series is scheduled. -/
lemma Wired.join (hs : s.Wired) (h : s.join cluster seed = .ok s') : s'.Wired := by
  obtain ⟨t, ht, hwired⟩ := hs
  obtain ⟨w, hw, rfl⟩ := map_eq_ok_iff.mp h
  have hothers : t.Wired w := hwired.of_others fun c => World.aside_join hw
  dsimp only
  split
  next => exact ⟨t, ht, hothers⟩
  next hnew =>
    refine ⟨t.schedule w.config s.clock cluster.name (), ?_, hothers.schedule ?_ ?_⟩
    · rw [Session.schedule, ht, Option.map_some]
    · by_contra hseries
      exact hnew (hwired.joined _ (by simpa using hseries))
    · exact World.contains_of_join hw

lemma Wired.start (hs : s.Wired) : s.start.2.Wired :=
  have hsetUp : Wired { s with world := s.world.setUp } :=
    hs.of_others rfl fun _ => World.aside_setUp s.world
  joinAll_induction _ hsetUp fun _ _ _ _ hs hj => hs.join hj

/-- Everything that happens outside of rounds keeps the invariant. -/
lemma Wired.move (hs : s.Wired) (m : Move) : (s.move m).Wired := by
  cases m with
  | start => exact hs.start
  | join cluster seed => exact settle_induction hs fun s' hj => hs.join hj
  | publish v => exact hs.of_others rfl fun _ => Aside.of_journal rfl
  | takeDown a => exact hs.of_others rfl fun _ => Aside.of_journal rfl
  | bringUp a => exact hs.of_others rfl fun _ => Aside.of_journal rfl
  | behave conduct exceptions => exact hs.of_others rfl fun _ => Aside.of_journal rfl
  | router call =>
      rw [move_router]
      exact hs.of_others rfl fun _ => World.aside_router call
  | begin c => exact hs
  | advance c => exact hs

/-- Rounds that run while time passes keep the invariant. -/
lemma Wired.sleep (hs : s.Wired) (ms : ℕ) : (s.sleep ms).Wired := by
  obtain ⟨t, ht, hwired⟩ := hs
  rw [Session.sleep, ht]
  dsimp only
  split
  next => exact ⟨t, ht, hwired⟩
  next => exact ⟨_, rfl, Timetable.keeps_wired.runUntil hwired⟩

theorem Wired.happen (hs : s.Wired) (x : Happening) : (s.happen x).Wired := by
  cases x with
  | move m => exact hs.move m
  | sleep ms => exact hs.sleep ms

/-- The invariant holds from the beginning, when nothing is joined. -/
lemma wired_timed {config : Config} {router : RecordedRouter} (h : timed config router = .ok s) :
    s.Wired := by
  obtain ⟨-, -, h⟩ := bind_eq_ok_iff.mp h
  obtain ⟨policy, -, h⟩ := bind_eq_ok_iff.mp h
  obtain rfl := Except.ok.inj h
  exact ⟨.empty policy, rfl, fun c => World.settled_idle config router c, fun c hc => by cases hc⟩

/-! ### The end of discovery -/

/-- The node whose answer the round of a cluster awaits. -/
def awaited? (s : Session) (cluster : String) : Option Handle :=
  s.timetable?.bind fun t => (t.roundOf? cluster).bind fun rest => rest.question?.bind fun
    | .membership h => some h
    | _ => none

/-- A cluster is settled, or its round awaits the answer of a node that may be asked. -/
lemma Wired.settled_or_awaited (hs : s.Wired) (c : String) :
    (s.awaited? c = none ∧ Settled c s.world) ∨
      ∃ h, s.awaited? c = some h ∧ h.cluster = c ∧ Covered c (.membership h) s.world := by
  obtain ⟨t, ht, hwired⟩ := hs
  have hc := hwired.suspended c
  cases hround : t.roundOf? c with
  | none =>
      rw [hround] at hc
      refine Or.inl ⟨?_, hc⟩
      rw [awaited?, ht, Option.bind_some, hround, Option.bind_none]
  | some rest =>
      rw [hround] at hc
      obtain ⟨h, hq, hcovered⟩ := hc.exists_asked
      refine Or.inr ⟨h, ?_, hcovered⟩
      rw [awaited?, ht, Option.bind_some, hround, Option.bind_some, hq, Option.bind_some]

lemma Wired.founded (hs : s.Wired) (c : String) : s.world.Founded False c := by
  rcases hs.settled_or_awaited c with ⟨-, hsettled⟩ | ⟨h, -, -, hcovered⟩
  · exact hsettled.founded
  · exact hcovered.founded

lemma Wired.alternates (hs : s.Wired) (c : String) : s.world.network.Alternates c := by
  rcases hs.settled_or_awaited c with ⟨-, hsettled⟩ | ⟨h, -, -, hcovered⟩
  · exact hsettled.alternates
  · exact hcovered.alternates

/-- A node that is awaited is live, unless its cluster has no live nodes; then it is connected. -/
lemma Wired.awaited (hs : s.Wired) (hh : s.awaited? c = some h) : h.cluster = c ∧
    (h ∈ s.world.trackedOf c ∨ (s.world.trackedOf c = [] ∧ h ∈ s.world.network.links)) := by
  rcases hs.settled_or_awaited c with ⟨hnone, -⟩ | ⟨h', hh', hc, hcovered⟩
  · cases hnone.symm.trans hh
  · obtain rfl := Option.some.inj (hh'.symm.trans hh)
    exact ⟨hc, hcovered.asked h' rfl⟩

/-- A node that is connected is live, or it is awaited. -/
lemma Wired.of_link (hs : s.Wired) (hh : h ∈ s.world.network.links) :
    h ∈ s.world.trackedOf h.cluster ∨ s.awaited? h.cluster = some h := by
  rcases hs.settled_or_awaited h.cluster with ⟨-, hsettled⟩ | ⟨h', hh', -, hcovered⟩
  · exact Or.inl (hsettled.links h hh rfl)
  · refine (hcovered.links h hh rfl).imp_right fun hpartner => ?_
    obtain rfl : h' = h := Option.some.inj hpartner
    exact hh'

/-- Exactly the nodes stay connected that are awaited although their cluster has no live nodes. -/
lemma Wired.mem_links_shutDown (hs : s.Wired) : h ∈ s.shutDown.world.network.links ↔
    s.awaited? h.cluster = some h ∧ s.world.trackedOf h.cluster = [] := by
  have hlive : ∀ c, h ∈ s.world.trackedOf c → c = h.cluster := fun c hc =>
    ((hs.founded c).handles h hc).symm
  refine World.mem_links_shutDown.trans ⟨fun ⟨hh, hdead⟩ => ?_, fun ⟨hh, hnone⟩ => ?_⟩
  · have hawaited := (hs.of_link hh).resolve_left (hdead h.cluster)
    exact ⟨hawaited, ((hs.awaited hawaited).2.resolve_left (hdead h.cluster)).1⟩
  · have hdead : ∀ c, h ∉ s.world.trackedOf c := by
      intro c hc
      obtain rfl := hlive c hc
      rw [hnone] at hc
      cases hc
    exact ⟨((hs.awaited hh).2.resolve_left (hdead h.cluster)).2, hdead⟩

/-- Whatever has happened while rounds run by a timetable, and whenever discovery ends: a node stays
connected exactly if a round awaits its answer although the cluster has no live nodes, which is to
say, if the round has connected it as a bootstrap node. So nothing stays connected exactly if the
rounds in progress await live nodes only, and then no name was connected more often than
disconnected. -/
theorem shutDown_disconnects_iff {config : Config} {router : Router}
    (h : timed config (.ofRouter router) = .ok s) (l : List Happening) :
    let s' := s.history l
    (∀ h, h ∈ s'.shutDown.world.network.links ↔
      s'.awaited? h.cluster = some h ∧ s'.world.trackedOf h.cluster = []) ∧
    (s'.shutDown.world.network.links = ∅ ↔
      ∀ c h, s'.awaited? c = some h → h ∈ s'.world.trackedOf c) ∧
    (s'.shutDown.world.network.links = ∅ → s'.shutDown.world.network.stillConnected = []) := by
  intro s'
  have hs : s'.Wired := history_induction l (wired_timed h) fun _ x hs => hs.happen x
  refine ⟨fun h => hs.mem_links_shutDown, ⟨fun hnone c h hh => ?_, fun hlive => ?_⟩, fun hnone => ?_⟩
  · obtain ⟨rfl, hor⟩ := hs.awaited hh
    refine hor.resolve_right fun hlinked => ?_
    have hlinked := hs.mem_links_shutDown.mpr ⟨hh, hlinked.1⟩
    rw [hnone] at hlinked
    exact absurd hlinked (Finset.notMem_empty h)
  · refine Finset.eq_empty_of_forall_notMem fun h hh => ?_
    obtain ⟨hawaited, hempty⟩ := hs.mem_links_shutDown.mp hh
    have hmem := hlive _ h hawaited
    rw [hempty] at hmem
    cases hmem
  · exact Network.stillConnected_eq_nil
      (fun c => World.alternates_shutDown.mpr (hs.alternates c)) hnone

/-! ### A node that takes its time -/

open Course (pairConfig pairRouter pairView)

/-- The rounds of the pair run by a timetable. -/
def pairTimed : Session := ⟨.idle pairConfig (.ofRouter pairRouter), 0, [], some (.empty .fixed)⟩

lemma timed_pairTimed : timed pairConfig (.ofRouter pairRouter) = .ok pairTimed := by
  have hcheck : pairConfig.check = .ok () := by decide +kernel
  rw [timed, hcheck]
  rfl

/-- Nodes take longer for their answers than has passed since the start. -/
def slowStart : List Happening :=
  [.move (.publish pairView), .move (.behave (.delayed 100) ∅), .move .start, .sleep 50]

/-- In the first round the bootstrap node is awaited, and would stay connected. In the second one it
is a live node, and nothing would. -/
theorem shutDown_disconnects_iff_slowStart :
    let s := pairTimed.history slowStart
    let s' := pairTimed.history (slowStart ++ [.sleep 1100])
    ⟨"asia", 0, ⟨"host:1", ⟨"host", 1⟩⟩⟩ ∈ s.shutDown.world.network.links ∧
    s'.awaited? "asia" = some ⟨"asia", 1, ⟨"a", ⟨"host", 1⟩⟩⟩ ∧
    s'.world.network.stillConnected = ["a", "b"] ∧
    s'.shutDown.world.network.stillConnected = [] := by
  have hfirst := shutDown_disconnects_iff timed_pairTimed slowStart
  have hsecond := shutDown_disconnects_iff timed_pairTimed (slowStart ++ [.sleep 1100])
  exact ⟨(hfirst.1 _).mpr (by decide +kernel), by decide +kernel, by decide +kernel,
    hsecond.2.2 (by decide +kernel)⟩

/-- Discovery that ends while the bootstrap node is awaited leaves it connected. -/
theorem not_always_disconnected : ¬∀ (config : Config) (router : Router) (s : Session)
    (l : List Happening), timed config (.ofRouter router) = .ok s →
      (s.history l).shutDown.world.network.links = ∅ := by
  intro h
  have hnone := h pairConfig pairRouter pairTimed slowStart timed_pairTimed
  exact absurd hnone (by decide +kernel)

end Session

end Federation
