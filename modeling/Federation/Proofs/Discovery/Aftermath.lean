import Federation.Proofs.Schedule.Timetable
import Federation.Proofs.Simulation.Timed

/-!
What happens after discovery has ended.

* `Session.Over`: discovery has ended and has forgotten everything. `Session.over_shutDown`: it has
  after every end, in whichever state that comes.
* `Session.Over.update`, `Session.Over.join`, `Session.Over.start`, `Session.Over.sleep`: what is
  called for then is refused, and no round runs as time passes.
* `World.aftermath`: what an act still changes, which is what others do and the registration of the
  configured clusters. `Session.Over.act`: an act changes nothing else.
* `Session.still_after_shutDown`: the same for all that may come after the end.
-/

namespace Federation

variable {w : World}

/-! ### Sessions that are over -/

namespace Session

variable {s : Session}

/-- Discovery has ended and has forgotten everything. -/
structure Over (s : Session) : Prop where
  closed : s.world.closed = true
  forgotten : s.world.enrolments = ∅
  cancelled : ∀ t ∈ s.timetable?, t.closed = true ∧ t.series = ∅

/-- In whichever state discovery ends, it is over then. -/
lemma over_shutDown (s : Session) : s.shutDown.Over := by
  refine ⟨rfl, rfl, fun t ht => ?_⟩
  obtain ⟨t, -, rfl⟩ := Option.map_eq_some_iff.mp ht
  exact ⟨rfl, rfl⟩

lemma Over.joined (h : s.Over) : s.world.joined = [] := by
  rw [World.joined, h.forgotten]
  rfl

lemma Over.viewOf (h : s.Over) (c : String) : s.world.viewOf c = none := by
  rw [World.viewOf, h.forgotten]
  rfl

lemma Over.trackedOf (h : s.Over) (c : String) : s.world.trackedOf c = [] := by
  rw [World.trackedOf, h.forgotten]
  rfl

/-- A round is refused before it does anything. -/
lemma Over.update (h : s.Over) (c : String) : s.update c = (.error .shutDown, s) := by
  obtain ⟨⟨config, closed, enrolments, router, network⟩, clock, asked, timetable?⟩ := s
  obtain rfl : closed = true := h.closed
  rfl

lemma Over.join (h : s.Over) (cluster : Cluster) (seed : String) :
    s.join cluster seed = .error .shutDown := by
  rw [Session.join, World.join, World.seedAddress, if_pos h.closed]
  rfl

/-- The configured clusters are registered, and the first of those with seeds is refused. -/
lemma Over.start (h : s.Over) : s.start =
    (if s.world.config.seeds.isEmpty then .ok () else .error .shutDown,
      { s with world := s.world.setUp }) := by
  have hsetUp : Over { s with world := s.world.setUp } := ⟨h.closed, h.forgotten, h.cancelled⟩
  rw [Session.start, Keyed.isEmpty]
  cases s.world.config.seeds.toList with
  | nil => rfl
  | cons x seeds =>
      rw [joinAll, hsetUp.join]
      rfl

/-- Nothing is left to be cancelled or disconnected. -/
lemma Over.shutDown (h : s.Over) : s.shutDown = s := by
  obtain ⟨⟨config, closed, enrolments, router, network⟩, clock, asked, timetable?⟩ := s
  obtain rfl : closed = true := h.closed
  obtain rfl : enrolments = ∅ := h.forgotten
  cases timetable? with
  | none => rfl
  | some t =>
      obtain ⟨policy, closed, series, turns⟩ := t
      obtain ⟨rfl, rfl⟩ := h.cancelled _ rfl
      rfl

/-- Time passes without any rounds. -/
lemma Over.sleep (h : s.Over) (ms : ℕ) :
    (s.sleep ms).Over ∧ (s.sleep ms).world = s.world ∧ (s.sleep ms).asked = s.asked := by
  rw [Session.sleep]
  cases ht : s.timetable? with
  | none => exact ⟨⟨h.closed, h.forgotten, fun _ hnone => absurd hnone (by simp)⟩, rfl, rfl⟩
  | some t =>
      dsimp only
      split
      next => exact ⟨h, rfl, rfl⟩
      next =>
        obtain ⟨hclosed, hseries⟩ := h.cancelled t ht
        rw [Timetable.runUntil_of_empty hseries]
        refine ⟨⟨h.closed, h.forgotten, fun t' ht' => ?_⟩, rfl, rfl⟩
        obtain rfl := Option.some.inj ht'
        exact ⟨hclosed, hseries⟩

end Session

/-! ### All that may come -/

/-- What an act changes after the end of discovery: what others do, and the registration of the
configured clusters. -/
def World.aftermath (w : World) : Act → World
  | .happen (.move .start) => w.setUp
  | .happen (.move (.publish v)) => { w with network := w.network.publish v }
  | .happen (.move (.takeDown a)) => { w with network := w.network.takeDown a }
  | .happen (.move (.bringUp a)) => { w with network := w.network.bringUp a }
  | .happen (.move (.behave conduct exceptions)) =>
    { w with network := w.network.setConduct conduct exceptions }
  | .happen (.move (.router call)) => { w with router := (w.router.call call).2 }
  | _ => w

/-- Neither the configuration changes any more, nor is a node contacted. -/
lemma World.foldl_aftermath_keeps (w : World) (l : List Act) :
    (l.foldl aftermath w).config = w.config ∧
      (l.foldl aftermath w).network.journal = w.network.journal := by
  induction l generalizing w with
  | nil => exact ⟨rfl, rfl⟩
  | cons a l ih =>
      have ha : (w.aftermath a).config = w.config ∧
          (w.aftermath a).network.journal = w.network.journal := by
        unfold aftermath
        split <;> exact ⟨rfl, rfl⟩
      obtain ⟨hconfig, hjournal⟩ := ih (w.aftermath a)
      exact ⟨hconfig.trans ha.1, hjournal.trans ha.2⟩

/-- The act calls for something from discovery, or lets time pass. -/
inductive Act.OfDiscovery : Act → Prop
  | start : OfDiscovery (.happen (.move .start))
  | join (cluster : Cluster) (seed : String) : OfDiscovery (.happen (.move (.join cluster seed)))
  | update (cluster : String) : OfDiscovery (.update cluster)
  | shutDown : OfDiscovery .shutDown
  | sleep (ms : ℕ) : OfDiscovery (.happen (.sleep ms))

lemma World.setUp_setUp (w : World) : w.setUp.setUp = w.setUp := by
  simp only [setUp, RecordedRouter.setUp, Router.setUp_setUp]

/-- While nobody else does anything, at most the configured clusters are registered. -/
lemma World.foldl_aftermath_of_discovery {l : List Act} (h : ∀ a ∈ l, a.OfDiscovery) :
    l.foldl aftermath w = w ∨
      (.happen (.move .start) ∈ l ∧ l.foldl aftermath w = w.setUp) := by
  induction l generalizing w with
  | nil => exact Or.inl rfl
  | cons a l ih =>
      obtain ⟨ha, hl⟩ := List.forall_mem_cons.mp h
      have hsame : w.aftermath a = w → (a :: l).foldl aftermath w = w ∨
          (.happen (.move .start) ∈ a :: l ∧ (a :: l).foldl aftermath w = w.setUp) := by
        intro hw
        rw [List.foldl_cons, hw]
        exact (ih hl).imp_right fun ⟨hmem, heq⟩ => ⟨List.mem_cons_of_mem a hmem, heq⟩
      cases ha with
      | start =>
          refine Or.inr ⟨List.mem_cons_self, ?_⟩
          rcases ih hl (w := w.setUp) with heq | ⟨-, heq⟩
          · exact heq
          · exact heq.trans w.setUp_setUp
      | join cluster seed => exact hsame rfl
      | update c => exact hsame rfl
      | shutDown => exact hsame rfl
      | sleep ms => exact hsame rfl

namespace Session

variable {s : Session}

/-- After the end of discovery an act changes only what others do, or registers clusters. -/
lemma Over.act (h : s.Over) (a : Act) : (s.act a).Over ∧
    (s.act a).world = s.world.aftermath a ∧ (s.act a).asked = s.asked := by
  have hworld : ∀ w : World, w.closed = s.world.closed → w.enrolments = s.world.enrolments →
      Over { s with world := w } := fun w hclosed hforgotten =>
    ⟨hclosed.trans h.closed, hforgotten.trans h.forgotten, h.cancelled⟩
  cases a with
  | update c =>
      rw [Session.act, h.update]
      exact ⟨h, rfl, rfl⟩
  | shutDown =>
      rw [Session.act, h.shutDown]
      exact ⟨h, rfl, rfl⟩
  | happen x =>
      cases x with
      | sleep ms => exact h.sleep ms
      | move m =>
          cases m with
          | start =>
              have hstart : s.act (.happen (.move .start)) = { s with world := s.world.setUp } :=
                congrArg Prod.snd h.start
              rw [hstart]
              exact ⟨hworld _ rfl rfl, rfl, rfl⟩
          | join cluster seed =>
              have hjoin : s.act (.happen (.move (.join cluster seed))) = s := by
                change (settle s (s.join cluster seed)).2 = s
                rw [h.join]
                rfl
              rw [hjoin]
              exact ⟨h, rfl, rfl⟩
          | router call =>
              have hcall : s.act (.happen (.move (.router call))) = _ := s.move_router call
              rw [hcall]
              exact ⟨hworld _ rfl rfl, rfl, rfl⟩
          | publish v => exact ⟨hworld _ rfl rfl, rfl, rfl⟩
          | takeDown a => exact ⟨hworld _ rfl rfl, rfl, rfl⟩
          | bringUp a => exact ⟨hworld _ rfl rfl, rfl, rfl⟩
          | behave conduct exceptions => exact ⟨hworld _ rfl rfl, rfl, rfl⟩
          | begin c => exact ⟨h, rfl, rfl⟩
          | advance c => exact ⟨h, rfl, rfl⟩

lemma Over.acts (h : s.Over) (l : List Act) : (s.acts l).Over ∧
    (s.acts l).world = l.foldl World.aftermath s.world ∧ (s.acts l).asked = s.asked := by
  induction l generalizing s with
  | nil => exact ⟨h, rfl, rfl⟩
  | cons a l ih =>
      obtain ⟨hover, hworld, hasked⟩ := h.act a
      obtain ⟨hover', hworld', hasked'⟩ := ih hover
      refine ⟨hover', hworld'.trans ?_, hasked'.trans hasked⟩
      rw [hworld, List.foldl_cons]

/-- Whatever was going on when discovery ended, and whatever comes afterwards: no cluster is joined,
known or scheduled, and the world is changed only by what others do and by the registration of the
configured clusters, so that no node is contacted. Every round and every join is refused, a start
registers the configured clusters and is refused as soon as it joins one, another end changes
nothing, and no round runs as time passes. -/
theorem still_after_shutDown (s : Session) (later : List Act) :
    let ended := s.shutDown
    let s' := ended.acts later
    (s'.world.joined = [] ∧ (∀ c, s'.world.viewOf c = none ∧ s'.world.trackedOf c = []) ∧
      s'.asked = s.asked ∧ ∀ t ∈ s'.timetable?, t.clusters = []) ∧
    (s'.world = later.foldl World.aftermath ended.world ∧
      s'.world.network.journal = ended.world.network.journal ∧
      ((∀ a ∈ later, a.OfDiscovery) → s'.world = ended.world ∨
        (.happen (.move .start) ∈ later ∧ s'.world = ended.world.setUp))) ∧
    (∀ c, s'.update c = (.error .shutDown, s')) ∧
    (∀ cluster seed, s'.join cluster seed = .error .shutDown) ∧
    s'.start = (if s.world.config.seeds.isEmpty then .ok () else .error .shutDown,
      { s' with world := s'.world.setUp }) ∧
    s'.shutDown = s' ∧ ∀ ms, (s'.sleep ms).world = s'.world := by
  intro ended s'
  obtain ⟨hover, hworld, hasked⟩ := s.over_shutDown.acts later
  obtain ⟨hconfig, hjournal⟩ := ended.world.foldl_aftermath_keeps later
  rw [← hworld] at hconfig hjournal
  refine ⟨⟨hover.joined, fun c => ⟨hover.viewOf c, hover.trackedOf c⟩, hasked, fun t ht => ?_⟩,
    ⟨hworld, hjournal, fun hown => ?_⟩, hover.update, hover.join, ?_, hover.shutDown, fun ms =>
      (hover.sleep ms).2.1⟩
  · rw [Timetable.clusters, (hover.cancelled t ht).2]
    rfl
  · rw [hworld]
    exact World.foldl_aftermath_of_discovery hown
  · rw [hover.start, hconfig]
    rfl

end Session

end Federation
