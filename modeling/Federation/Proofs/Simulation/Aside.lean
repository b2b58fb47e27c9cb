import Federation.Proofs.Simulation.Links
import Federation.Proofs.Simulation.Moves

/-!
What happens aside from the rounds of a cluster.

* `Query.IsFor`: the steps that rounds for a cluster take. Handles go by the cluster for which they
  were built.
* `World.Labelled`: the bootstrap node of a cluster was built for it.
* `World.Aside`: a change that is not part of the rounds of a cluster. Besides what it spares
  (`World.Spares`), it leaves the links to handles of the cluster alone.
* `World.aside_answer`: the rounds of one cluster go on aside from all others.
* `World.Aside.of_journal`, `World.aside_router`, `World.aside_join`, `Session.aside_start`,
  `Session.aside_join`: so does everything else that happens in a course.
-/

namespace Federation

/-- The step is about the cluster, or about a handle that was built for it. -/
def Query.IsFor (cluster : String) : Query → Prop
  | isClosed => True
  | enrolment c | routes c | build c _ | store c _ => c = cluster
  | connect h | disconnect h | delay h | membership h | route h | unroute h | track h | untrack h =>
    h.cluster = cluster

lemma Query.IsFor.concerns {q : Query} {c : String} (h : q.IsFor c) : q.Concerns c := by
  cases q with
  | connect | disconnect | delay | membership => trivial
  | _ => exact h

namespace World

variable {w w' u : World} {c d : String} {q : Query}

/-- The number of handles that were built for a cluster. -/
def builtOf (w : World) (cluster : String) : ℕ :=
  ((w.enrolments.find? cluster).map Enrolment.built).getD 0

/-- The bootstrap node of the cluster was built for it. -/
def Labelled (cluster : String) (w : World) : Prop :=
  ∀ e, w.enrolments.find? cluster = some e → e.bootstrap.cluster = cluster

lemma builtOf_of_find? {e : Enrolment} (h : w.enrolments.find? c = some e) :
    w.builtOf c = e.built := by
  rw [builtOf, h, Option.map_some, Option.getD_some]

/-- A change that is not part of the rounds of a cluster. Others look after its routes. -/
structure Aside (c : String) (w w' : World) : Prop where
  spares : Spares False False c w w'
  labelled : w.Labelled c → w'.Labelled c
  built : w.builtOf c ≤ w'.builtOf c
  links : ∀ h : Handle, h.cluster = c → (h ∈ w'.network.links ↔ h ∈ w.network.links)
  alternates : w.network.Alternates c → w'.network.Alternates c

namespace Aside

lemma refl (w : World) : Aside c w w :=
  ⟨Spares.refl w, id, le_rfl, fun _ _ => Iff.rfl, id⟩

lemma trans (h : Aside c w w') (h' : Aside c w' u) : Aside c w u :=
  ⟨h.spares.trans h'.spares, fun hl => h'.labelled (h.labelled hl), h.built.trans h'.built,
    fun x hx => (h'.links x hx).trans (h.links x hx), fun ha => h'.alternates (h.alternates ha)⟩

/-- A change that spares the cluster, of which the same is known after it. -/
lemma of_find?_eq (hspares : Spares False False c w w')
    (hfind : w'.enrolments.find? c = w.enrolments.find? c)
    (hlinks : ∀ h : Handle, h.cluster = c → (h ∈ w'.network.links ↔ h ∈ w.network.links))
    (halternates : w.network.Alternates c → w'.network.Alternates c) : Aside c w w' := by
  refine ⟨hspares, fun hl e he => hl e (hfind ▸ he), ?_, hlinks, halternates⟩
  rw [builtOf, builtOf, hfind]

/-- What happens to the network without contacting a node. -/
lemma of_journal {net : Network} (h : net.journal = w.network.journal) :
    Aside c w { w with network := net } := by
  refine of_find?_eq (Spares.of_network net) rfl (fun x _ => ?_) fun ha => ?_
  · rw [Network.links, Network.links, h]
  · rw [Network.Alternates] at ha ⊢
    rwa [h]

end Aside

/-! ### Steps of rounds -/

/-- Of other clusters the same is known after a step. -/
lemma find?_answer_of_ne (hq : q.IsFor c) (hd : d ≠ c) :
    (w.answer q).2.enrolments.find? d = w.enrolments.find? d := by
  cases q with
  | isClosed | enrolment _ | routes _ | delay _ | connect _ | disconnect _ | membership _ => rfl
  | build c' n =>
      obtain rfl : c' = c := hq
      exact (find?_build n).trans (if_neg hd)
  | track h =>
      obtain rfl : h.cluster = c := hq
      exact find?_track.trans (if_neg hd)
  | untrack h =>
      obtain rfl : h.cluster = c := hq
      exact find?_untrack.trans (if_neg hd)
  | store c' v =>
      obtain rfl : c' = c := hq
      exact (find?_store v).trans (if_neg hd)
  | route h => exact congrArg (Keyed.find? · d) (route_keeps (w := w) (h := h)).2.1
  | unroute h => exact congrArg (Keyed.find? · d) (unroute_keeps (w := w) (h := h)).2.1

/-- Only connecting, disconnecting and asking for a view is done on the network. -/
lemma network_answer (w : World) (q : Query) : (w.answer q).2.network =
    match q with
    | .connect h => (w.network.connect h).2
    | .disconnect h => w.network.disconnect h
    | .membership h => (w.network.membership h).2
    | _ => w.network := by
  cases q with
  | build c n => rw [answer, build]; split <;> rfl
  | route h => rw [answer, route]; split <;> rfl
  | unroute h => rw [answer, unroute]; split <;> rfl
  | _ => rfl

/-- The rounds of one cluster go on aside from all others. -/
theorem aside_answer (hq : q.IsFor c) (hd : d ≠ c) : Aside d w (w.answer q).2 := by
  refine Aside.of_find?_eq (spares_answer hq.concerns hd) (find?_answer_of_ne hq hd) ?_ ?_
  · intro x hx
    rw [network_answer]
    split
    next h =>
      obtain rfl : h.cluster = c := hq
      rw [Network.mem_links_connect]
      exact or_iff_left fun hxh => hd (hx ▸ congrArg Handle.cluster hxh.1)
    next h =>
      obtain rfl : h.cluster = c := hq
      rw [Network.links_disconnect, Finset.mem_erase]
      exact and_iff_right fun hxh => hd (hx ▸ congrArg Handle.cluster hxh)
    next => rfl
    next => rfl
  · intro ha
    rw [network_answer]
    split
    next h =>
      obtain rfl : h.cluster = c := hq
      exact Network.alternates_connect.mpr ⟨fun _ hc => absurd hc.symm hd, ha⟩
    next => exact ha
    next => exact ha
    next => exact ha

/-! ### Registering and joining -/

lemma aside_router (call : RouterCall) :
    Aside c w { w with router := (w.router.call call).2 } :=
  Aside.of_find?_eq (spares_router call (fun h => h.elim) fun _ h => h) rfl (fun _ _ => Iff.rfl) id

lemma aside_setUp (w : World) : Aside c w w.setUp :=
  Aside.of_find?_eq (spares_setUp fun h => h.elim) rfl (fun _ _ => Iff.rfl) id

/-- Another bootstrap node is one more handle that was built for the cluster. -/
lemma enrol_labelled (n : Node) :
    (w.Labelled d → (w.enrol c n).Labelled d) ∧ w.builtOf d ≤ (w.enrol c n).builtOf d := by
  by_cases hd : d = c
  · subst hd
    cases he : w.enrolments.find? d with
    | some e =>
        have hfind := find?_enrol_of_joined n he
        refine ⟨fun _ e' he' => ?_, ?_⟩
        · rw [hfind] at he'
          obtain rfl := Option.some.inj he'
          exact (Keyed.find?_eq_some_iff.mp he).2
        · rw [builtOf_of_find? he, builtOf_of_find? hfind]
          exact Nat.le_succ e.built
    | none =>
        have hfind := find?_enrol_of_new n he
        refine ⟨fun _ e' he' => ?_, ?_⟩
        · rw [hfind] at he'
          obtain rfl := Option.some.inj he'
          rfl
        · rw [builtOf, he]
          exact Nat.zero_le _
  · have hfind := (enrol_keeps w c n).2.2 d hd
    refine ⟨fun hl e he => hl e (hfind ▸ he), ?_⟩
    rw [builtOf, builtOf, hfind]

/-- Joining a cluster contacts no node. -/
lemma aside_join {cluster : Cluster} {seed : String} (h : w.join cluster seed = .ok w') :
    Aside c w w' := by
  have hspares : Spares False False c w w' := spares_join h
  obtain ⟨-, hnetwork, -, -⟩ := join_keeps h
  obtain ⟨a, -, rfl⟩ := map_eq_ok_iff.mp h
  set registered := { w with router := w.router.setUp (.ofList [.ofRemote cluster.name]) }
  obtain ⟨hlabelled, hbuilt⟩ :=
    enrol_labelled (w := registered) (c := cluster.name) (d := c) ⟨seed, a⟩
  exact ⟨hspares, hlabelled, hbuilt, fun _ _ => by rw [hnetwork], fun ha => by rwa [hnetwork]⟩

end World

namespace Session

variable {s s' : Session} {c : String}

lemma aside_join {cluster : Cluster} {seed : String} (h : s.join cluster seed = .ok s') :
    World.Aside c s.world s'.world := by
  obtain ⟨w, hw, rfl⟩ := map_eq_ok_iff.mp h
  dsimp only
  split <;> exact World.aside_join hw

lemma aside_joinAll (s : Session) (seeds : List (String × String)) :
    World.Aside c s.world (s.joinAll seeds).2.world :=
  joinAll_induction (P := fun t => World.Aside c s.world t.world) seeds (World.Aside.refl s.world)
    fun _ _ _ _ ht hj => ht.trans (aside_join hj)

lemma aside_start (s : Session) : World.Aside c s.world s.start.2.world :=
  (World.aside_setUp s.world).trans (aside_joinAll { s with world := s.world.setUp } _)

end Session

end Federation
