import Federation.Proofs.Simulation.Course
import Federation.Proofs.Simulation.Spared

/-!
What the moves of a course leave alone.

* `RouterCall.Spares`, `Move.Spares`: nobody but discovery changes the routes of a cluster, or
  registers it as the cluster of this process.
* `World.spares_setUp`, `World.spares_join`, `World.spares_router`: registering and joining spares
  every cluster, and a change of the router spares those that it is not about.
* `World.Grown`: what starting discovery and joining clusters leave alone, and
  `Session.grown_start`, `Session.grown_join`, that they do. `Session.joinAll_induction`: what every
  join keeps true.
-/

namespace Federation

/-- The change of the router is not about the routes of the cluster, unless it removes all routes.
-/
def RouterCall.Spares (cluster : String) : RouterCall → Prop
  | setUp clusters => ∀ k, clusters.find? cluster = some k → k.isLocal = false
  | addRoute c _ | removeRoute c _ => c.name ≠ cluster
  | setLocalNode _ | clear => True

/-- The move is not about the routes of the cluster, unless it removes all routes or is part of a
round. -/
def Move.Spares (cluster : String) : Move → Prop
  | router call => call.Spares cluster
  | _ => True

namespace World

variable {w w' : World} {c d : String} {own still : Prop}

/-! ### Changes of the router -/

/-- A change of the router that registers no local cluster and removes single routes of no
cluster. -/
lemma Spares.of_router (r : RecordedRouter)
    (hreg : w.registered.contains d = true → r.router.clusters.contains d = true)
    (hremote : own → (∀ k, w.registered.find? d = some k → k.isLocal = false) →
      ∀ k, r.router.clusters.find? d = some k → k.isLocal = false)
    (hrouted : own → r.router.nodes.nodesOf d = w.routedOf d ∨
      (¬still ∧ r.router.nodes.nodesOf d = ∅)) :
    Spares own still d w { w with router := r } :=
  ⟨fun hf => ⟨hf.going, fun hj => hreg (hf.registered hj), hf.handles,
    fun ho => hremote ho (hf.remote ho)⟩, id, rfl, rfl, hrouted⟩

/-- Registering clusters keeps those registered before. -/
lemma spares_register (clusters : ClusterSet)
    (hremote : own → ∀ k, clusters.find? d = some k → k.isLocal = false) :
    Spares own still d w { w with router := w.router.setUp clusters } := by
  have hfind : (w.router.setUp clusters).router.clusters.find? d =
    (w.registered.find? d).or (clusters.find? d) := Keyed.find?_union
  refine Spares.of_router _ (fun hreg => ?_) (fun ho hw k hk => ?_) fun _ => Or.inl rfl
  · rw [Keyed.contains_eq_isSome] at hreg ⊢
    rw [hfind, Option.isSome_or, hreg, Bool.true_or]
  · rw [hfind, Option.or_eq_some_iff] at hk
    rcases hk with hk | ⟨-, hk⟩
    · exact hw k hk
    · exact hremote ho k hk

/-- The configured clusters are remote, save the one of this process. -/
lemma spares_setUp (hd : own → d ≠ w.config.localCluster) : Spares own still d w w.setUp := by
  refine spares_register _ fun ho k hk => ?_
  rw [Config.clusterSet, Keyed.find?_ofList] at hk
  obtain ⟨name, -, rfl⟩ := List.mem_map.mp (List.mem_of_find?_eq_some hk)
  have hname : name = d := by simpa using List.find?_some hk
  simpa [hname] using hd ho

/-- A change of single routes spares the other clusters. -/
lemma Spares.of_routes (r : RecordedRouter) (hreg : r.router.clusters = w.registered)
    (hrouted : own → r.router.nodes.nodesOf d = w.routedOf d) :
    Spares own still d w { w with router := r } := by
  refine Spares.of_router r ?_ (fun _ => ?_) fun ho => Or.inl (hrouted ho)
  · rw [hreg]
    exact id
  · rw [hreg]
    exact id

/-- A change of the router spares the clusters that it is not about. -/
lemma spares_router (call : RouterCall) (hcall : own → call.Spares d)
    (hclear : call = .clear → ¬still) :
    Spares own still d w { w with router := (w.router.call call).2 } := by
  have hrouter := RecordedRouter.router_call w.router call
  cases call with
  | setUp clusters => exact spares_register clusters hcall
  | setLocalNode n => exact Spares.of_routes _ rfl fun _ => rfl
  | addRoute c n =>
      obtain ⟨hreg, hrouted⟩ := Router.call_addRoute_keeps w.router.router c n d
      refine Spares.of_routes _ ?_ fun ho => ?_
      · rw [hrouter]
        exact hreg
      · rw [hrouter]
        exact hrouted (hcall ho)
  | removeRoute c n =>
      obtain ⟨hreg, hrouted⟩ := Router.call_removeRoute_keeps w.router.router c n d
      refine Spares.of_routes _ ?_ fun ho => ?_
      · rw [hrouter]
        exact hreg
      · rw [hrouter]
        exact hrouted (hcall ho)
  | clear =>
      exact Spares.of_router _ id (fun _ => id) fun _ =>
        Or.inr ⟨hclear rfl, NodePlacement.nodesOf_clear _ d⟩

/-! ### Joining -/

variable {cluster : Cluster} {seed : String}

/-- Only what is known of the cluster itself changes. -/
lemma enrol_keeps (w : World) (c : String) (n : Node) :
    (w.enrol c n).config = w.config ∧ (w.enrol c n).network = w.network ∧
      ∀ d, d ≠ c → (w.enrol c n).enrolments.find? d = w.enrolments.find? d := by
  rw [enrol]
  split
  next =>
    refine ⟨rfl, rfl, fun d hd => ?_⟩
    exact (Enrolments.find?_modify (fun e => e.rebootstrap n) (fun _ => rfl) d).trans (if_neg hd)
  next => exact ⟨rfl, rfl, fun d hd => Keyed.find?_insert.trans (if_neg (Ne.symm hd))⟩

/-- A cluster that is joined already gets another bootstrap node. -/
lemma find?_enrol_of_joined {e : Enrolment} (n : Node) (he : w.enrolments.find? c = some e) :
    (w.enrol c n).enrolments.find? c = some (e.rebootstrap n) := by
  rw [enrol, if_pos (Keyed.contains_of_find? he)]
  refine (Enrolments.find?_modify (fun e => e.rebootstrap n) (fun _ => rfl) c).trans ?_
  rw [if_pos rfl, he, Option.map_some]

/-- A cluster that is joined for the first time has no live nodes and no view. -/
lemma find?_enrol_of_new (n : Node) (hnone : w.enrolments.find? c = none) :
    (w.enrol c n).enrolments.find? c = some (.fresh c n) := by
  rw [enrol, Keyed.contains_eq_false_of_find? hnone, if_neg Bool.false_ne_true]
  exact Keyed.find?_insert.trans (if_pos rfl)

/-- Enrolling a registered cluster spares every cluster. -/
lemma spares_enrol (n : Node) (hreg : w.registered.contains c = true) :
    Spares own still d w (w.enrol c n) := by
  have hclosed : (w.enrol c n).closed = w.closed := by rw [enrol]; split <;> rfl
  have hrouter : (w.enrol c n).router = w.router := by rw [enrol]; split <;> rfl
  have hregs : (w.enrol c n).registered = w.registered := congrArg (·.router.clusters) hrouter
  have hrouted : (w.enrol c n).routedOf d = w.routedOf d :=
    congrArg (·.router.nodes.nodesOf d) hrouter
  by_cases hd : d = c
  · subst hd
    cases he : w.enrolments.find? d with
    | some e =>
        have hfind := find?_enrol_of_joined n he
        refine Spares.of_eq hclosed hregs ?_ ?_ ?_ hrouted
        · rw [Keyed.contains_eq_isSome, Keyed.contains_eq_isSome, hfind, he]
          rfl
        · rw [trackedOf_of_find? hfind, trackedOf_of_find? he]
          rfl
        · rw [viewOf_of_find? hfind, viewOf_of_find? he]
          rfl
    | none =>
        have hfind := find?_enrol_of_new n he
        have htracked : (w.enrol d n).trackedOf d = [] := trackedOf_of_find? hfind
        refine ⟨fun hf => ⟨?_, fun _ => ?_, ?_, ?_⟩, fun hj => ?_, ?_, ?_, fun _ => Or.inl hrouted⟩
        · rw [hclosed]
          exact hf.going
        · rw [hregs]
          exact hreg
        · rw [htracked]
          exact List.forall_mem_nil _
        · rw [hregs]
          exact hf.remote
        · rw [Keyed.contains_eq_isSome, he] at hj
          cases hj
        · rw [htracked, trackedOf, he]
          rfl
        · rw [viewOf_of_find? hfind, viewOf, he]
          rfl
  · exact Spares.of_find?_eq hclosed hregs ((enrol_keeps w c n).2.2 d hd) hrouted

/-- Joining clusters spares every cluster. -/
lemma spares_join (h : w.join cluster seed = .ok w') : Spares own still d w w' := by
  obtain ⟨a, -, rfl⟩ := map_eq_ok_iff.mp h
  have hset : ∀ k, (Keyed.ofList [Cluster.ofRemote cluster.name] : ClusterSet).find? d = some k →
      k.isLocal = false := by
    intro k hk
    rw [Keyed.find?_ofList] at hk
    obtain rfl := List.mem_singleton.mp (List.mem_of_find?_eq_some hk)
    rfl
  refine Spares.trans (spares_register _ fun _ => hset) (spares_enrol _ ?_)
  -- the cluster is registered before it is enrolled
  have hfind := Keyed.find?_union (s := w.registered)
    (t := .ofList [Cluster.ofRemote cluster.name]) (k := cluster.name)
  have hnew : ((Keyed.ofList [Cluster.ofRemote cluster.name] : ClusterSet).find?
      cluster.name).isSome = true := by
    rw [Keyed.find?_ofList]
    simp [Cluster.ofRemote]
  rw [registered, Keyed.contains_eq_isSome]
  refine (congrArg Option.isSome hfind).trans ?_
  rw [Option.isSome_or, hnew, Bool.or_true]

/-- Nothing but what is known of the joined clusters and the registered ones changes in a join.
The cluster is not that of this process. -/
lemma join_keeps (h : w.join cluster seed = .ok w') : w'.config = w.config ∧
    w'.network = w.network ∧ cluster.name ≠ w.config.localCluster ∧
    ∀ d, d ≠ cluster.name → w'.enrolments.contains d = w.enrolments.contains d := by
  obtain ⟨a, ha, rfl⟩ := map_eq_ok_iff.mp h
  have hremote : cluster.name ≠ w.config.localCluster := by
    rw [seedAddress] at ha
    split at ha
    next => cases ha
    next =>
      split at ha
      next => cases ha
      next hn => simpa using fun hname => hn (by simp [hname])
  obtain ⟨hconfig, hnetwork, hfind⟩ := enrol_keeps
    { w with router := w.router.setUp (.ofList [.ofRemote cluster.name]) } cluster.name ⟨seed, a⟩
  exact ⟨hconfig, hnetwork, hremote, fun d hd => contains_eq_of_find?_eq (hfind d hd)⟩

/-- A change by starting discovery or joining clusters: it spares every cluster except that of
this process, which is not joined, and it leaves the network alone. -/
structure Grown (w w' : World) : Prop where
  config : w'.config = w.config
  network : w'.network = w.network
  away : w'.enrolments.contains w.config.localCluster = w.enrolments.contains w.config.localCluster
  spares : ∀ (own still : Prop) (d : String), (own → d ≠ w.config.localCluster) →
    Spares own still d w w'

lemma Grown.refl (w : World) : Grown w w :=
  ⟨rfl, rfl, rfl, fun _ _ _ _ => Spares.refl w⟩

lemma Grown.trans {u : World} (h : Grown w w') (h' : Grown w' u) : Grown w u := by
  obtain ⟨hconfig, hnetwork, haway, hspares⟩ := h'
  rw [h.config] at haway hspares
  exact ⟨hconfig.trans h.config, hnetwork.trans h.network, haway.trans h.away,
    fun own still d hd => (h.spares own still d hd).trans (hspares own still d hd)⟩

lemma grown_setUp (w : World) : Grown w w.setUp :=
  ⟨rfl, rfl, rfl, fun _ _ _ hd => spares_setUp hd⟩

lemma grown_join (h : w.join cluster seed = .ok w') : Grown w w' := by
  obtain ⟨hconfig, hnetwork, hremote, hcontains⟩ := join_keeps h
  exact ⟨hconfig, hnetwork, hcontains _ hremote.symm, fun _ _ _ _ => spares_join h⟩

end World

/-! ### Moves of a course -/

namespace Session

variable {s s' : Session}

lemma grown_join {cluster : Cluster} {seed : String} (h : s.join cluster seed = .ok s') :
    World.Grown s.world s'.world := by
  obtain ⟨w, hw, rfl⟩ := map_eq_ok_iff.mp h
  dsimp only
  split <;> exact World.grown_join hw

/-- What every join keeps true is true after several, up to the first refusal. -/
lemma joinAll_induction {P : Session → Prop} (seeds : List (String × String)) (hs : P s)
    (hP : ∀ s s' cluster seed, P s → s.join cluster seed = .ok s' → P s') :
    P (s.joinAll seeds).2 := by
  induction seeds generalizing s with
  | nil => exact hs
  | cons x seeds ih =>
      obtain ⟨cluster, seed⟩ := x
      rw [joinAll]
      cases hj : s.join (.ofRemote cluster) seed with
      | ok s' => exact ih (hP s s' _ seed hs hj)
      | error e => exact hs

lemma grown_joinAll (s : Session) (seeds : List (String × String)) :
    World.Grown s.world (s.joinAll seeds).2.world :=
  joinAll_induction (P := fun t => World.Grown s.world t.world) seeds (World.Grown.refl s.world)
    fun _ _ _ _ ht hj => ht.trans (grown_join hj)

lemma grown_start (s : Session) : World.Grown s.world s.start.2.world :=
  (World.grown_setUp s.world).trans (grown_joinAll { s with world := s.world.setUp } _)

end Session

end Federation
