import Federation.Proofs.Discovery.Roster
import Federation.Proofs.Program.Ensures
import Federation.Proofs.Routing.RouterHistory
import Federation.Simulation.World

/-!
How a step changes what is known of the clusters.

* `World.routedOf`: the nodes that are routed for a cluster, next to its live nodes
  (`World.trackedOf`) and its stored view (`World.viewOf`).
* `World.route_cases`, `World.unroute_cases`: what becomes of a route that is added or removed.
* `World.routedOf_route`, `World.routedOf_unroute`, `World.find?_track`, `World.find?_untrack`,
  `World.store_keeps`: each step of a round changes one of these three.
* `Query.Concerns`: the steps that a round for a cluster may take.
* `World.Founded`: what is assumed of every cluster throughout: a joined cluster is registered,
  and its live nodes were built for it.
* `World.Spares`: a change that is not part of the rounds of a cluster. It leaves the live nodes
  and the stored view alone, and it removes at most all routes at once.
* `World.spares_answer`: the rounds of one cluster spare all others.
* `World.answer_keeps`, `World.step_keeps`: no step of a round changes the configuration or the
  published views, and none joins a cluster.
-/

namespace Federation

namespace Enrolments

/-- A change of one joined cluster is noticed there only. -/
lemma find?_modify {s : Enrolments} {c : String} (f : Enrolment → Enrolment)
    (hf : ∀ e, (f e).cluster = e.cluster) (d : String) :
    (s.modify c f hf).find? d = if d = c then (s.find? d).map f else s.find? d := by
  rw [modify, Keyed.find?_map]
  cases h : s.find? d with
  | none => split <;> rfl
  | some e =>
      rw [Option.map_some, (Keyed.find?_eq_some_iff.mp h).2]
      split <;> rfl

end Enrolments

namespace World

variable {w w' u : World} {c d : String} {e : Enrolment} {h : Handle} {own still : Prop}

/-! ### The accounts of a cluster -/

/-- The nodes that are routed for a cluster. -/
def routedOf (w : World) (cluster : String) : NodeSet := w.router.router.nodes.nodesOf cluster

/-- The live nodes of a cluster, without their connections. -/
def rosterOf (w : World) (cluster : String) : Roster := (w.trackedOf cluster).map Handle.node

/-- The registered clusters. -/
def registered (w : World) : ClusterSet := w.router.router.clusters

lemma trackedOf_of_find? (h : w.enrolments.find? c = some e) : w.trackedOf c = e.tracked := by
  rw [trackedOf, h, Option.map_some, Option.getD_some]

lemma viewOf_of_find? (h : w.enrolments.find? c = some e) : w.viewOf c = e.view := by
  rw [viewOf, h, Option.bind_some]

lemma trackedOf_eq_of_find?_eq (h : w'.enrolments.find? c = w.enrolments.find? c) :
    w'.trackedOf c = w.trackedOf c := by
  rw [trackedOf, trackedOf, h]

lemma viewOf_eq_of_find?_eq (h : w'.enrolments.find? c = w.enrolments.find? c) :
    w'.viewOf c = w.viewOf c := by
  rw [viewOf, viewOf, h]

/-- The routes that a round asks for are those of the nodes, because no round is for the cluster of
this process. -/
lemma clusterRoute_ofRemote (hremote : ∀ k, w.registered.find? c = some k → k.isLocal = false) :
    w.router.router.clusterRoute (.ofRemote c) = w.routedOf c := by
  have hflag : ((w.router.router.clusters.find? c).getD (.ofRemote c)).isLocal = false := by
    cases hk : w.router.router.clusters.find? c with
    | none => rfl
    | some k => exact hremote k hk
  have hname : (Cluster.ofRemote c).name = c := rfl
  rw [Router.clusterRoute, hname]
  cases w.router.router.localNode with
  | none => rfl
  | some n => simp [hflag, routedOf]

lemma contains_eq_of_find?_eq (h : w'.enrolments.find? c = w.enrolments.find? c) :
    w'.enrolments.contains c = w.enrolments.contains c := by
  rw [Keyed.contains_eq_isSome, Keyed.contains_eq_isSome, h]

/-! ### Single steps -/

lemma find?_build (n : Node) : (w.answer (.build c n)).2.enrolments.find? d =
    if d = c then (w.enrolments.find? d).map Enrolment.countHandle else w.enrolments.find? d := by
  rw [answer, build]
  cases hf : w.enrolments.find? c with
  | none =>
      by_cases hd : d = c
      · rw [if_pos hd, hd, hf, Option.map_none]
      · rw [if_neg hd]
  | some e => exact Enrolments.find?_modify Enrolment.countHandle (fun _ => rfl) d

lemma find?_track : (w.answer (.track h)).2.enrolments.find? d =
    if d = h.cluster then (w.enrolments.find? d).map fun e => e.track h
    else w.enrolments.find? d :=
  Enrolments.find?_modify (fun e => e.track h) (fun _ => rfl) d

lemma find?_untrack : (w.answer (.untrack h)).2.enrolments.find? d =
    if d = h.cluster then (w.enrolments.find? d).map fun e => e.untrack h.node.name
    else w.enrolments.find? d :=
  Enrolments.find?_modify (fun e => e.untrack h.node.name) (fun _ => rfl) d

lemma find?_store (v : Option View) : (w.answer (.store c v)).2.enrolments.find? d =
    if d = c then (w.enrolments.find? d).map fun e => e.store v else w.enrolments.find? d :=
  Enrolments.find?_modify (fun e => e.store v) (fun _ => rfl) d

/-- A stored view changes nothing else that is known of its cluster. -/
lemma store_keeps (v : Option View) :
    (w.answer (.store c v)).2.enrolments.contains c = w.enrolments.contains c ∧
      (w.answer (.store c v)).2.trackedOf c = w.trackedOf c ∧
      (w.answer (.store c v)).2.viewOf c = (w.enrolments.find? c).bind fun _ => v := by
  have hfind := (find?_store v (w := w)).trans (if_pos (Eq.refl c))
  rw [Keyed.contains_eq_isSome, Keyed.contains_eq_isSome, trackedOf, trackedOf, viewOf, hfind]
  cases w.enrolments.find? c <;> exact ⟨rfl, rfl, rfl⟩

/-- The router refuses a route, or it places the node and an event tells of it. -/
lemma route_cases (w : World) (h : Handle) :
    (∃ x, w.router.router.addRoute h.cluster h.node = .error x ∧ w.route h = (.error x, w)) ∨
      ∃ p, w.router.router.nodes.add h.cluster h.node = .ok p ∧
        w.route h = (.ok (), { w with router := ⟨{ w.router.router with nodes := p },
          w.router.events ++ [.added h.cluster h.node.name]⟩ }) := by
  rw [route, RecordedRouter.addRoute, Cluster.ofRemote_name]
  cases hadd : w.router.router.addRoute h.cluster h.node with
  | error x => exact .inl ⟨x, rfl, rfl⟩
  | ok r =>
      obtain ⟨-, p, hp, rfl⟩ := Router.addRoute_eq_ok_iff.mp hadd
      exact .inr ⟨p, hp, rfl⟩

/-- The router removes a node and an event tells of it. In a registered cluster a removal is refused
only where nobody has the name. -/
lemma unroute_cases (w : World) (h : Handle) :
    ((w.registered.contains h.cluster = true →
        (w.routedOf h.cluster).contains h.node.name = false) ∧ w.unroute h = w) ∨
      ∃ p, w.router.router.nodes.remove h.cluster h.node = .ok p ∧
        w.unroute h = { w with router := ⟨{ w.router.router with nodes := p },
          w.router.events ++ [.removed h.cluster h.node.name]⟩ } := by
  rw [unroute, RecordedRouter.removeRoute, Cluster.ofRemote_name]
  cases hrem : w.router.router.removeRoute h.cluster h.node with
  | error x =>
      refine .inl ⟨fun hreg => ?_, rfl⟩
      rw [← Bool.not_eq_true]
      intro hc
      obtain ⟨p, hp⟩ := NodePlacement.contains_iff_remove.mp hc
      cases hrem.symm.trans (Router.removeRoute_eq_ok_iff.mpr ⟨hreg, p, hp, rfl⟩)
  | ok r =>
      obtain ⟨-, p, hp, rfl⟩ := Router.removeRoute_eq_ok_iff.mp hrem
      exact .inr ⟨p, hp, rfl⟩

/-- An added route is that of a node whose name was not routed, and only its cluster notices. -/
lemma routedOf_route (hr : (w.route h).1 = .ok ()) :
    (w.routedOf h.cluster).contains h.node.name = false ∧
      ∀ d, (w.route h).2.routedOf d =
        if d = h.cluster then (w.routedOf h.cluster).insert h.node else w.routedOf d := by
  obtain ⟨x, -, hw⟩ | ⟨p, hp, hw⟩ := route_cases w h
  · rw [hw] at hr
    cases hr
  · rw [hw]
    exact ⟨NodePlacement.not_contains_of_add hp, NodePlacement.nodesOf_add hp⟩

/-- A refused route changes nothing. -/
lemma route_of_error {x : Fault} (hr : (w.route h).1 = .error x) : (w.route h).2 = w := by
  obtain ⟨y, -, hw⟩ | ⟨p, -, hw⟩ := route_cases w h
  · rw [hw]
  · rw [hw] at hr
    cases hr

/-- Adding a route registers nothing and joins nothing. -/
lemma route_keeps : (w.route h).2.closed = w.closed ∧ (w.route h).2.enrolments = w.enrolments ∧
    (w.route h).2.registered = w.registered := by
  obtain ⟨x, -, hw⟩ | ⟨p, -, hw⟩ := route_cases w h
  all_goals
    rw [hw]
    exact ⟨rfl, rfl, rfl⟩

/-- A removed route is gone from a registered cluster whether it was there or not, and no other
cluster notices. -/
lemma routedOf_unroute (hreg : w.registered.contains h.cluster = true) (d : String) :
    (w.unroute h).routedOf d =
      if d = h.cluster then (w.routedOf h.cluster).erase h.node.name else w.routedOf d := by
  obtain ⟨hnone, hw⟩ | ⟨p, hp, hw⟩ := unroute_cases w h
  · -- there is nothing to erase
    rw [hw, Keyed.erase_of_not_contains (hnone hreg)]
    by_cases hd : d = h.cluster
    · rw [if_pos hd, hd]
    · rw [if_neg hd]
  · rw [hw]
    exact NodePlacement.nodesOf_remove hp d

/-- Removing a route leaves other clusters alone, registered or not. -/
lemma routedOf_unroute_of_ne (hd : d ≠ h.cluster) : (w.unroute h).routedOf d = w.routedOf d := by
  obtain ⟨-, hw⟩ | ⟨p, hp, hw⟩ := unroute_cases w h
  · rw [hw]
  · rw [hw]
    exact (NodePlacement.nodesOf_remove hp d).trans (if_neg hd)

/-- Adding a route leaves other clusters alone, refused or not. -/
lemma routedOf_route_of_ne (hd : d ≠ h.cluster) : (w.route h).2.routedOf d = w.routedOf d := by
  cases hr : (w.route h).1 with
  | error x => rw [route_of_error hr]
  | ok v => exact ((routedOf_route hr).2 d).trans (if_neg hd)

/-- Removing a route registers nothing and joins nothing. -/
lemma unroute_keeps : (w.unroute h).closed = w.closed ∧ (w.unroute h).enrolments = w.enrolments ∧
    (w.unroute h).registered = w.registered := by
  obtain ⟨-, hw⟩ | ⟨p, -, hw⟩ := unroute_cases w h
  all_goals
    rw [hw]
    exact ⟨rfl, rfl, rfl⟩

end World

/-! ### Steps of rounds -/

/-- The step is about the cluster, or only about the network. -/
def Query.Concerns (cluster : String) : Query → Prop
  | isClosed | connect _ | disconnect _ | delay _ | membership _ => True
  | enrolment c | routes c | build c _ | store c _ => c = cluster
  | route h | unroute h | track h | untrack h => h.cluster = cluster

namespace World

variable {w w' u : World} {c d : String} {own still : Prop}

/-- What holds of every cluster throughout: discovery goes on, a joined cluster is registered, its
live nodes were built for it, and, unless others look after its routes, it is not the cluster of
this process. -/
structure Founded (own : Prop) (c : String) (w : World) : Prop where
  going : w.closed = false
  registered : w.enrolments.contains c = true → w.registered.contains c = true
  handles : ∀ h ∈ w.trackedOf c, h.cluster = c
  remote : own → ∀ k, w.registered.find? c = some k → k.isLocal = false

lemma Founded.of_eq (hf : w.Founded own c) (hclosed : w'.closed = w.closed)
    (hreg : w'.registered = w.registered)
    (hjoined : w'.enrolments.contains c = w.enrolments.contains c)
    (htracked : w'.trackedOf c = w.trackedOf c) : w'.Founded own c := by
  refine ⟨?_, ?_, ?_, ?_⟩
  · rw [hclosed]
    exact hf.going
  · rw [hjoined, hreg]
    exact hf.registered
  · rw [htracked]
    exact hf.handles
  · rw [hreg]
    exact hf.remote

/-- A change that is not part of the rounds of a cluster. If nobody else changes its routes
(`own`), they stay as they are, or all are removed unless that is excluded (`still`). -/
structure Spares (own still : Prop) (c : String) (w w' : World) : Prop where
  founded : w.Founded own c → w'.Founded own c
  joined : w.enrolments.contains c = true → w'.enrolments.contains c = true
  tracked : w'.trackedOf c = w.trackedOf c
  view : w'.viewOf c = w.viewOf c
  routed : own → w'.routedOf c = w.routedOf c ∨ (¬still ∧ w'.routedOf c = ∅)

lemma Spares.refl (w : World) : Spares own still c w w :=
  ⟨id, id, rfl, rfl, fun _ => Or.inl rfl⟩

lemma Spares.trans (h : Spares own still c w w') (h' : Spares own still c w' u) :
    Spares own still c w u := by
  refine ⟨fun hf => h'.founded (h.founded hf), fun hj => h'.joined (h.joined hj),
    h'.tracked.trans h.tracked, h'.view.trans h.view, fun hown => ?_⟩
  rcases h'.routed hown with hr | hr
  · rw [hr]
    exact h.routed hown
  · exact Or.inr hr

/-- A change spares the clusters whose accounts it leaves alone. -/
lemma Spares.of_eq (hclosed : w'.closed = w.closed) (hreg : w'.registered = w.registered)
    (hjoined : w'.enrolments.contains c = w.enrolments.contains c)
    (htracked : w'.trackedOf c = w.trackedOf c) (hview : w'.viewOf c = w.viewOf c)
    (hrouted : w'.routedOf c = w.routedOf c) : Spares own still c w w' :=
  ⟨fun hf => hf.of_eq hclosed hreg hjoined htracked, fun hj => hjoined.trans hj, htracked, hview,
    fun _ => Or.inl hrouted⟩

/-- A change spares the clusters of which nothing else is known and routed after it. -/
lemma Spares.of_find?_eq (hclosed : w'.closed = w.closed) (hreg : w'.registered = w.registered)
    (hfind : w'.enrolments.find? c = w.enrolments.find? c)
    (hrouted : w'.routedOf c = w.routedOf c) : Spares own still c w w' :=
  Spares.of_eq hclosed hreg (contains_eq_of_find?_eq hfind) (trackedOf_eq_of_find?_eq hfind)
    (viewOf_eq_of_find?_eq hfind) hrouted

/-- What happens on the network alone spares all clusters. -/
lemma Spares.of_network (net : Network) : Spares own still c w { w with network := net } :=
  Spares.of_eq rfl rfl rfl rfl rfl rfl

/-- The rounds of one cluster spare all others. -/
theorem spares_answer {q : Query} (hq : q.Concerns c) (hd : d ≠ c) :
    Spares own still d w (w.answer q).2 := by
  cases q with
  | isClosed => exact Spares.refl w
  | enrolment _ => exact Spares.refl w
  | routes _ => exact Spares.refl w
  | delay _ => exact Spares.refl w
  | connect _ => exact Spares.of_network _
  | disconnect _ => exact Spares.of_network _
  | membership _ => exact Spares.of_network _
  | build c' n =>
      obtain rfl : c' = c := hq
      refine Spares.of_find?_eq ?_ ?_ ((find?_build n).trans (if_neg hd)) ?_
      all_goals rw [answer, build]; split <;> rfl
  | track h =>
      obtain rfl : h.cluster = c := hq
      exact Spares.of_find?_eq rfl rfl (find?_track.trans (if_neg hd)) rfl
  | untrack h =>
      obtain rfl : h.cluster = c := hq
      exact Spares.of_find?_eq rfl rfl (find?_untrack.trans (if_neg hd)) rfl
  | store c' v =>
      obtain rfl : c' = c := hq
      exact Spares.of_find?_eq rfl rfl ((find?_store v).trans (if_neg hd)) rfl
  | route h =>
      obtain rfl : h.cluster = c := hq
      obtain ⟨hclosed, henrol, hreg⟩ := route_keeps (w := w) (h := h)
      exact Spares.of_find?_eq hclosed hreg (congrArg (Keyed.find? · d) henrol)
        (routedOf_route_of_ne hd)
  | unroute h =>
      obtain rfl : h.cluster = c := hq
      obtain ⟨hclosed, henrol, hreg⟩ := unroute_keeps (w := w) (h := h)
      exact Spares.of_find?_eq hclosed hreg (congrArg (Keyed.find? · d) henrol)
        (routedOf_unroute_of_ne hd)

/-! ### What no step of a round changes -/

/-- A step of a round does not change the configuration or the published views, and joins nothing.
-/
lemma answer_keeps (w : World) (q : Query) : (w.answer q).2.config = w.config ∧
    (w.answer q).2.network.views = w.network.views ∧
    ∀ d, (w.answer q).2.enrolments.contains d = w.enrolments.contains d := by
  have hmodified : ∀ {s s' : Enrolments} {c d : String} {f : Enrolment → Enrolment},
      s'.find? d = (if d = c then (s.find? d).map f else s.find? d) →
        s'.contains d = s.contains d := by
    intro s s' c d f hf
    rw [Keyed.contains_eq_isSome, Keyed.contains_eq_isSome, hf]
    split
    next => exact Option.isSome_map
    next => rfl
  cases q with
  | isClosed => exact ⟨rfl, rfl, fun _ => rfl⟩
  | enrolment _ => exact ⟨rfl, rfl, fun _ => rfl⟩
  | routes _ => exact ⟨rfl, rfl, fun _ => rfl⟩
  | delay _ => exact ⟨rfl, rfl, fun _ => rfl⟩
  | connect _ => exact ⟨rfl, rfl, fun _ => rfl⟩
  | disconnect _ => exact ⟨rfl, rfl, fun _ => rfl⟩
  | membership _ => exact ⟨rfl, rfl, fun _ => rfl⟩
  | build c n =>
      refine ⟨?_, ?_, fun d => hmodified (find?_build n)⟩
      · rw [answer, build]
        split <;> rfl
      · rw [answer, build]
        split <;> rfl
  | track h => exact ⟨rfl, rfl, fun d => hmodified find?_track⟩
  | untrack h => exact ⟨rfl, rfl, fun d => hmodified find?_untrack⟩
  | store c v => exact ⟨rfl, rfl, fun d => hmodified (find?_store v)⟩
  | route h =>
      refine ⟨?_, ?_, fun d => congrArg (Keyed.contains · d) (route_keeps (h := h)).2.1⟩
      · rw [answer, route]
        split <;> rfl
      · rw [answer, route]
        split <;> rfl
  | unroute h =>
      refine ⟨?_, ?_, fun d => congrArg (Keyed.contains · d) (unroute_keeps (h := h)).2.1⟩
      · rw [answer, unroute]
        split <;> rfl
      · rw [answer, unroute]
        split <;> rfl

/-- A step of a program changes no more than the answer to its question. -/
lemma step_keeps {α : Type} (p : Program Query Query.Answer α) (w : World) :
    (Program.step answer (p, w)).2.config = w.config ∧
      (Program.step answer (p, w)).2.network.views = w.network.views ∧
      ∀ d, (Program.step answer (p, w)).2.enrolments.contains d = w.enrolments.contains d := by
  rw [Program.step_snd]
  cases p.question? with
  | none => exact ⟨rfl, rfl, fun _ => rfl⟩
  | some q => exact answer_keeps w q

/-- A node answers with a published view, if it answers at all. -/
lemma mem_views_of_membership {h : Handle} {v : View}
    (hv : (w.answer (.membership h)).1 = .ok v) : v ∈ w.network.views.toList := by
  have hanswer : (w.network.membership h).1 = .ok v := hv
  rw [Network.membership] at hanswer
  dsimp only at hanswer
  split at hanswer
  next v' hv' =>
    split at hanswer
    next =>
      obtain rfl := Except.ok.inj hanswer
      exact List.mem_of_find?_eq_some hv'
    next => cases hanswer
  next => cases hanswer

end World

end Federation
