import Federation.Proofs.Placement.Agreement
import Federation.Proofs.Simulation.Aside

/-!
Worlds that agree about a cluster.

* `Router.Agree`, `World.Agree`: the same is known of a cluster, the same is registered, and nodes
  behave in the same way. What was done on the network before does not matter.
* `World.Agree.answer`: a step of a round for the cluster is answered alike, and the worlds agree
  about the cluster afterwards.
* `World.agree_answer`: a step of a round for another cluster is not noticed.
* `World.eq_of_agree`: worlds that agree about all clusters differ at most on the network and in
  their records.
-/

namespace Federation

/-! ### Routers -/

namespace Router

variable {r r' r'' : Router} {c d : String} {n : Node}

/-- Two routers know the same of a cluster, and the same clusters. -/
structure Agree (c : String) (r r' : Router) : Prop where
  clusters : r.clusters = r'.clusters
  placement : r.placement = r'.placement
  localNode : r.localNode = r'.localNode
  nodes : r.nodes.Agree c r'.nodes

namespace Agree

lemma refl (c : String) (r : Router) : Agree c r r := ⟨rfl, rfl, rfl, .refl c r.nodes⟩

lemma symm (h : Agree c r r') : Agree c r' r :=
  ⟨h.clusters.symm, h.placement.symm, h.localNode.symm, h.nodes.symm⟩

lemma trans (h : Agree c r r') (h' : Agree c r' r'') : Agree c r r'' :=
  ⟨h.clusters.trans h'.clusters, h.placement.trans h'.placement, h.localNode.trans h'.localNode,
    h.nodes.trans h'.nodes⟩

lemma clusterRoute_eq (h : Agree c r r') :
    r.clusterRoute (.ofRemote c) = r'.clusterRoute (.ofRemote c) := by
  have hname : (Cluster.ofRemote c).name = c := rfl
  rw [clusterRoute, clusterRoute, hname, h.clusters, h.localNode, h.nodes.nodesOf_eq]

/-- The nodes of a cluster are changed alike in both routers. -/
lemma settle_nodes (h : Agree c r r') {x x' : Except Fault NodePlacement}
    (hx : (settle r.nodes x).1 = (settle r'.nodes x').1)
    (hnodes : (settle r.nodes x).2.Agree c (settle r'.nodes x').2) :
    (settle r (x.map fun p => { r with nodes := p })).1 =
        (settle r' (x'.map fun p => { r' with nodes := p })).1 ∧
      Agree c (settle r (x.map fun p => { r with nodes := p })).2
        (settle r' (x'.map fun p => { r' with nodes := p })).2 := by
  cases x <;> cases x'
  case error.error => exact ⟨hx, h⟩
  case ok.ok => exact ⟨rfl, h.clusters, h.placement, h.localNode, hnodes⟩
  all_goals cases hx

lemma call_addRoute (h : Agree c r r') (n : Node) :
    (r.call (.addRoute c n)).1 = (r'.call (.addRoute c n)).1 ∧
      Agree c (r.call (.addRoute c n)).2 (r'.call (.addRoute c n)).2 := by
  obtain ⟨hanswer, hnodes⟩ := h.nodes.settle_add n
  have hcontains : r.clusters.contains c = r'.clusters.contains c := by rw [h.clusters]
  rw [call, call, Cluster.ofRemote_name, addRoute_eq, addRoute_eq, ← hcontains]
  split
  next => exact h.settle_nodes hanswer hnodes
  next => exact ⟨rfl, h⟩

lemma call_removeRoute (h : Agree c r r') (n : Node) :
    (r.call (.removeRoute c n)).1 = (r'.call (.removeRoute c n)).1 ∧
      Agree c (r.call (.removeRoute c n)).2 (r'.call (.removeRoute c n)).2 := by
  obtain ⟨hanswer, hnodes⟩ := h.nodes.settle_remove n
  have hcontains : r.clusters.contains c = r'.clusters.contains c := by rw [h.clusters]
  rw [call, call, Cluster.ofRemote_name, removeRoute_eq, removeRoute_eq, ← hcontains]
  split
  next => exact h.settle_nodes hanswer hnodes
  next => exact ⟨rfl, h⟩

end Agree

/-- A change of the nodes that is not noticed in a cluster is not noticed in it as a change of the
router, refused or not. -/
lemma agree_settle_nodes {r : Router} {x : Except Fault NodePlacement}
    (h : r.nodes.Agree d (settle r.nodes x).2) :
    Agree d r (settle r (x.map fun p => { r with nodes := p })).2 := by
  cases x with
  | error e => exact Agree.refl d r
  | ok p => exact ⟨rfl, rfl, rfl, h⟩

/-- A node that is added to one cluster is not noticed in another. -/
lemma agree_call_addRoute (hd : d ≠ c) (r : Router) (n : Node) :
    Agree d r (r.call (.addRoute c n)).2 := by
  rw [call, Cluster.ofRemote_name, addRoute_eq]
  split
  next => exact agree_settle_nodes (NodePlacement.agree_settle_add hd r.nodes n)
  next => exact Agree.refl d r

/-- A node that is removed from one cluster is not noticed in another. -/
lemma agree_call_removeRoute (hd : d ≠ c) (r : Router) (n : Node) :
    Agree d r (r.call (.removeRoute c n)).2 := by
  rw [call, Cluster.ofRemote_name, removeRoute_eq]
  split
  next => exact agree_settle_nodes (NodePlacement.agree_settle_remove hd r.nodes n)
  next => exact Agree.refl d r

/-- Routers that agree about all clusters are equal. -/
lemma eq_of_agree (h : ∀ c, Agree c r r') : r = r' := by
  obtain ⟨hclusters, hplacement, hlocal, -⟩ := h ""
  have hnodes : r.nodes = r'.nodes := NodePlacement.eq_of_agree fun c => (h c).nodes
  cases r
  cases r'
  simp_all

end Router

/-! ### Worlds -/

namespace World

variable {w w' u : World} {c d : String} {q : Query}

/-- The network apart from what was done on it. -/
def setting (w : World) : Network := { w.network with journal := [] }

/-- The same is known of a cluster, and nodes behave in the same way. -/
structure Agree (c : String) (w w' : World) : Prop where
  closed : w.closed = w'.closed
  enrolment : w.enrolments.find? c = w'.enrolments.find? c
  router : w.router.router.Agree c w'.router.router
  setting : w.setting = w'.setting

namespace Agree

lemma refl (c : String) (w : World) : Agree c w w := ⟨rfl, rfl, .refl c _, rfl⟩

lemma symm (h : Agree c w w') : Agree c w' w :=
  ⟨h.closed.symm, h.enrolment.symm, h.router.symm, h.setting.symm⟩

lemma trans (h : Agree c w w') (h' : Agree c w' u) : Agree c w u :=
  ⟨h.closed.trans h'.closed, h.enrolment.trans h'.enrolment, h.router.trans h'.router,
    h.setting.trans h'.setting⟩

/-- A change of what is known of the cluster that is the same in both worlds. -/
lemma modify (h : Agree c w w') {s s' : Enrolments} {f : Enrolment → Enrolment}
    (hs : s.find? c = (w.enrolments.find? c).map f)
    (hs' : s'.find? c = (w'.enrolments.find? c).map f) :
    Agree c { w with enrolments := s } { w' with enrolments := s' } :=
  ⟨h.closed, by rw [hs, hs', h.enrolment], h.router, h.setting⟩

end Agree

/-! ### Steps of rounds -/

lemma exists_route (w : World) (h : Handle) : ∃ r : RecordedRouter,
    r.router = (w.router.router.call (.addRoute h.cluster h.node)).2 ∧
      w.route h = ((w.router.router.call (.addRoute h.cluster h.node)).1, { w with router := r }) := by
  rw [route, RecordedRouter.addRoute, Router.call, Cluster.ofRemote_name]
  cases w.router.router.addRoute h.cluster h.node <;> exact ⟨_, rfl, rfl⟩

lemma exists_unroute (w : World) (h : Handle) : ∃ r : RecordedRouter,
    r.router = (w.router.router.call (.removeRoute h.cluster h.node)).2 ∧
      w.unroute h = { w with router := r } := by
  rw [unroute, RecordedRouter.removeRoute, Router.call, Cluster.ofRemote_name]
  cases w.router.router.removeRoute h.cluster h.node <;> exact ⟨_, rfl, rfl⟩

/-- How a node answers does not depend on what was done before. -/
lemma network_eq_of_setting (h : w.setting = w'.setting) (x : Handle) :
    (w.network.connect x).1 = (w'.network.connect x).1 ∧
      (w.network.membership x).1 = (w'.network.membership x).1 ∧
      w.network.delayOf x = w'.network.delayOf x := by
  have hconnect := congrArg (fun net => (Network.connect net x).1) h
  have hmembership := congrArg (fun net => (Network.membership net x).1) h
  have hdelay := congrArg (fun net => Network.delayOf net x) h
  exact ⟨hconnect, hmembership, hdelay⟩

/-- A step of a round for a cluster is answered alike in worlds that agree about it, and they still
do afterwards. -/
theorem Agree.answer (h : Agree c w w') (hq : q.IsFor c) :
    (w.answer q).1 = (w'.answer q).1 ∧ Agree c (w.answer q).2 (w'.answer q).2 := by
  cases q with
  | isClosed => exact ⟨h.closed, h⟩
  | enrolment c' =>
      obtain rfl : c' = c := hq
      exact ⟨h.enrolment, h⟩
  | routes c' =>
      obtain rfl : c' = c := hq
      exact ⟨h.router.clusterRoute_eq, h⟩
  | delay x => exact ⟨(network_eq_of_setting h.setting x).2.2, h⟩
  | connect x =>
      exact ⟨(network_eq_of_setting h.setting x).1, h.closed, h.enrolment, h.router, h.setting⟩
  | disconnect x => exact ⟨rfl, h.closed, h.enrolment, h.router, h.setting⟩
  | membership x =>
      exact ⟨(network_eq_of_setting h.setting x).2.1, h.closed, h.enrolment, h.router, h.setting⟩
  | build c' n =>
      obtain rfl : c' = c := hq
      have hfind : ∀ w : World, (w.answer (.build c' n)).2.enrolments.find? c' =
          (w.enrolments.find? c').map Enrolment.countHandle :=
        fun w => (find?_build n).trans (if_pos rfl)
      have henrolment := (hfind w).trans ((congrArg _ h.enrolment).trans (hfind w').symm)
      rw [World.answer, World.answer, build, build, ← h.enrolment] at *
      cases he : w.enrolments.find? c' with
      | none => exact ⟨rfl, h⟩
      | some e =>
          rw [he] at henrolment
          exact ⟨rfl, h.closed, henrolment, h.router, h.setting⟩
  | track x =>
      obtain rfl : x.cluster = c := hq
      exact ⟨rfl, h.modify (find?_track.trans (if_pos rfl)) (find?_track.trans (if_pos rfl))⟩
  | untrack x =>
      obtain rfl : x.cluster = c := hq
      exact ⟨rfl, h.modify (find?_untrack.trans (if_pos rfl)) (find?_untrack.trans (if_pos rfl))⟩
  | store c' v =>
      obtain rfl : c' = c := hq
      exact ⟨rfl, h.modify ((find?_store v).trans (if_pos rfl)) ((find?_store v).trans (if_pos rfl))⟩
  | route x =>
      obtain rfl : x.cluster = c := hq
      obtain ⟨r, hr, hw⟩ := exists_route w x
      obtain ⟨r', hr', hw'⟩ := exists_route w' x
      obtain ⟨hanswer, hrouter⟩ := h.router.call_addRoute x.node
      rw [← hr, ← hr'] at hrouter
      rw [World.answer, World.answer, hw, hw']
      exact ⟨hanswer, h.closed, h.enrolment, hrouter, h.setting⟩
  | unroute x =>
      obtain rfl : x.cluster = c := hq
      obtain ⟨r, hr, hw⟩ := exists_unroute w x
      obtain ⟨r', hr', hw'⟩ := exists_unroute w' x
      have hrouter := (h.router.call_removeRoute x.node).2
      rw [← hr, ← hr'] at hrouter
      rw [World.answer, World.answer, hw, hw']
      exact ⟨rfl, h.closed, h.enrolment, hrouter, h.setting⟩

/-- A step of a round for one cluster is not noticed in another, even if nodes of both have the same
names. -/
theorem agree_answer (hq : q.IsFor c) (hd : d ≠ c) : Agree d w (w.answer q).2 := by
  have hfind := (find?_answer_of_ne (w := w) hq hd).symm
  cases q with
  | isClosed | enrolment _ | routes _ | delay _ => exact Agree.refl d w
  | connect _ | disconnect _ | membership _ | track _ | untrack _ | store _ _ =>
      exact ⟨rfl, hfind, .refl d _, rfl⟩
  | build c' n =>
      refine ⟨?_, hfind, ?_, ?_⟩
      all_goals
        rw [answer, build]
        split
      all_goals first | rfl | exact .refl d _
  | route x =>
      obtain rfl : x.cluster = c := hq
      obtain ⟨r, hr, hw⟩ := exists_route w x
      have hrouter := Router.agree_call_addRoute hd w.router.router x.node
      rw [← hr] at hrouter
      rw [answer, hw]
      exact ⟨rfl, rfl, hrouter, rfl⟩
  | unroute x =>
      obtain rfl : x.cluster = c := hq
      obtain ⟨r, hr, hw⟩ := exists_unroute w x
      have hrouter := Router.agree_call_removeRoute hd w.router.router x.node
      rw [← hr] at hrouter
      rw [answer, hw]
      exact ⟨rfl, rfl, hrouter, rfl⟩

/-! ### Steps of programs -/

variable {α : Type} {p : Program Query Query.Answer α}

/-- A program that asks only questions for a cluster goes on alike in worlds that agree about it. -/
lemma Agree.step (h : Agree c w w') (hp : ∀ q, p.question? = some q → q.IsFor c) :
    (Program.step World.answer (p, w)).1 = (Program.step World.answer (p, w')).1 ∧
      Agree c (Program.step World.answer (p, w)).2 (Program.step World.answer (p, w')).2 := by
  cases p with
  | done a => exact ⟨rfl, h⟩
  | ask q next =>
      obtain ⟨hanswer, hagree⟩ := h.answer (hp q rfl)
      exact ⟨congrArg next hanswer, hagree⟩
  | wait ms next => exact ⟨rfl, h⟩

/-- A program that asks only questions for one cluster is not noticed in another. -/
lemma agree_step (hp : ∀ q, p.question? = some q → q.IsFor c) (hd : d ≠ c) :
    Agree d w (Program.step World.answer (p, w)).2 := by
  rw [Program.step_snd]
  cases hq : p.question? with
  | none => exact Agree.refl d w
  | some q => exact agree_answer (hp q hq) hd

/-- Worlds that agree about all clusters know the same of them and route alike. -/
lemma eq_of_agree (h : ∀ c, Agree c w w') :
    w.enrolments = w'.enrolments ∧ w.router.router = w'.router.router :=
  ⟨Keyed.ext_find? fun c => (h c).enrolment, Router.eq_of_agree fun c => (h c).router⟩

end World

end Federation
