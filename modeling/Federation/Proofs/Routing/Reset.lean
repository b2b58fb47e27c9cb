import Federation.Proofs.Placement.RegistryHistory
import Federation.Proofs.Routing.Batches
import Federation.Proofs.Routing.SoundLookups

/-!
What is left when all nodes were removed at once.

* `NodePlacement.call`, `NodePlacement.after`: a change asked of a placement, its answer with the
  placement after it, and the placement after a history of changes.
* `NodePlacement.SameAnswers`, `Router.SameAnswers`: whoever asks either of the two gets the same
  answers.
* `NodePlacement.Interchangeable`, `Router.Interchangeable`: what two placements or routers have in
  common that gives the same answers, and that every further change keeps
  (`NodePlacement.Interchangeable.call`, `Router.Interchangeable.call`).
* `Router.anew`: a new router with the clusters and the own node of another one.
* `Router.clear_starts_anew`: a placement that was cleared is not to be told from a new one,
  whatever is asked of both of them later, and neither is a router.
-/

namespace Federation

/-! ### Placements of nodes -/

namespace NodePlacement

variable {p p' : NodePlacement} {c : String} {n : Node}

/-- The answer to a change, and the placement after it. -/
def call (p : NodePlacement) : NodeCall → Except Fault Unit × NodePlacement
  | .add c n => settle p (p.add c n)
  | .remove c n => settle p (p.remove c n)
  | .clear => (.ok (), p.clear)

/-- The placement after a history of changes, the first one first. -/
def after (p : NodePlacement) (calls : List NodeCall) : NodePlacement :=
  calls.foldl (fun p x => (p.call x).2) p

/-- Whoever asks either of the placements gets the same answers. -/
structure SameAnswers (p p' : NodePlacement) : Prop where
  limit : p.limit? = p'.limit?
  nodes : ∀ c, p.nodesOf c = p'.nodesOf c
  lookups : ∀ c l, p.nodeFor c l = p'.nodeFor c l
  changes : ∀ x, (p.call x).1 = (p'.call x).1

/-- Both placements are sound and place any nodes in the same way. -/
structure Kindred (p p' : NodePlacement) : Prop where
  left : p.Sound
  right : p'.Sound
  limit : p.limit? = p'.limit?
  alike : p.Alike p'

/-- The placements also have the same nodes to place. -/
structure Interchangeable (p p' : NodePlacement) : Prop where
  kindred : p.Kindred p'
  nodes : ∀ c, p.nodesOf c = p'.nodesOf c

lemma Blank.kindred (h : p.Blank) : p.Kindred p := by
  have hsound : p.Sound := (Router.tidy_ofPlacements h (.ofStrategy fun _ => none)).sound
  exact ⟨hsound, hsound, rfl, fun _ _ _ => rfl⟩

namespace Kindred

lemma symm (h : p.Kindred p') : p'.Kindred p :=
  ⟨h.right, h.left, h.limit.symm, fun c nodes l => (h.alike c nodes l).symm⟩

lemma add {q : NodePlacement} (h : p.Kindred p') (hq : p.add c n = .ok q) : q.Kindred p' := by
  obtain ⟨hsound, hlimit⟩ := h.left.add hq
  exact ⟨hsound, h.right, hlimit.trans h.limit,
    fun d nodes l => (alike_of_add hq d nodes l).trans (h.alike d nodes l)⟩

lemma remove {q : NodePlacement} (h : p.Kindred p') (hq : p.remove c n = .ok q) :
    q.Kindred p' := by
  obtain ⟨hsound, hlimit⟩ := h.left.remove hq
  exact ⟨hsound, h.right, hlimit.trans h.limit,
    fun d nodes l => (alike_of_remove hq d nodes l).trans (h.alike d nodes l)⟩

lemma clear (h : p.Kindred p') : p.clear.Kindred p' := by
  obtain ⟨hsound, hlimit⟩ := h.left.clear
  exact ⟨hsound, h.right, hlimit.trans h.limit,
    fun d nodes l => (alike_clear p d nodes l).trans (h.alike d nodes l)⟩

/-- No change affects the way in which nodes are placed. -/
lemma call (h : p.Kindred p') (x : NodeCall) : (p.call x).2.Kindred p' := by
  cases x with
  | add c n => exact settle_induction (P := fun q => q.Kindred p') h fun _ hq => h.add hq
  | remove c n => exact settle_induction (P := fun q => q.Kindred p') h fun _ hq => h.remove hq
  | clear => exact h.clear

lemma after (h : p.Kindred p') (calls : List NodeCall) : (p.after calls).Kindred p' := by
  induction calls generalizing p with
  | nil => exact h
  | cons x calls ih => exact ih (h.call x)

/-- Without any nodes all that counts is the way in which they are placed. -/
lemma interchangeable_clear (h : p.Kindred p') (hp' : p'.Blank) : p.clear.Interchangeable p' :=
  ⟨h.clear, fun c => (nodesOf_clear p c).trans (hp'.nodesOf_eq c).symm⟩

end Kindred

namespace Interchangeable

lemma add_eq_error_iff (h : p.Interchangeable p') (c : String) (n : Node) (e : Fault) :
    p.add c n = .error e ↔ p'.add c n = .error e := by
  rw [h.kindred.left.add_eq_error_iff, h.kindred.right.add_eq_error_iff, h.kindred.limit, h.nodes]

lemma remove_eq_error_iff (h : p.Interchangeable p') (c : String) (n : Node) (e : Fault) :
    p.remove c n = .error e ↔ p'.remove c n = .error e := by
  rw [NodePlacement.remove_eq_error_iff, NodePlacement.remove_eq_error_iff, h.nodes]

lemma add {q q' : NodePlacement} (h : p.Interchangeable p') (hq : p.add c n = .ok q)
    (hq' : p'.add c n = .ok q') : q.Interchangeable q' :=
  ⟨((h.kindred.add hq).symm.add hq').symm, fun d => by
    rw [nodesOf_add hq, nodesOf_add hq', h.nodes, h.nodes]⟩

lemma remove {q q' : NodePlacement} (h : p.Interchangeable p') (hq : p.remove c n = .ok q)
    (hq' : p'.remove c n = .ok q') : q.Interchangeable q' :=
  ⟨((h.kindred.remove hq).symm.remove hq').symm, fun d => by
    rw [nodesOf_remove hq, nodesOf_remove hq', h.nodes, h.nodes]⟩

lemma clear (h : p.Interchangeable p') : p.clear.Interchangeable p'.clear :=
  ⟨(h.kindred.clear.symm.clear).symm, fun c => by rw [nodesOf_clear, nodesOf_clear]⟩

/-- Every change is answered alike, and afterwards the placements are still interchangeable. -/
lemma call (h : p.Interchangeable p') (x : NodeCall) :
    (p.call x).1 = (p'.call x).1 ∧ (p.call x).2.Interchangeable (p'.call x).2 := by
  cases x with
  | add c n => exact settle_related h (h.add_eq_error_iff c n) fun _ _ hq hq' => h.add hq hq'
  | remove c n =>
      exact settle_related h (h.remove_eq_error_iff c n) fun _ _ hq hq' => h.remove hq hq'
  | clear => exact ⟨rfl, h.clear⟩

lemma after (h : p.Interchangeable p') (calls : List NodeCall) :
    (p.after calls).Interchangeable (p'.after calls) := by
  induction calls generalizing p p' with
  | nil => exact h
  | cons x calls ih => exact ih (h.call x).2

lemma nodeFor_eq (h : p.Interchangeable p') (c : String) (l : Lookup) :
    p.nodeFor c l = p'.nodeFor c l := by
  rw [h.kindred.left.nodeFor_eq, h.kindred.right.nodeFor_eq, h.nodes, h.kindred.alike]

lemma sameAnswers (h : p.Interchangeable p') : p.SameAnswers p' :=
  ⟨h.kindred.limit, h.nodes, h.nodeFor_eq, fun x => (h.call x).1⟩

end Interchangeable

end NodePlacement

/-! ### Routers -/

namespace Router

variable {nodes : NodePlacement} {placement : ClusterPlacement} {r r' : Router}

/-- Whoever asks either of the routers gets the same answers. -/
structure SameAnswers (r r' : Router) : Prop where
  limit : r.limit? = r'.limit?
  clusters : r.clusters = r'.clusters
  localRoute : r.localRoute = r'.localRoute
  lookups : ∀ l, r.nodeFor l = r'.nodeFor l
  batches : ∀ bucket keys, r.groupKeys bucket keys = r'.groupKeys bucket keys
  routes : ∀ c, r.clusterRoute c = r'.clusterRoute c
  broadcast : r.broadcast = r'.broadcast
  changes : ∀ x, (r.call x).1 = (r'.call x).1

/-- The routers differ in no more than the way in which their nodes are kept. -/
structure Interchangeable (r r' : Router) : Prop where
  clusters : r.clusters = r'.clusters
  placement : r.placement = r'.placement
  localNode : r.localNode = r'.localNode
  nodes : r.nodes.Interchangeable r'.nodes

/-- A new router with the registered clusters and the own node of `r`. -/
def anew (nodes : NodePlacement) (placement : ClusterPlacement) (r : Router) : Router :=
  (ofPlacements nodes placement).after
    (.setUp r.clusters :: r.localNode.toList.map .setLocalNode)

lemma groupKeys_congr (h : ∀ l, r.nodeFor l = r'.nodeFor l) (bucket : String)
    (keys : List String) : r.groupKeys bucket keys = r'.groupKeys bucket keys := by
  have hserver : r.server? bucket = r'.server? bucket := funext fun key => by
    rw [server?, server?, h]
  have hserves : r.Serves bucket keys ↔ r'.Serves bucket keys := by rw [Serves, Serves, hserver]
  have hserved : r.served bucket keys = r'.served bucket keys := by rw [served, served, hserver]
  simp only [groupKeys_eq, hserves, hserved]

namespace Interchangeable

lemma nodeFor_eq (h : r.Interchangeable r') (l : Lookup) : r.nodeFor l = r'.nodeFor l := by
  simp only [nodeFor, h.placement, h.nodes.nodeFor_eq]

lemma clusterRoute_eq (h : r.Interchangeable r') (c : Cluster) :
    r.clusterRoute c = r'.clusterRoute c := by
  rw [clusterRoute, clusterRoute, h.clusters, h.localNode, h.nodes.nodes]

lemma withNodes (h : r.Interchangeable r') {p p' : NodePlacement} (hp : p.Interchangeable p') :
    ({ r with nodes := p } : Router).Interchangeable { r' with nodes := p' } :=
  ⟨h.clusters, h.placement, h.localNode, hp⟩

lemma addRoute_eq_error_iff (h : r.Interchangeable r') (c : String) (n : Node) (e : Fault) :
    r.addRoute c n = .error e ↔ r'.addRoute c n = .error e := by
  rw [addRoute_eq, addRoute_eq, h.clusters]
  split
  next => rw [map_eq_error_iff, map_eq_error_iff, h.nodes.add_eq_error_iff]
  next => rfl

lemma removeRoute_eq_error_iff (h : r.Interchangeable r') (c : String) (n : Node) (e : Fault) :
    r.removeRoute c n = .error e ↔ r'.removeRoute c n = .error e := by
  rw [removeRoute_eq, removeRoute_eq, h.clusters]
  split
  next => rw [map_eq_error_iff, map_eq_error_iff, h.nodes.remove_eq_error_iff]
  next => rfl

/-- Every change is answered alike, and afterwards the routers are still interchangeable. -/
lemma call (h : r.Interchangeable r') (x : RouterCall) :
    (r.call x).1 = (r'.call x).1 ∧ (r.call x).2.Interchangeable (r'.call x).2 := by
  cases x with
  | setUp clusters =>
      refine ⟨rfl, ?_, ?_, h.localNode, h.nodes⟩
      · change r.clusters.union clusters = r'.clusters.union clusters
        rw [h.clusters]
      · change r.placement.setUp (r.clusters.union clusters) =
          r'.placement.setUp (r'.clusters.union clusters)
        rw [h.clusters, h.placement]
  | setLocalNode n => exact ⟨rfl, h.clusters, h.placement, rfl, h.nodes⟩
  | addRoute c n =>
      refine settle_related h (h.addRoute_eq_error_iff c.name n) fun s s' hs hs' => ?_
      obtain ⟨-, p, hp, rfl⟩ := addRoute_eq_ok_iff.mp hs
      obtain ⟨-, p', hp', rfl⟩ := addRoute_eq_ok_iff.mp hs'
      exact h.withNodes (h.nodes.add hp hp')
  | removeRoute c n =>
      refine settle_related h (h.removeRoute_eq_error_iff c.name n) fun s s' hs hs' => ?_
      obtain ⟨-, p, hp, rfl⟩ := removeRoute_eq_ok_iff.mp hs
      obtain ⟨-, p', hp', rfl⟩ := removeRoute_eq_ok_iff.mp hs'
      exact h.withNodes (h.nodes.remove hp hp')
  | clear => exact ⟨rfl, h.withNodes h.nodes.clear⟩

lemma after (h : r.Interchangeable r') (calls : List RouterCall) :
    (r.after calls).Interchangeable (r'.after calls) := by
  induction calls generalizing r r' with
  | nil => exact h
  | cons x calls ih => exact ih (h.call x).2

lemma sameAnswers (h : r.Interchangeable r') : r.SameAnswers r' where
  limit := h.nodes.kindred.limit
  clusters := h.clusters
  localRoute := by rw [localRoute, localRoute, h.localNode]
  lookups := h.nodeFor_eq
  batches := groupKeys_congr h.nodeFor_eq
  routes := h.clusterRoute_eq
  broadcast := by
    rw [broadcast, broadcast, h.clusters]
    exact List.map_congr_left fun c _ => by rw [h.clusterRoute_eq]
  changes x := (h.call x).1

end Interchangeable

/-! ### Clearing -/

/-- No change of a router affects the way in which it places nodes. -/
lemma kindred_call (h : r.nodes.Kindred nodes) (x : RouterCall) :
    (r.call x).2.nodes.Kindred nodes := by
  cases x with
  | setUp clusters => exact h
  | setLocalNode n => exact h
  | addRoute c n =>
      refine settle_induction (P := fun s : Router => s.nodes.Kindred nodes) h fun s hs => ?_
      obtain ⟨-, p, hp, rfl⟩ := addRoute_eq_ok_iff.mp hs
      exact h.add hp
  | removeRoute c n =>
      refine settle_induction (P := fun s : Router => s.nodes.Kindred nodes) h fun s hs => ?_
      obtain ⟨-, p, hp, rfl⟩ := removeRoute_eq_ok_iff.mp hs
      exact h.remove hp
  | clear => exact h.clear

lemma kindred_after (h : r.nodes.Kindred nodes) (calls : List RouterCall) :
    (r.after calls).nodes.Kindred nodes := by
  induction calls generalizing r with
  | nil => exact h
  | cons x calls ih => exact ih (kindred_call h x)

lemma anew_eq (nodes : NodePlacement) (placement : ClusterPlacement) (r : Router) :
    anew nodes placement r = ⟨r.clusters, nodes, placement.setUp r.clusters, r.localNode⟩ := by
  have hclusters : (∅ : ClusterSet).union r.clusters = r.clusters := Keyed.empty_union _
  rw [anew]
  cases r.localNode <;> simp [after, call, setUp, setLocalNode, ofPlacements, hclusters]

/-- A router that was cleared is interchangeable with a new one. -/
lemma Current.interchangeable_clear (h : r.Current nodes placement) (hnodes : nodes.Blank)
    (hkindred : r.nodes.Kindred nodes) :
    r.clear.Interchangeable (anew nodes placement r) := by
  rw [anew_eq]
  exact ⟨rfl, h.placement_eq, rfl, hkindred.interchangeable_clear hnodes⟩

/-- Whichever way nodes are placed, a placement that was cleared after any history of changes
answers whatever it is asked, and whatever is changed about it later, as a new placement of its kind
does that goes through the later changes only. So does a router, compared with a new one that has
the same registered clusters and the same node of its own. -/
theorem clear_starts_anew (hnodes : nodes.Blank) (hplacement : placement.Blank) :
    (∀ before later : List NodeCall,
      ((nodes.after before).clear.after later).SameAnswers (nodes.after later)) ∧
    ∀ before later : List RouterCall,
      let r := (ofPlacements nodes placement).after before
      (r.clear.after later).SameAnswers ((anew nodes placement r).after later) := by
  refine ⟨fun before later => ?_, fun before later => ?_⟩
  · have hcleared := (hnodes.kindred.after before).interchangeable_clear hnodes
    exact (hcleared.after later).sameAnswers
  · have hcurrent := current_after hnodes hplacement before
    have hkindred : ((ofPlacements nodes placement).after before).nodes.Kindred nodes :=
      kindred_after hnodes.kindred before
    exact ((hcurrent.interchangeable_clear hnodes hkindred).after later).sameAnswers

/-- A cluster that was full takes another node after it was cleared, and every lookup in it leads
there. The own node is still broadcast. -/
theorem clear_starts_anew_full :
    let r := (ofPlacements (.hashed (.ofLimit 1 (.ofCode String.length)))
      (.ofHash (.ofCode String.length))).after
        [.setUp (.ofList [.ofLocal "europe", .ofRemote "asia"]), .setLocalNode ⟨"a", ⟨"host", 1⟩⟩,
          .addRoute "asia" ⟨"b", ⟨"host", 2⟩⟩]
    let s := r.clear.after [.addRoute "asia" ⟨"c", ⟨"host", 3⟩⟩]
    (r.call (.addRoute "asia" ⟨"c", ⟨"host", 3⟩⟩)).1 = .error (.partitionsExhausted 1) ∧
    (s.call (.removeRoute "asia" ⟨"b", ⟨"host", 2⟩⟩)).1 = .error (.unknownNode "asia" "b") ∧
    s.nodeFor (.ofBucket "orders") = .ok ⟨"c", ⟨"host", 3⟩⟩ ∧
    s.broadcast = [(.ofRemote "asia", .ofList [⟨"c", ⟨"host", 3⟩⟩]),
      (.ofLocal "europe", .ofList [⟨"a", ⟨"host", 1⟩⟩])] := by
  intro r s
  have hs : s.SameAnswers _ := (clear_starts_anew (.hashed 1 (.ofCode String.length))
    (.hashed (.ofCode String.length))).2
      [.setUp (.ofList [.ofLocal "europe", .ofRemote "asia"]), .setLocalNode ⟨"a", ⟨"host", 1⟩⟩,
        .addRoute "asia" ⟨"b", ⟨"host", 2⟩⟩] [.addRoute "asia" ⟨"c", ⟨"host", 3⟩⟩]
  exact ⟨by decide +kernel, (hs.changes _).trans (by decide +kernel),
    (hs.lookups _).trans (by decide +kernel), hs.broadcast.trans (by decide +kernel)⟩

end Router

end Federation
