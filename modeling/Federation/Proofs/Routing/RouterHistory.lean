import Federation.Routing.Recorded
import Federation.Proofs.Placement.NodesOf
import Federation.Proofs.Refusal

/-!
Routers in the course of changes.

* `Router.setUp_setUp`: the same clusters are registered once.
* `Router.addRoute_eq`, `Router.removeRoute_eq`: a change of a route is one of the placement of the
  nodes, if the cluster is registered. `Router.addRoute_eq_ok_iff`, `Router.removeRoute_eq_ok_iff`:
  when it is not refused, and what it does then.
* `RouterCall`, `Router.call`, `Router.after`: a change asked of a router, its answer with the
  router after it, and the router after a history of changes.
-/

namespace Federation

lemma ClusterPlacement.setUp_setUp (p : ClusterPlacement) (clusters clusters' : ClusterSet) :
    (p.setUp clusters).setUp clusters' = p.setUp clusters' := by
  cases p <;> rfl

/-- A change asked of a router. -/
inductive RouterCall where
  | setUp (clusters : ClusterSet)
  | setLocalNode (n : Node)
  | addRoute (cluster : Cluster) (n : Node)
  | removeRoute (cluster : Cluster) (n : Node)
  | clear

namespace Router

variable {r r' : Router} {cluster : String} {n : Node}

/-- The answer to a change, and the router after it. -/
def call (r : Router) : RouterCall → Except Fault Unit × Router
  | .setUp clusters => (.ok (), r.setUp clusters)
  | .setLocalNode n => (.ok (), r.setLocalNode n)
  | .addRoute cluster n => settle r (r.addRoute cluster.name n)
  | .removeRoute cluster n => settle r (r.removeRoute cluster.name n)
  | .clear => (.ok (), r.clear)

/-- The router after a history of changes, the first one first. -/
def after (r : Router) (calls : List RouterCall) : Router := calls.foldl (fun r c => (r.call c).2) r

@[simp] lemma after_concat (r : Router) (calls : List RouterCall) (c : RouterCall) :
    r.after (calls ++ [c]) = ((r.after calls).call c).2 := by
  simp [after]

/-- Clusters that were registered are not registered again. -/
lemma setUp_setUp (r : Router) (clusters : ClusterSet) :
    (r.setUp clusters).setUp clusters = r.setUp clusters := by
  rw [setUp, setUp]
  dsimp only
  rw [Keyed.union_union, ClusterPlacement.setUp_setUp]

/-- A refused cluster comes before a refused node. -/
lemma addRoute_eq (r : Router) (cluster : String) (n : Node) : r.addRoute cluster n =
    if r.clusters.contains cluster then
      (r.nodes.add cluster n).map fun p => { r with nodes := p }
    else .error (.unknownCluster cluster) := by
  rw [addRoute, requireCluster]
  split
  next => cases r.nodes.add cluster n <;> rfl
  next => rfl

lemma removeRoute_eq (r : Router) (cluster : String) (n : Node) : r.removeRoute cluster n =
    if r.clusters.contains cluster then
      (r.nodes.remove cluster n).map fun p => { r with nodes := p }
    else .error (.unknownCluster cluster) := by
  rw [removeRoute, requireCluster]
  split
  next => cases r.nodes.remove cluster n <;> rfl
  next => rfl

lemma addRoute_eq_ok_iff : r.addRoute cluster n = .ok r' ↔ r.clusters.contains cluster = true ∧
    ∃ p, r.nodes.add cluster n = .ok p ∧ r' = { r with nodes := p } := by
  rw [addRoute, requireCluster]
  split
  next h =>
    cases r.nodes.add cluster n <;> simp [bind, pure, Except.bind, Except.pure, h, eq_comm]
  next h => simp [bind, Except.bind, h]

lemma removeRoute_eq_ok_iff : r.removeRoute cluster n = .ok r' ↔
    r.clusters.contains cluster = true ∧
      ∃ p, r.nodes.remove cluster n = .ok p ∧ r' = { r with nodes := p } := by
  rw [removeRoute, requireCluster]
  split
  next h =>
    cases r.nodes.remove cluster n <;> simp [bind, pure, Except.bind, Except.pure, h, eq_comm]
  next h => simp [bind, Except.bind, h]

/-- A call for a route of one cluster changes nothing about the others. -/
lemma call_addRoute_keeps (r : Router) (c : Cluster) (n : Node) (d : String) :
    (r.call (.addRoute c n)).2.clusters = r.clusters ∧
      (c.name ≠ d → (r.call (.addRoute c n)).2.nodes.nodesOf d = r.nodes.nodesOf d) := by
  refine settle_induction (P := fun r' : Router => r'.clusters = r.clusters ∧
    (c.name ≠ d → r'.nodes.nodesOf d = r.nodes.nodesOf d)) ⟨rfl, fun _ => rfl⟩ fun r' hr' => ?_
  obtain ⟨-, p, hp, rfl⟩ := addRoute_eq_ok_iff.mp hr'
  exact ⟨rfl, fun hd => (NodePlacement.nodesOf_add hp d).trans (if_neg hd.symm)⟩

lemma call_removeRoute_keeps (r : Router) (c : Cluster) (n : Node) (d : String) :
    (r.call (.removeRoute c n)).2.clusters = r.clusters ∧
      (c.name ≠ d → (r.call (.removeRoute c n)).2.nodes.nodesOf d = r.nodes.nodesOf d) := by
  refine settle_induction (P := fun r' : Router => r'.clusters = r.clusters ∧
    (c.name ≠ d → r'.nodes.nodesOf d = r.nodes.nodesOf d)) ⟨rfl, fun _ => rfl⟩ fun r' hr' => ?_
  obtain ⟨-, p, hp, rfl⟩ := removeRoute_eq_ok_iff.mp hr'
  exact ⟨rfl, fun hd => (NodePlacement.nodesOf_remove hp d).trans (if_neg hd.symm)⟩

end Router

/-- The answer to a change, and the router with its record after it. -/
def RecordedRouter.call (r : RecordedRouter) : RouterCall → Except Fault Unit × RecordedRouter
  | .setUp clusters => (.ok (), r.setUp clusters)
  | .setLocalNode n => (.ok (), r.setLocalNode n)
  | .addRoute cluster n => settle r (r.addRoute cluster n)
  | .removeRoute cluster n => settle r (r.removeRoute cluster n)
  | .clear => (.ok (), r.clear)

/-- The record has no influence on the router. -/
lemma RecordedRouter.router_call (r : RecordedRouter) (c : RouterCall) :
    (r.call c).2.router = (r.router.call c).2 := by
  cases c with
  | setUp clusters => rfl
  | setLocalNode n => rfl
  | addRoute cluster n =>
      rw [call, Router.call, addRoute]
      cases r.router.addRoute cluster.name n <;> rfl
  | removeRoute cluster n =>
      rw [call, Router.call, removeRoute]
      cases r.router.removeRoute cluster.name n <;> rfl
  | clear => rfl

end Federation
