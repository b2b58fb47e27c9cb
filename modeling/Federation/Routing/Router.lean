import Federation.Placement.ClusterPlacement
import Federation.Placement.NodePlacement

/-!
Routes to the nodes of all clusters.

* `Router`: the registered clusters, how data is placed on clusters and on their nodes, and the node
  of this process.
* `Router.setUp` registers clusters and keeps those registered before, with their flags.
* `Router.addRoute`, `Router.removeRoute`: refused for a cluster that is not registered before
  anything else is looked at.
* `Router.nodeFor`: the route of a lookup. Whatever the placements answer, the only failure that
  comes out is a missing route.
* `Router.clusterRoute`, `Router.broadcast`: the nodes of a cluster, to which the node of this
  process belongs in the local cluster.
-/

namespace Federation

/-- The topology of the federation, as this process routes by it. -/
structure Router where
  clusters : ClusterSet
  nodes : NodePlacement
  placement : ClusterPlacement
  localNode : Option Node

namespace Router

/-- A router without clusters and nodes. -/
def ofPlacements (nodes : NodePlacement) (placement : ClusterPlacement) : Router :=
  ⟨∅, nodes, placement, none⟩

/-- The largest number of nodes of a cluster, if there is a limit. -/
def limit? (r : Router) : Option Nat := r.nodes.limit?

/-! ### Changes of the topology -/

/-- Registers the clusters whose names are new, and places data on all registered ones. -/
def setUp (r : Router) (clusters : ClusterSet) : Router :=
  let all := r.clusters.union clusters
  { r with clusters := all, placement := r.placement.setUp all }

/-- Routes to `n` as the node of this process. -/
def setLocalNode (r : Router) (n : Node) : Router := { r with localNode := some n }

/-- Refuses the name of a cluster that is not registered. -/
def requireCluster (r : Router) (cluster : String) : Except Fault Unit :=
  if r.clusters.contains cluster then .ok () else .error (.unknownCluster cluster)

/-- Adds a node to a registered cluster. -/
def addRoute (r : Router) (cluster : String) (n : Node) : Except Fault Router := do
  r.requireCluster cluster
  return { r with nodes := ← r.nodes.add cluster n }

/-- Removes the node with the name of `n` from a registered cluster. -/
def removeRoute (r : Router) (cluster : String) (n : Node) : Except Fault Router := do
  r.requireCluster cluster
  return { r with nodes := ← r.nodes.remove cluster n }

/-- Removes the nodes of all clusters. Clusters and the node of this process stay. -/
def clear (r : Router) : Router := { r with nodes := r.nodes.clear }

/-! ### Lookups -/

/-- The node of this process, if it is known. -/
def localRoute (r : Router) : Except Fault Node :=
  match r.localNode with
  | some n => .ok n
  | none => .error .missingRoute

/-- The node that serves the lookup. -/
def nodeFor (r : Router) (l : Lookup) : Except Fault Node :=
  match r.placement.clusterFor l with
  | .ok (some c) =>
    match r.nodes.nodeFor c.name l with
    | some n => .ok n
    | none => .error .missingRoute
  | .ok none | .error _ => .error .missingRoute

/-- The nodes of a cluster. Of a cluster that is not registered the argument itself says whether it
is the local one. -/
def clusterRoute (r : Router) (cluster : Cluster) : NodeSet :=
  let registered := (r.clusters.find? cluster.name).getD cluster
  let routed := r.nodes.nodesOf cluster.name
  match r.localNode with
  | some n => if registered.isLocal then routed.insertIfNew n else routed
  | none => routed

/-- The nodes of every registered cluster. -/
def broadcast (r : Router) : List (Cluster × NodeSet) :=
  r.clusters.toList.map fun c => (c, r.clusterRoute c)

end Router

end Federation
