import Federation.Routing.Batch

/-!
Routes with a record of their changes.

* `RouteEvent`: a node was added to or removed from a cluster. The event keeps the cluster as it was
  passed, but like clusters events are told apart without its flag.
* `RecordedRouter`: a router and the events since they were last taken, oldest first. A change that
  the router refuses leaves no event, and neither does one that is no change of a single route.
* `RecordedRouter.takeEvents`: the events so far, which are then forgotten.
-/

namespace Federation

/-- A change of one route. -/
inductive RouteEvent where
  | added (cluster : Cluster) (node : String)
  | removed (cluster : Cluster) (node : String)
deriving DecidableEq

namespace RouteEvent

/-- The name of the cluster that an event is about. -/
def cluster : RouteEvent → String
  | added c _ | removed c _ => c.name

/-- Events of one kind are equal if they name the same cluster and the same node. -/
instance : BEq RouteEvent where
  beq
    | added c n, added d m | removed c n, removed d m => c.name == d.name && n == m
    | _, _ => false

end RouteEvent

/-- A router and what was changed by it. -/
structure RecordedRouter where
  router : Router
  events : List RouteEvent

namespace RecordedRouter

/-- A router without events. -/
def ofRouter (r : Router) : RecordedRouter := ⟨r, []⟩

/-- Registers clusters. -/
def setUp (r : RecordedRouter) (clusters : ClusterSet) : RecordedRouter :=
  { r with router := r.router.setUp clusters }

/-- Routes to the node of this process. -/
def setLocalNode (r : RecordedRouter) (n : Node) : RecordedRouter :=
  { r with router := r.router.setLocalNode n }

/-- Adds a node to a cluster, and an event if it was added. -/
def addRoute (r : RecordedRouter) (cluster : Cluster) (n : Node) :
    Except Fault RecordedRouter :=
  (r.router.addRoute cluster.name n).map fun router =>
    ⟨router, r.events ++ [.added cluster n.name]⟩

/-- Removes a node from a cluster, and adds an event if it was removed. -/
def removeRoute (r : RecordedRouter) (cluster : Cluster) (n : Node) :
    Except Fault RecordedRouter :=
  (r.router.removeRoute cluster.name n).map fun router =>
    ⟨router, r.events ++ [.removed cluster n.name]⟩

/-- Removes the nodes of all clusters, without an event. -/
def clear (r : RecordedRouter) : RecordedRouter := { r with router := r.router.clear }

/-- The events that were not taken yet, and the router without them. -/
def takeEvents (r : RecordedRouter) : List RouteEvent × RecordedRouter :=
  (r.events, { r with events := [] })

end RecordedRouter

end Federation
