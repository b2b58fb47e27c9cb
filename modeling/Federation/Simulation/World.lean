import Federation.Discovery.Round
import Federation.Routing.Recorded
import Federation.Seed
import Federation.Config.Basic
import Federation.Simulation.Network

/-!
A process that discovers clusters over a network.

* `World`: the configuration of the process, what it knows of the clusters that it has joined, its
  routes, and the network around it.
* `World.answer`: takes a step of a round. A round knows its cluster by name, and gives it to the
  router as the remote cluster of that name.
* `World.join`: joins a cluster, or replaces the bootstrap node of a joined one. A refused join
  leaves the world as it was, and the first reason for a refusal wins: discovery is over, the
  cluster is the local one, the seed is no address.
* `World.shutDown`: discovery forgets all clusters and disconnects their live nodes. It is over
  then.
-/

namespace Federation

/-- A process and the network around it. -/
structure World where
  config : Config
  closed : Bool
  enrolments : Enrolments
  router : RecordedRouter
  network : Network

namespace World

/-- A process that has joined no cluster yet. -/
def idle (config : Config) (router : RecordedRouter) : World :=
  ⟨config, false, ∅, router, .quiet⟩

/-! ### What is known -/

/-- The names of the joined clusters. -/
def joined (w : World) : List String := w.enrolments.keys

/-- The view of a cluster that was reconciled last. -/
def viewOf (w : World) (cluster : String) : Option View :=
  (w.enrolments.find? cluster).bind Enrolment.view

/-- The live nodes of a cluster, in the order in which rounds try them. -/
def trackedOf (w : World) (cluster : String) : List Handle :=
  ((w.enrolments.find? cluster).map Enrolment.tracked).getD []

/-! ### Steps of rounds -/

/-- Makes a handle for a node of a joined cluster. -/
def build (w : World) (cluster : String) (n : Node) : Handle × World :=
  match w.enrolments.find? cluster with
  | some e =>
    (e.nextHandle n,
      { w with enrolments := w.enrolments.modify cluster Enrolment.countHandle fun _ => rfl })
  | none => (⟨cluster, 0, n⟩, w)

/-- Adds the route to a node of a joined cluster, unless the router refuses it. -/
def route (w : World) (h : Handle) : Except Fault Unit × World :=
  match w.router.addRoute (.ofRemote h.cluster) h.node with
  | .ok r => (.ok (), { w with router := r })
  | .error e => (.error e, w)

/-- Removes the route to the node of that name, if there is one. -/
def unroute (w : World) (h : Handle) : World :=
  match w.router.removeRoute (.ofRemote h.cluster) h.node with
  | .ok r => { w with router := r }
  | .error _ => w

/-- Takes a step of a round. -/
def answer : (q : Query) → World → q.Answer × World
  | .isClosed, w => (w.closed, w)
  | .enrolment c, w => (w.enrolments.find? c, w)
  | .routes c, w => (w.router.router.clusterRoute (.ofRemote c), w)
  | .build c n, w => w.build c n
  | .connect h, w =>
    let (reached, net) := w.network.connect h
    (reached, { w with network := net })
  | .disconnect h, w => ((), { w with network := w.network.disconnect h })
  | .delay h, w => (w.network.delayOf h, w)
  | .membership h, w =>
    let (answered, net) := w.network.membership h
    (answered, { w with network := net })
  | .route h, w => w.route h
  | .unroute h, w => ((), w.unroute h)
  | .track h, w =>
    ((), { w with enrolments := w.enrolments.modify h.cluster (fun e => e.track h) fun _ => rfl })
  | .untrack h, w =>
    ((), { w with
      enrolments := w.enrolments.modify h.cluster (fun e => e.untrack h.node.name) fun _ => rfl })
  | .store c v, w =>
    ((), { w with enrolments := w.enrolments.modify c (fun e => e.store v) fun _ => rfl })

/-- One round for a cluster from beginning to end, with nothing else going on. The result comes with
the milliseconds that it took. -/
def update (w : World) (cluster : String) : Except Fault Changes × Nat × World :=
  (Round.update cluster).run.run answer w

/-! ### Joining and shutting down -/

/-- Why a cluster cannot be joined through a seed, or else the address of the seed. -/
def seedAddress (w : World) (cluster : Cluster) (seed : String) : Except Fault Address :=
  if w.closed then .error .shutDown
  else if cluster.isLocal || cluster.name == w.config.localCluster then
    .error (.localJoin cluster.name)
  else Address.ofSeed seed

/-- Notes that a cluster is reached through a bootstrap node. -/
def enrol (w : World) (cluster : String) (bootstrap : Node) : World :=
  if w.enrolments.contains cluster then
    { w with
      enrolments := w.enrolments.modify cluster (fun e => e.rebootstrap bootstrap) fun _ => rfl }
  else { w with enrolments := w.enrolments.insert (.fresh cluster bootstrap) }

/-- Joins a cluster through the node at the address of a seed. The bootstrap node is named by the
text of the seed. -/
def join (w : World) (cluster : Cluster) (seed : String) : Except Fault World :=
  (w.seedAddress cluster seed).map fun address =>
    let registered := { w with router := w.router.setUp (.ofList [.ofRemote cluster.name]) }
    registered.enrol cluster.name ⟨seed, address⟩

/-- Registers the configured clusters. -/
def setUp (w : World) : World := { w with router := w.router.setUp w.config.clusterSet }

/-- Disconnects every live node and forgets all clusters. -/
def shutDown (w : World) : World :=
  let live := w.enrolments.toList.flatMap Enrolment.tracked
  { w with closed := true, enrolments := ∅, network := live.foldl Network.disconnect w.network }

end World

end Federation
