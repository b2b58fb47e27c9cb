import Federation.Discovery.Enrolment
import Federation.Fault
import Federation.Program

/-!
Rounds of discovery.

A round asks a node of a joined cluster for its view and brings the routes in line with it.

* `Query`, `Query.Answer`: the single steps that a round takes outside of itself. Other rounds may
  take theirs between any two of them.
* `Round.askBootstrap`: the view from the bootstrap node, which is connected only as long as that
  takes. A bootstrap node that cannot be reached is a missing route.
* `Round.askInTurn`: the view from the first live node that can be reached. The nodes before it are
  retired; any other failure ends the round.
* `Round.reconcile`: retires the nodes that left and enlists those that joined.
* `Round.once`: one round. Without live nodes it goes through the bootstrap node.
* `Round.update`: one round, after which a view is stored exactly if the round succeeded.
-/

namespace Federation

/-- A step that a round takes outside of itself. Routes and live nodes are removed by name, whether
there is one of that name or not. -/
inductive Query where
  | isClosed
  | enrolment (cluster : String)
  | routes (cluster : String)
  | build (cluster : String) (n : Node)
  | connect (h : Handle)
  | disconnect (h : Handle)
  | delay (h : Handle)
  | membership (h : Handle)
  | route (h : Handle)
  | unroute (h : Handle)
  | track (h : Handle)
  | untrack (h : Handle)
  | store (cluster : String) (v : Option View)

/-- What a step answers. -/
@[reducible] def Query.Answer : Query → Type
  | isClosed => Bool
  | enrolment _ => Option Enrolment
  | routes _ => NodeSet
  | build _ _ => Handle
  | connect _ | route _ => Except Fault Unit
  | delay _ => Nat
  | membership _ => Except Fault View
  | disconnect _ | unroute _ | track _ | untrack _ | store _ _ => Unit

/-- A part of a round, which may fail. -/
abbrev Round := ExceptT Fault (Program Query Query.Answer)

namespace Round

/-- Takes one step. -/
def query (q : Query) : Round q.Answer := ExceptT.lift (.ask q .done)

/-- Waits. -/
def pause (ms : Nat) : Round Unit := ExceptT.lift (.wait ms (.done ()))

/-- The result of a part, which does not fail the round by itself. -/
def result {α : Type} (r : Round α) : Round (Except Fault α) := ExceptT.lift r.run

/-- Fails if `e` is a fault. -/
def require {α : Type} (e : Except Fault α) : Round α := ExceptT.mk (.done e)

/-! ### Asking for a view -/

/-- The text with which the view of another cluster is refused. -/
def wrongCluster (answered expected : String) : String :=
  "answered with a view of cluster " ++ answered ++ " instead of " ++ expected

/-- Accepts only a view of the given cluster from a node. -/
def requireCluster (cluster : String) (h : Handle) (v : View) : Round View :=
  if v.cluster = cluster then return v
  else throw (.processing h.node.name (wrongCluster v.cluster cluster))

/-- The view of the cluster that a node answers. -/
def requestView (cluster : String) (h : Handle) : Round View := do
  pause (← query (.delay h))
  let v ← require (← query (.membership h))
  requireCluster cluster h v

/-- A failed communication with a bootstrap node is a missing route. -/
def bootstrapFault : Fault → Fault
  | .communication _ _ => .missingRoute
  | e => e

/-- The view of the cluster that its bootstrap node answers. -/
def askBootstrap (cluster : String) (h : Handle) : Round View := do
  match ← query (.connect h) with
  | .error _ => throw .missingRoute
  | .ok () =>
    let answered ← result (requestView cluster h)
    query (.disconnect h)
    require (answered.mapError bootstrapFault)

/-- Removes the route to a node, disconnects it and forgets it. -/
def retire (h : Handle) : Round Unit := do
  query (.unroute h)
  query (.disconnect h)
  query (.untrack h)

/-- The view of the cluster that the first reachable node answers. -/
def askInTurn (cluster : String) : List Handle → Round View
  | [] => throw .missingRoute
  | h :: rest => do
    match ← result (requestView cluster h) with
    | .ok v => return v
    | .error (.communication _ _) =>
      retire h
      askInTurn cluster rest
    | .error e => throw e

/-! ### Applying a view -/

/-- Retires the live node of a name, if there is one. -/
def retireNamed (cluster name : String) : Round Unit := do
  match (← query (.enrolment cluster)).bind fun e => e.findTracked? name with
  | some h => retire h
  | none => return

/-- Retires the live nodes whose names no member has. -/
def retireUnlisted (cluster : String) (v : View) : Round Unit := do
  match ← query (.enrolment cluster) with
  | some e =>
    (e.tracked.filter fun h => !v.members.toList.any fun m => m.name = h.node.name).forM retire
  | none => return

/-- Makes a node for a member, routes it and connects it. A live node of the same name gives way. -/
def enlist (cluster : String) (m : Member) : Round Unit := do
  retireNamed cluster m.name
  let h ← query (.build cluster (.ofMember m))
  require (← query (.route h))
  query (.track h)
  require (← query (.connect h))

/-- Brings the routes of a cluster in line with its view. Without a baseline nothing is known of the
live nodes, so those that the view does not name are retired as well. -/
def reconcile (cluster : String) (baseline : Option View) (v : View) : Round Changes := do
  let changes := v.changesSince baseline
  changes.leaving.forM fun m => retireNamed cluster m.name
  if baseline.isNone then retireUnlisted cluster v
  changes.joining.forM (enlist cluster)
  return changes

/-! ### Whole rounds -/

/-- The view of a cluster, from its live nodes or else from its bootstrap node. -/
def askForView (cluster : String) (e : Enrolment) : Round View :=
  if e.tracked.isEmpty then askBootstrap cluster e.bootstrap else askInTurn cluster e.tracked

/-- One round for a joined cluster. -/
def once (cluster : String) : Round Changes := do
  match ← query (.enrolment cluster) with
  | none => throw (.unknownCluster cluster)
  | some e =>
    let routed ← query (.routes cluster)
    let v ← askForView cluster e
    let changes ← reconcile cluster (e.baseline routed) v
    query (.store cluster (some v))
    return changes

/-- One round, unless discovery has come to its end. A failed round discards the stored view, so
that the next one compares with nothing. -/
def update (cluster : String) : Round Changes := do
  if ← query .isClosed then throw .shutDown
  tryCatch (once cluster) fun e => do
    query (.store cluster none)
    throw e

end Round

end Federation
