import Federation.Fault
import Federation.Hashing.Slot
import Federation.Node
import Federation.Placement.Lookup

/-!
The ring of slots over which the nodes of one cluster divide its data.

* `Run`: consecutive slots that one node owns.
* `Run.divide`: nodes share the slots in their order, each of them the same number, and the last one
  also takes what is left over.
* `Ring`: the nodes of a cluster, their runs, and for each slot the node that owns it.
* `Ring.add`, `Ring.remove` and `Ring.clear` change the nodes and lay the ring out anew. A ring with
  as many nodes as slots refuses any further node, whether its name is new or not.
* `Ring.nodeFor`: the owner of the slot to which the lookup is hashed.
-/

namespace Federation

/-- Consecutive slots of a ring that belong to one node. -/
structure Run where
  node : Node
  first : Nat
  length : Nat
deriving DecidableEq

namespace Run

/-- The slots of the run, ascending. -/
def slots (r : Run) : List Nat := List.range' r.first r.length

/-- The runs of the given nodes, where each takes `share` slots from `first` on and the last one all
slots up to `max`. -/
def divideFrom (max share first : Nat) : List Node → List Run
  | [] => []
  | [n] => [⟨n, first, max - first⟩]
  | n :: m :: l => ⟨n, first, share⟩ :: divideFrom max share (first + share) (m :: l)

/-- The runs in which the given nodes divide `max` slots. -/
def divide (max : Nat) (nodes : List Node) : List Run :=
  divideFrom max (max / nodes.length) 0 nodes

/-- The owner of each slot, where the slots are all owned if there is an owner at all. -/
def owners (max : Nat) (runs : List Run) : Array (Option Node) :=
  if runs.isEmpty then Array.replicate max none
  else (runs.flatMap fun r => List.replicate r.length (some r.node)).toArray

end Run

/-- The nodes of a cluster and the slots that each of them owns. There are `max` slots, and so at
most as many nodes. -/
structure Ring where
  cluster : String
  max : Nat
  hash : HashFunction
  nodes : NodeSet
  runs : List Run
  owners : Array (Option Node)

namespace Ring

/-- The ring with the given nodes. -/
def layOut (cluster : String) (max : Nat) (hash : HashFunction) (nodes : NodeSet) : Ring :=
  let runs := Run.divide max nodes.toList
  ⟨cluster, max, hash, nodes, runs, Run.owners max runs⟩

/-- A ring without nodes. -/
def empty (cluster : String) (max : Nat) (hash : HashFunction) : Ring := layOut cluster max hash ∅

/-- The same ring with other nodes. -/
def withNodes (r : Ring) (nodes : NodeSet) : Ring := layOut r.cluster r.max r.hash nodes

/-- Adds a node, unless the ring is full or has a node of that name. -/
def add (r : Ring) (n : Node) : Except Fault Ring :=
  if r.nodes.size = r.max then .error (.partitionsExhausted r.max)
  else if r.nodes.contains n.name then .error (.duplicateNode r.cluster n.name)
  else .ok (r.withNodes (r.nodes.insert n))

/-- Removes the node with the name of `n`. -/
def remove (r : Ring) (n : Node) : Except Fault Ring :=
  if r.nodes.contains n.name then .ok (r.withNodes (r.nodes.erase n.name))
  else .error (.unknownNode r.cluster n.name)

/-- Removes all nodes. -/
def clear (r : Ring) : Ring := r.withNodes ∅

theorem cluster_clear (r : Ring) : r.clear.cluster = r.cluster := rfl

/-- The slots of the node with the name of `n`, ascending. -/
def slotsOf (r : Ring) (n : Node) : List Nat :=
  match r.runs.find? fun run => run.node.name = n.name with
  | none => []
  | some run => run.slots

/-- The node that owns the slot of the lookup. -/
def nodeFor (r : Ring) (l : Lookup) : Option Node :=
  (r.owners[r.hash.slot l.text r.max]?).join

end Ring

end Federation
