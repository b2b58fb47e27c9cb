import Federation.Placement.Ring

/-!
Which node of a cluster serves which data.

* `HashedNodes`: each cluster has a ring of its own, and lookups are hashed. A cluster gets its ring
  with its first node.
* `CustomNodes`: a strategy answers lookups with addresses. The nodes are registered by cluster and
  address besides being kept by name, and each of the two distinguishes the nodes of a cluster.
* `NodePlacement`: one of the two.
-/

namespace Federation

open Std

/-! ### By hashing -/

/-- A ring of `max` slots for every cluster that ever got a node. -/
structure HashedNodes where
  max : Nat
  hash : HashFunction
  rings : Keyed Ring.cluster

namespace HashedNodes

/-- No rings yet. -/
def ofLimit (max : Nat) (hash : HashFunction) : HashedNodes := ⟨max, hash, ∅⟩

/-- The ring of a cluster, if it has one. -/
def ring? (p : HashedNodes) (cluster : String) : Option Ring := p.rings.find? cluster

/-- Adds a node to the ring of the cluster, which is made if there is none. -/
def add (p : HashedNodes) (cluster : String) (n : Node) : Except Fault HashedNodes :=
  (((p.ring? cluster).getD (.empty cluster p.max p.hash)).add n).map fun r =>
    { p with rings := p.rings.insert r }

/-- Removes a node from the ring of the cluster. -/
def remove (p : HashedNodes) (cluster : String) (n : Node) : Except Fault HashedNodes :=
  match p.ring? cluster with
  | none => .error (.unknownNode cluster n.name)
  | some r => (r.remove n).map fun r => { p with rings := p.rings.insert r }

/-- The nodes of a cluster. -/
def nodesOf (p : HashedNodes) (cluster : String) : NodeSet :=
  (p.ring? cluster).elim ∅ Ring.nodes

/-- The node of a cluster that serves the lookup. -/
def nodeFor (p : HashedNodes) (cluster : String) (l : Lookup) : Option Node :=
  (p.ring? cluster).bind fun r => r.nodeFor l

/-- Empties every ring. -/
def clear (p : HashedNodes) : HashedNodes :=
  { p with rings := p.rings.map Ring.clear Ring.cluster_clear }

end HashedNodes

/-! ### By a strategy -/

/-- Answers a lookup in a cluster with the address of the node that serves it. -/
abbrev NodeStrategy := String → Lookup → Option Address

/-- The place of a node in the registry: its cluster and its address. -/
structure Site where
  cluster : String
  address : Address
deriving DecidableEq

namespace Site

instance : Ord Site where
  compare := compareLex (compareOn cluster) (compareOn address)

instance : TransOrd Site :=
  inferInstanceAs (TransCmp (compareLex (compareOn cluster) (compareOn address)))

theorem compare_eq_iff {a b : Site} : compare a b = .eq ↔ a = b := by
  change (compare a.cluster b.cluster).then (compare a.address b.address) = .eq ↔ a = b
  rw [Ordering.then_eq_eq, LawfulEqCmp.compare_eq_iff_eq, LawfulEqCmp.compare_eq_iff_eq]
  constructor
  · rintro ⟨hc, ha⟩
    cases a; cases b; simp_all
  · rintro rfl; simp

instance : LawfulEqOrd Site where
  eq_of_compare := compare_eq_iff.1
  compare_self := compare_eq_iff.2 rfl

end Site

/-- Nodes at the addresses that a strategy names. -/
structure CustomNodes where
  strategy : NodeStrategy
  registry : Assoc Site Node
  nodes : Assoc String NodeSet

namespace CustomNodes

/-- No nodes yet. -/
def ofStrategy (strategy : NodeStrategy) : CustomNodes := ⟨strategy, ∅, ∅⟩

/-- The nodes of a cluster. -/
def nodesOf (p : CustomNodes) (cluster : String) : NodeSet := (p.nodes.get? cluster).getD ∅

/-- Adds a node, unless the cluster has one of that name or at that address. -/
def add (p : CustomNodes) (cluster : String) (n : Node) : Except Fault CustomNodes :=
  if (p.nodesOf cluster).contains n.name || p.registry.contains ⟨cluster, n.address⟩ then
    .error (.duplicateNode cluster n.name)
  else
    .ok { p with
      registry := p.registry.insert (⟨cluster, n.address⟩, n)
      nodes := p.nodes.insert (cluster, (p.nodesOf cluster).insert n) }

/-- Removes the node with the name of `n` and frees the address at which it was added. -/
def remove (p : CustomNodes) (cluster : String) (n : Node) : Except Fault CustomNodes :=
  match (p.nodesOf cluster).find? n.name with
  | none => .error (.unknownNode cluster n.name)
  | some stored =>
    .ok { p with
      registry := p.registry.erase ⟨cluster, stored.address⟩
      nodes := p.nodes.insert (cluster, (p.nodesOf cluster).erase n.name) }

/-- The node of the cluster at the address that the strategy answers. -/
def nodeFor (p : CustomNodes) (cluster : String) (l : Lookup) : Option Node :=
  (p.strategy cluster l).bind fun a => p.registry.get? ⟨cluster, a⟩

/-- Removes all nodes of all clusters. -/
def clear (p : CustomNodes) : CustomNodes :=
  { p with registry := ∅, nodes := p.nodes.map (fun e => (e.1, ∅)) fun _ => rfl }

end CustomNodes

/-! ### Either way -/

/-- How the data of a cluster is placed on its nodes. -/
inductive NodePlacement where
  | hashed (p : HashedNodes)
  | custom (p : CustomNodes)

namespace NodePlacement

/-- The largest number of nodes of a cluster, if there is a limit. -/
def limit? : NodePlacement → Option Nat
  | hashed p => some p.max
  | custom _ => none

/-- Adds a node to a cluster. -/
def add (cluster : String) (n : Node) : NodePlacement → Except Fault NodePlacement
  | hashed p => (p.add cluster n).map hashed
  | custom p => (p.add cluster n).map custom

/-- Removes a node from a cluster; its name alone counts. -/
def remove (cluster : String) (n : Node) : NodePlacement → Except Fault NodePlacement
  | hashed p => (p.remove cluster n).map hashed
  | custom p => (p.remove cluster n).map custom

/-- The nodes of a cluster. -/
def nodesOf (cluster : String) : NodePlacement → NodeSet
  | hashed p => p.nodesOf cluster
  | custom p => p.nodesOf cluster

/-- The node of a cluster that serves the lookup. -/
def nodeFor (cluster : String) (l : Lookup) : NodePlacement → Option Node
  | hashed p => p.nodeFor cluster l
  | custom p => p.nodeFor cluster l

/-- Removes all nodes of all clusters. -/
def clear : NodePlacement → NodePlacement
  | hashed p => hashed p.clear
  | custom p => custom p.clear

/-- The ring of a cluster, where nodes are placed by hashing and the cluster has one. -/
def ring? (cluster : String) : NodePlacement → Option Ring
  | hashed p => p.ring? cluster
  | custom _ => none

end NodePlacement

end Federation
