import Federation.Node

/-!
What discovery knows of the clusters that it has joined.

* `Handle`: a node of a cluster as discovery built it. Two handles of one cluster differ in their
  serial numbers, even if they are for the same node, because each has its own connection.
* `Enrolment`: a joined cluster with its bootstrap node, the tracked nodes in the order in which
  rounds try them, and the view that was reconciled last.
* `Enrolment.build` makes a handle with a new serial number.
* `Enrolment.track`, `Enrolment.untrack`, `Enrolment.findTracked?`: tracked nodes go by their names.
* `Enrolments`: the joined clusters by name.
-/

namespace Federation

/-- A node as discovery built it. The serial number is the number of handles that were built for the
cluster before. -/
structure Handle where
  cluster : String
  serial : Nat
  node : Node
deriving DecidableEq

/-- A joined cluster. Its bootstrap node is never routed, and after a failed round it has no view.
-/
structure Enrolment where
  cluster : String
  bootstrap : Handle
  tracked : List Handle
  view : Option View
  built : Nat
deriving DecidableEq

namespace Enrolment

/-- A cluster without live nodes that is reached through `bootstrap`. -/
def fresh (cluster : String) (bootstrap : Node) : Enrolment :=
  ⟨cluster, ⟨cluster, 0, bootstrap⟩, [], none, 1⟩

/-- The next handle, for the node `n`. -/
def nextHandle (e : Enrolment) (n : Node) : Handle := ⟨e.cluster, e.built, n⟩

/-- Counts one more handle. -/
def countHandle (e : Enrolment) : Enrolment := { e with built := e.built + 1 }

/-- Reaches the cluster through `bootstrap` from now on. -/
def rebootstrap (e : Enrolment) (bootstrap : Node) : Enrolment :=
  { e.countHandle with bootstrap := e.nextHandle bootstrap }

/-- Adds a live node after all others. -/
def track (e : Enrolment) (h : Handle) : Enrolment := { e with tracked := e.tracked ++ [h] }

/-- Forgets the live nodes of a name. -/
def untrack (e : Enrolment) (name : String) : Enrolment :=
  { e with tracked := e.tracked.filter fun h => h.node.name ≠ name }

/-- The first live node of a name. -/
def findTracked? (e : Enrolment) (name : String) : Option Handle :=
  e.tracked.find? fun h => h.node.name = name

/-- Replaces the view. -/
def store (e : Enrolment) (v : Option View) : Enrolment := { e with view := v }

/-- The view against which the next one is compared. There is none if a live node has lost its
route, because then the routes do not agree with the view any more. -/
def baseline (e : Enrolment) (routed : NodeSet) : Option View :=
  if e.tracked.all fun h => routed.contains h.node.name then e.view else none

end Enrolment

/-- Joined clusters in the order of their names. -/
abbrev Enrolments := Keyed Enrolment.cluster

namespace Enrolments

/-- Changes one joined cluster by a function that keeps its name. -/
def modify (s : Enrolments) (cluster : String) (f : Enrolment → Enrolment)
    (hf : ∀ e, (f e).cluster = e.cluster) : Enrolments :=
  s.map (fun e => if e.cluster = cluster then f e else e) fun e => by
    split
    · exact hf e
    · rfl

end Enrolments

end Federation
