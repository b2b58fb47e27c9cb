import Federation.Discovery.Enrolment
import Federation.Fault

/-!
A network in memory.

* `Network`: the views that clusters have published, the addresses that are down, how nodes behave,
  and a journal of what was done to them.
* `Network.viewAt?`: the node at an address answers with the view of a cluster of which it is a
  member, the first such cluster by name. An address of no member answers nothing.
* `Network.connect`, `Network.disconnect`, `Network.membership`: what can be done to a node. A node
  that is down or drops all calls cannot be reached, but it can always be disconnected.
* `Network.connects`, `Network.disconnects`, `Network.requests`: how often that was done, counted by
  the names of nodes, or by their addresses for requests. Only calls that reached the node count.
* `Network.stillConnected`: the names that were connected more often than disconnected.
-/

namespace Federation

/-- How a node behaves: whether it drops all calls, and how long it takes for its answers. -/
structure Conduct where
  drops : Bool
  delayMs : Nat
deriving DecidableEq

namespace Conduct

/-- Answers every call at once. -/
def reliable : Conduct := ⟨false, 0⟩

/-- Answers no call. -/
def unreachable : Conduct := ⟨true, 0⟩

/-- Answers commands after some milliseconds. -/
def delayed (ms : Nat) : Conduct := ⟨false, ms⟩

end Conduct

/-- What was done to a node, and whether it was reached. -/
inductive Contact where
  | connect (h : Handle) (reached : Bool)
  | disconnect (h : Handle)
  | membership (h : Handle) (reached : Bool)
deriving DecidableEq

/-- Clusters of nodes in memory. The nodes at some addresses behave in a way of their own. The
journal tells what was done to nodes, the latest first. -/
structure Network where
  views : Keyed View.cluster
  down : ValueSet Address
  conduct : Conduct
  exceptions : Assoc Address Conduct
  journal : List Contact

namespace Network

/-- No clusters, and nothing done yet. -/
def quiet : Network := ⟨∅, ∅, .reliable, ∅, []⟩

/-! ### Changes from outside -/

/-- Replaces the view of a cluster. -/
def publish (net : Network) (v : View) : Network := { net with views := net.views.insert v }

/-- Takes the node at an address down. -/
def takeDown (net : Network) (a : Address) : Network := { net with down := net.down.insertIfNew a }

/-- Brings the node at an address up. -/
def bringUp (net : Network) (a : Address) : Network := { net with down := net.down.erase a }

/-- Replaces the behaviour of all nodes. -/
def setConduct (net : Network) (conduct : Conduct) (exceptions : Assoc Address Conduct) : Network :=
  { net with conduct, exceptions }

/-! ### Calls -/

/-- How the node at an address behaves. -/
def conductAt (net : Network) (a : Address) : Conduct := (net.exceptions.get? a).getD net.conduct

/-- Whether calls reach the node at an address. -/
def reaches (net : Network) (a : Address) : Bool := !net.down.contains a && !(net.conductAt a).drops

/-- The view that the node at an address answers with. -/
def viewAt? (net : Network) (a : Address) : Option View :=
  net.views.toList.find? fun v => v.serves a

/-- The fault of a node that cannot be reached. -/
def unreachable (n : Node) : Fault :=
  .communication n.name (n.address.render ++ " is unreachable")

/-- Writes down what was done. -/
def record (net : Network) (c : Contact) : Network := { net with journal := c :: net.journal }

/-- Connects a node. -/
def connect (net : Network) (h : Handle) : Except Fault Unit × Network :=
  let reached := net.reaches h.node.address
  (if reached then .ok () else .error (unreachable h.node), net.record (.connect h reached))

/-- Disconnects a node. -/
def disconnect (net : Network) (h : Handle) : Network := net.record (.disconnect h)

/-- How long a node takes to answer a command. -/
def delayOf (net : Network) (h : Handle) : Nat := (net.conductAt h.node.address).delayMs

/-- Asks a node for the view of its cluster. -/
def membership (net : Network) (h : Handle) : Except Fault View × Network :=
  let reached := net.reaches h.node.address
  let answered := match net.viewAt? h.node.address with
    | some v => if reached then .ok v else .error (unreachable h.node)
    | none => .error (unreachable h.node)
  (answered, net.record (.membership h reached))

/-! ### Counts -/

/-- How often nodes of a name were connected. -/
def connects (net : Network) (name : String) : Nat :=
  net.journal.countP fun
    | .connect h true => h.node.name = name
    | _ => false

/-- How often nodes of a name were disconnected. -/
def disconnects (net : Network) (name : String) : Nat :=
  net.journal.countP fun
    | .disconnect h => h.node.name = name
    | _ => false

/-- How often the node at an address was reached with a command. -/
def requests (net : Network) (a : Address) : Nat :=
  net.journal.countP fun
    | .membership h true => h.node.address = a
    | _ => false

/-- The names of all nodes that were ever connected. -/
def connectedNames (net : Network) : ValueSet String :=
  .ofList (net.journal.filterMap fun
    | .connect h true => some h.node.name
    | _ => none)

/-- The names that were connected more often than disconnected, in ascending order. -/
def stillConnected (net : Network) : List String :=
  net.connectedNames.toList.filter fun name => net.disconnects name < net.connects name

end Network

end Federation
