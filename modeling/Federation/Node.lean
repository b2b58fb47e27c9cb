import Federation.Membership.View
import Federation.Text.Quoted

/-!
Nodes, as the routes hold them.

* `Node`: a name and an address. The name alone tells the nodes of a cluster apart and orders them,
  so a set of nodes keeps one address for each name.
* `NodeSet`: nodes by name.
-/

namespace Federation

/-- A process that serves data of its cluster. -/
structure Node where
  name : String
  address : Address
deriving DecidableEq

/-- Nodes in the order of their names. -/
abbrev NodeSet := Keyed Node.name

namespace Node

/-- The node that a member of a view stands for. -/
def ofMember (m : Member) : Node := ⟨m.name, m.address⟩

/-- The text of a node with all its fields, for messages. -/
def describe (n : Node) : String :=
  "NodeRef \x7b name: " ++ Text.quote n.name ++ ", host: " ++ Text.quote n.address.host ++
    ", port: " ++ toString n.address.port.toNat ++ " \x7d"

end Node

end Federation
