import Federation.Fault
import Federation.Node

/-!
Nodes that only have an identity.

* `Node.connectStatic`, `Node.askStatic`: a static node can always be connected, and it refuses the
  command for its membership. This is enough where only names and addresses matter.
-/

namespace Federation

namespace Node

/-- Connecting a static node succeeds. -/
def connectStatic (_ : Node) : Except Fault Unit := .ok ()

/-- A static node refuses to tell its membership. -/
def askStatic (n : Node) : Except Fault View :=
  .error (.processing n.name "static node cannot process Membership")

end Node

end Federation
