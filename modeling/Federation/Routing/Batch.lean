import Federation.Routing.Router

/-!
Routes for many keys at once.

* `KeyGroup`: a node and the keys of a bucket that it serves.
* `Router.resolveKeys`: the node of each key, or a missing route if any key has none.
* `Router.resolveKeysInParts`: the same, with the keys cut into parts that are resolved side by
  side. Batches of at least `Router.wideBatch` keys are resolved so.
* `Router.groupKeys`: the keys grouped by the names of their nodes. Of nodes with one name the group
  shows the one that the first of its keys led to.
-/

namespace Federation

/-- Keys that one node serves. -/
structure KeyGroup where
  node : Node
  keys : ValueSet String
deriving DecidableEq

/-- Groups by the names of their nodes. -/
abbrev KeyGroups := Keyed fun g : KeyGroup => g.node.name

namespace KeyGroups

/-- Puts a key into the group of its node, which is made if there is none. -/
def add (groups : KeyGroups) (n : Node) (key : String) : KeyGroups :=
  let group := (groups.find? n.name).getD ⟨n, ∅⟩
  groups.insert { group with keys := group.keys.insertIfNew key }

/-- Groups keys by the names of the nodes they come with. -/
def ofResolved (resolved : List (Node × String)) : KeyGroups :=
  resolved.foldl (fun groups e => groups.add e.1 e.2) ∅

end KeyGroups

namespace Router

/-- The least number of keys that are resolved side by side. -/
def wideBatch : Nat := 256

/-- The number of keys that follow the first one in each part of a wide batch. -/
def batchTail : Nat := 127

/-- The key with the node that serves it. -/
def resolveKey (r : Router) (bucket key : String) : Except Fault (Node × String) :=
  (r.nodeFor (.ofKey bucket key)).map fun n => (n, key)

/-- The keys with their nodes, resolved one after the other. -/
def resolveKeys (r : Router) (bucket : String) : List String → Except Fault (List (Node × String))
  | [] => .ok []
  | key :: keys =>
    match r.resolveKey bucket key with
    | .error e => .error e
    | .ok n => (r.resolveKeys bucket keys).map (n :: ·)

/-- Cuts a list into parts of `n + 1` items, the last one with what is left over. -/
def partsOf {α : Type} (n : Nat) : List α → List (List α)
  | [] => []
  | a :: l => (a :: l.take n) :: partsOf n (l.drop n)
termination_by l => l.length
decreasing_by simp only [List.length_drop, List.length_cons]; omega

/-- The results of all parts in their order, or the first fault among them. -/
def joinParts {α : Type} : List (Except Fault (List α)) → Except Fault (List α)
  | [] => .ok []
  | .error e :: _ => .error e
  | .ok l :: rest => (joinParts rest).map (l ++ ·)

/-- The keys with their nodes, resolved in parts that run side by side. -/
def resolveKeysInParts (r : Router) (bucket : String) (keys : List String) :
    Except Fault (List (Node × String)) :=
  let running := (partsOf batchTail keys).map fun part =>
    Task.spawn fun _ => r.resolveKeys bucket part
  joinParts (running.map Task.get)

/-- The keys of a bucket grouped by the nodes that serve them, if every key has a route. -/
def groupKeys (r : Router) (bucket : String) (keys : List String) : Except Fault KeyGroups :=
  (if wideBatch ≤ keys.length then r.resolveKeysInParts bucket keys
    else r.resolveKeys bucket keys).map KeyGroups.ofResolved

end Router

end Federation
