import Federation.Placement.ClusterPlacement
import Federation.Placement.NodePlacement

/-!
Strategies given as tables.

* `answerByRows`: the answer of the first row for the question, which may be that there is none, and
  a default answer where no row is for it.
* `NodeStrategy.ofRows`, `ClusterStrategy.ofRows`: the strategies that answer so.
-/

namespace Federation

/-- The answer in the first row for `k`, and `default` without such a row. -/
def answerByRows {κ α : Type} [DecidableEq κ] (rows : List (κ × Option α)) (default : Option α)
    (k : κ) : Option α :=
  (rows.lookup k).getD default

/-- The strategy that reads its addresses from rows for a cluster and a lookup. -/
def NodeStrategy.ofRows (rows : List ((String × Lookup) × Option Address))
    (default : Option Address) : NodeStrategy :=
  fun cluster l => answerByRows rows default (cluster, l)

/-- The strategy that reads its clusters from rows for a lookup. -/
def ClusterStrategy.ofRows (rows : List (Lookup × Option String)) (default : Option String) :
    ClusterStrategy :=
  answerByRows rows default

end Federation
