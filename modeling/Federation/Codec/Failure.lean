import Federation.Codec.Basic
import Federation.Decimal.Shortest
import Federation.Pace.Duration

/-!
Settings for unreliable nodes as JSON.

* `Failure`: how likely a call is to fail, and the shortest and the longest delay of answers.
* `FailureMap`: the settings for all nodes. Settings for single nodes have addresses as keys, which
  a JSON object cannot have, so the object for them is empty in every text.

A probability is written with the fewest digits that denote it, and a whole number is read as one.
The nanoseconds of a span may make up seconds when it is read.
-/

namespace Federation

/-- How unreliable a node is: how likely a call fails, and the shortest and the longest delay of an
answer. -/
structure Failure where
  dropProbability : Float
  delay? : Option (Duration × Duration)

/-- How unreliable nodes are. -/
structure FailureMap where
  clusterWide : Failure

instance : Codec Float where
  encode x := .decimal (.ofFloat x)
  decode?
    | .int n => some (.ofInt n)
    | .decimal d => some d.toFloat
    | _ => none

instance : Codec Duration where
  encode d := .obj [("secs", encode d.secs), ("nanos", encode d.nanos)]
  decode? j := do
    let secs ← Codec.required j "secs"
    let nanos : Nat ← Codec.required j "nanos"
    if nanos < UInt32.size then Duration.ofParts? secs nanos else none

instance : Codec (Duration × Duration) where
  encode d := .arr [encode d.1, encode d.2]
  decode?
    | .arr [a, b] => do return (← decode? a, ← decode? b)
    | _ => none

instance : Codec Failure where
  encode f := .obj [("drop_prob", encode f.dropProbability),
    ("delay", match f.delay? with | none => .null | some d => encode d)]
  decode? j := do
    return ⟨← Codec.required j "drop_prob", ← Codec.optional j "delay"⟩

instance : Codec FailureMap where
  encode f := .obj [("cluster_wide", encode f.clusterWide), ("node_wide", .obj [])]
  decode? j :=
    match j.field? "node_wide" with
    | some (.obj []) => (Codec.required j "cluster_wide").map FailureMap.mk
    | _ => none

end Federation
