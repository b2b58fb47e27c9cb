import Federation.Codec.Basic
import Federation.Config.Basic

/-!
Configurations as JSON.

The mode is told by its field `type`, beside which the settings of the adaptive mode stand. Without
seeds there are none, and without a mode it is the fixed one.
-/

namespace Federation

instance : Codec Adaptation where
  encode a := .obj [("baseline_ms", encode a.baselineMs),
    ("moving_boundary_ms", encode a.movingBoundaryMs), ("upper_limit_ms", encode a.upperLimitMs)]
  decode? j := do
    return ⟨← Codec.required j "baseline_ms", ← Codec.required j "moving_boundary_ms",
      ← Codec.required j "upper_limit_ms"⟩

instance : Codec Mode where
  encode
    | .fixed => .obj [("type", .str "fixed")]
    | .adaptive a => .obj [("type", .str "adaptive"), ("baseline_ms", encode a.baselineMs),
        ("moving_boundary_ms", encode a.movingBoundaryMs),
        ("upper_limit_ms", encode a.upperLimitMs)]
  decode? j :=
    match j.field? "type" with
    | some (.str "fixed") => some .fixed
    | some (.str "adaptive") => (decode? j).map .adaptive
    | _ => none

instance : Codec Config where
  encode c := .obj [("local_cluster", encode c.localCluster),
    ("discovery_interval_ms", encode c.intervalMs), ("clusters", encode c.clusters),
    ("seeds", encode c.seeds), ("discovery", encode c.mode)]
  decode? j := do
    return ⟨← Codec.required j "local_cluster", ← Codec.required j "discovery_interval_ms",
      ← Codec.required j "clusters", ← Codec.fieldOr j "seeds" ∅,
      ← Codec.fieldOr j "discovery" .fixed⟩

end Federation
