import Mathlib.Tactic
import Federation.Codec.Config
import Federation.Codec.Membership
import Federation.Proofs.Codec.Faithful

/-!
Configurations, clusters, addresses, members and views, read as they are written.

* `Adaptation.decode?_of_fields`: the settings of the adaptive mode are read from every object that
  has their fields, so also from the one that tells the mode beside them.
* `Codec.texts_roundTrip`: values of all these types are read from their texts, and a text that can
  be read is rewritten into one that stays as it is.
-/

namespace Federation

open Codec

/-- The settings are read from every object that has their fields. -/
lemma Adaptation.decode?_of_fields {j : Json} {a : Adaptation}
    (hbaseline : j.field? "baseline_ms" = some (encode a.baselineMs))
    (hboundary : j.field? "moving_boundary_ms" = some (encode a.movingBoundaryMs))
    (hlimit : j.field? "upper_limit_ms" = some (encode a.upperLimitMs)) : decode? j = some a := by
  simp only [decode?]
  rw [required_eq_some hbaseline, required_eq_some hboundary, required_eq_some hlimit]
  rfl

instance : Faithful Adaptation where
  decode?_encode a := by apply Adaptation.decode?_of_fields <;> simp [encode]
  whole_encode a := .obj (by simp [whole_encode])

instance : Faithful Mode where
  decode?_encode
    | .fixed => rfl
    | .adaptive a => by
        change (decode? (encode (Mode.adaptive a))).map Mode.adaptive = some (.adaptive a)
        rw [Adaptation.decode?_of_fields (a := a)]
        all_goals simp [encode]
  whole_encode
    | .fixed => .obj (by simp [Json.Whole.str])
    | .adaptive a => .obj (by simp [Json.Whole.str, whole_encode])

instance : Faithful Config where
  decode?_encode c := by
    simp only [decode?]
    rw [required_eq_some (a := c.localCluster), required_eq_some (a := c.intervalMs),
      required_eq_some (a := c.clusters), fieldOr_eq_some (a := c.seeds),
      fieldOr_eq_some (a := c.mode)]
    · rfl
    all_goals simp [encode]
  whole_encode c := .obj (by simp [whole_encode])

instance : Faithful Cluster where
  decode?_encode c := by
    simp only [decode?]
    rw [required_eq_some (a := c.name), required_eq_some (a := c.isLocal)]
    · rfl
    all_goals simp [encode]
  whole_encode c := .obj (by simp [whole_encode])

instance : Faithful Address where
  decode?_encode a := by
    simp only [decode?]
    rw [required_eq_some (a := a.host), required_eq_some (a := a.port)]
    · rfl
    all_goals simp [encode]
  whole_encode a := .obj (by simp [whole_encode])

instance : Faithful Member where
  decode?_encode m := by
    simp only [decode?]
    rw [required_eq_some (a := m.name), required_eq_some (a := m.address.host),
      required_eq_some (a := m.address.port)]
    · rfl
    all_goals simp [encode]
  whole_encode m := .obj (by simp [whole_encode])

instance : Faithful View where
  decode?_encode v := by
    simp only [decode?]
    rw [required_eq_some (a := v.cluster), required_eq_some (a := v.members.toList)]
    · exact congrArg (some ∘ View.mk v.cluster) v.members.ofList_toList
    all_goals simp [encode]
  whole_encode v := .obj (by simp [whole_encode])

/-- Configurations and their parts, clusters, addresses, members and views are read from their
texts, and a text that can be read is rewritten into one that stays as it is. -/
theorem Codec.texts_roundTrip :
    RoundTrips Config ∧ RoundTrips Adaptation ∧ RoundTrips Mode ∧ RoundTrips Cluster ∧
      RoundTrips Address ∧ RoundTrips Member ∧ RoundTrips View :=
  ⟨Faithful.roundTrips, Faithful.roundTrips, Faithful.roundTrips, Faithful.roundTrips,
    Faithful.roundTrips, Faithful.roundTrips, Faithful.roundTrips⟩

/-- Members in no order and twice, fields in another order, escapes and blanks: none of this is in
the text of the view that was read. A field that nobody asks for is gone from the text of a
configuration, and the fields with a default are there. -/
theorem Codec.texts_roundTrip_untidy :
    let v : View := .ofList "é" [⟨"a", ⟨"h", 1⟩⟩, ⟨"b", ⟨"h", 2⟩⟩]
    let t := "\x7b\"members\": [\x7b\"port\":2,\"name\":\"b\",\"host\":\"h\"\x7d, " ++
      "\x7b\"name\":\"a\",\"host\":\"h\",\"port\":1\x7d, " ++
      "\x7b\"name\":\"b\",\"host\":\"h\",\"port\":2\x7d], \"cluster\":\"\\u00e9\"\x7d"
    let c : Config := ⟨"é", 18446744073709551615, ["é", "\n"], ∅, .fixed⟩
    let u := "\x7b\"zone\":0.5,\"clusters\":[\"é\",\"\\u000a\"],\"local_cluster\":\"é\"," ++
      "\"discovery_interval_ms\":18446744073709551615\x7d"
    (read? t = some v ∧ write v ≠ t ∧ read? (write v) = some v) ∧
      read? u = some c ∧ write c ≠ u ∧ read? (write c) = some c := by
  intro v t c u
  obtain ⟨hconfig, -, -, -, -, -, hview⟩ := texts_roundTrip
  have hv : read? t = some v := by decide +kernel
  have hc : read? u = some c := by decide +kernel
  exact ⟨⟨hv, by decide +kernel, (hview.rewrite hv).1⟩,
    hc, by decide +kernel, (hconfig.rewrite hc).1⟩

end Federation
