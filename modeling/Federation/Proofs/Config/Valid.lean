import Federation.Pace.Policy
import Federation.Proofs.Config.Report

/-!
Valid configurations.

* `Config.Valid`: what has to hold of a valid configuration. `Config.check_eq_ok_iff`: exactly these
  configurations are accepted.
* `Config.Valid.policy_eq`: there is a policy for the mode of a valid configuration.
* `Config.Valid.mem_seeds_iff`: the clusters with seeds are the configured ones save that of this
  process.
* `Config.mem_clusterSet_iff`, `Config.Valid.filter_isLocal`: the clusters that are registered.
  `Config.clusterSet_union_ofRemote`: none of them is registered twice.
-/

namespace Federation

namespace Config

variable {c : Config} {name : String}

/-- The mode can be used to pace rounds. -/
def ModeValid : Mode → Prop
  | .fixed => True
  | .adaptive a => ¬a.upperLimitMs < 1000

/-- What has to hold of a valid configuration. -/
structure Valid (c : Config) : Prop where
  named : c.localCluster.isEmpty = false
  paced : ¬c.intervalMs < 1
  home : c.localCluster ∈ c.clusters
  away : c.seeds.contains c.localCluster = false
  seeded : ∀ name ∈ c.clusters, name ≠ c.localCluster → c.seeds.contains name = true
  readable : ∀ x ∈ c.seeds.toList, x.1 ∈ c.clusters ∧ (Address.parse? x.2).isSome = true
  mode : ModeValid c.mode

/-- Exactly the valid configurations are accepted. -/
theorem check_eq_ok_iff : c.check = .ok () ↔ c.Valid := by
  have hpaced : 1 ≤ c.intervalMs.toNat ↔ ¬c.intervalMs < 1 := by
    rw [UInt64.lt_iff_toNat_lt, not_lt]
    rfl
  have haway : c.seeds.get? c.localCluster = none ↔ c.seeds.contains c.localCluster = false := by
    rw [← not_iff_not, ← ne_eq, Option.ne_none_iff_exists', ← contains_seeds_iff,
      Bool.not_eq_false]
  have hreadable : (∀ name seed, c.seeds.get? name = some seed →
      name ∈ c.clusters ∧ Address.IsText seed) ↔
      ∀ x ∈ c.seeds.toList, x.1 ∈ c.clusters ∧ (Address.parse? x.2).isSome = true := by
    simp only [Assoc.get?_eq_some_iff, Address.isSome_parse?_iff, Prod.forall]
  have hmode : (∀ a, c.mode = .adaptive a → 1000 ≤ a.upperLimitMs.toNat) ↔ ModeValid c.mode := by
    cases c.mode with
    | fixed => simp [ModeValid]
    | adaptive a =>
        simp only [Mode.adaptive.injEq, forall_eq', ModeValid, UInt64.lt_iff_toNat_lt, not_lt]
        rfl
  rw [check_eq_ok_iff_rules, hpaced, haway, hreadable, hmode]
  simp only [← contains_seeds_iff]
  constructor
  · rintro ⟨hnamed, hpaced, hhome, haway, hseeded, hreadable, hmode⟩
    exact ⟨by simpa using hnamed, hpaced, hhome, haway, hseeded, hreadable, hmode⟩
  · intro h
    exact ⟨by simpa using h.named, h.paced, h.home, h.away, h.seeded, h.readable, h.mode⟩

namespace Valid

/-- There is a policy for the mode of a valid configuration. -/
lemma policy_eq (h : c.Valid) : c.policy = .ok (.ofMode c.mode) := by
  have hmode := h.mode
  rw [policy]
  cases hc : c.mode with
  | fixed => rfl
  | adaptive a =>
      rw [hc] at hmode
      have hcheck : a.check = .ok () := by
        rw [Adaptation.check, Adaptation.violations, if_neg hmode]
        rfl
      dsimp only
      rw [hcheck]
      rfl

/-- The clusters with seeds are the configured ones save that of this process. -/
lemma mem_seeds_iff (h : c.Valid) :
    name ∈ c.seeds.keys ↔ name ∈ c.clusters ∧ name ≠ c.localCluster := by
  rw [Keyed.keys, List.mem_map]
  constructor
  · rintro ⟨x, hx, rfl⟩
    refine ⟨(h.readable x hx).1, fun hlocal => ?_⟩
    exact Keyed.contains_eq_false_iff.mp h.away x hx hlocal
  · rintro ⟨hmem, hlocal⟩
    exact Keyed.contains_iff.mp (h.seeded name hmem hlocal)

end Valid

/-! ### Registered clusters -/

lemma find?_clusterSet : c.clusterSet.find? name =
    if name ∈ c.clusters then some ⟨name, name == c.localCluster⟩ else none := by
  rw [clusterSet, Keyed.find?_ofList, List.find?_map]
  cases hf : c.clusters.find? ((fun k : Cluster => decide (k.name = name)) ∘ fun name =>
      ⟨name, name == c.localCluster⟩) with
  | none =>
      have hnone : name ∉ c.clusters := fun hmem => by
        simpa using List.find?_eq_none.mp hf name hmem
      rw [if_neg hnone, Option.map_none]
  | some n =>
      obtain rfl : n = name := by simpa using List.find?_some hf
      rw [if_pos (List.mem_of_find?_eq_some hf), Option.map_some]

/-- A cluster that is registered already is not registered again. -/
lemma clusterSet_union_ofRemote (h : name ∈ c.clusters) :
    c.clusterSet.union (.ofList [.ofRemote name]) = c.clusterSet := by
  refine Keyed.union_singleton_of_contains ?_
  rw [Keyed.contains_eq_isSome, find?_clusterSet]
  exact congrArg Option.isSome (if_pos h)

/-- Every configured name is registered once, and only that of this process as local. -/
lemma mem_clusterSet_iff {k : Cluster} : k ∈ c.clusterSet.toList ↔
    k.name ∈ c.clusters ∧ k.isLocal = (k.name == c.localCluster) := by
  obtain ⟨name, isLocal⟩ := k
  rw [Keyed.mem_iff_find?, find?_clusterSet]
  split
  next hmem => simp [hmem, eq_comm]
  next hmem => simp [hmem]

/-- Exactly one cluster is local. -/
lemma Valid.filter_isLocal (h : c.Valid) :
    c.clusterSet.toList.filter Cluster.isLocal = [c.home] := by
  have hnodup : c.clusterSet.toList.Nodup := c.clusterSet.nodup_keys.of_map
  refine List.perm_singleton.mp ((List.perm_ext_iff_of_nodup (hnodup.filter _)
    (List.nodup_singleton _)).mpr fun k => ?_)
  obtain ⟨name, isLocal⟩ := k
  rw [List.mem_filter, mem_clusterSet_iff, List.mem_singleton, Config.home, Cluster.ofLocal,
    Cluster.mk.injEq]
  constructor
  · rintro ⟨⟨-, hflag⟩, hlocal⟩
    exact ⟨by simpa using hflag.symm.trans hlocal, hlocal⟩
  · rintro ⟨rfl, rfl⟩
    exact ⟨⟨h.home, by simp⟩, rfl⟩

end Config

end Federation
