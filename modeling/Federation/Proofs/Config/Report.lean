import Federation.Config.Check
import Federation.Proofs.Address.Grammar
import Federation.Proofs.Collection.Keyed

/-!
What the report about a configuration says.

* `Config.rules`: the rules about a configuration as a whole, in the order of their precedence.
* `Config.FirstBroken`: the first broken one of a list of rules. `Config.Answers`: a check answers
  with it. Checks that follow one another answer for their rules together (`Answers.or`,
  `Answers.flatMap`), and so `Config.answers_firstViolation?` for all of them.
* `Config.check_eq_ok_iff_rules`, `Config.check_reports_first`: which configurations are accepted,
  and what is reported about the others.
-/

namespace Federation

namespace Config

variable {α : Type} {c : Config} {P : Prop} {u v : Violation} {l l' : List (Prop × Violation)}
  {f f' : Option Violation}

/-- A violation is that of the first rule of a list that does not hold. -/
def FirstBroken (l : List (Prop × Violation)) (v : Violation) : Prop :=
  ∃ earlier P later, l = earlier ++ (P, v) :: later ∧ (∀ r ∈ earlier, r.1) ∧ ¬P

/-- The rules about the mode. -/
def modeRules : Mode → List (Prop × Violation)
  | .fixed => []
  | .adaptive a => [(1000 ≤ a.upperLimitMs.toNat, .invalidAdaptive a.upperLimitMs)]

/-- The rules about a seed and the cluster that it belongs to. -/
def seedRules (c : Config) (x : String × String) : List (Prop × Violation) :=
  [(x.1 ∈ c.clusters, .seedForUnknown x.1 x.2), (Address.IsText x.2, .unreadableSeed x.1 x.2)]

/-- The rules about a configuration as a whole, each with the violation that is reported of it: the
local cluster is configured, and it has no seed; every other one has a seed; each seed, by cluster,
belongs to a configured one and is an address; the mode can be used. -/
def rules (c : Config) : List (Prop × Violation) :=
  [(c.localCluster ∈ c.clusters, .localNotConfigured c.localCluster),
    (c.seeds.get? c.localCluster = none, .seedForLocal c.localCluster)] ++
  (c.clusters.map fun name =>
    (name ≠ c.localCluster → ∃ seed, c.seeds.get? name = some seed, .missingSeed name)) ++
  c.seeds.toList.flatMap c.seedRules ++ modeRules c.mode

/-! ### The first broken rule -/

lemma firstBroken_cons : FirstBroken ((P, u) :: l) v ↔ ¬P ∧ v = u ∨ P ∧ FirstBroken l v := by
  constructor
  · rintro ⟨earlier, Q, later, hsplit, hearlier, hbroken⟩
    cases earlier with
    | nil =>
        obtain ⟨⟨rfl, rfl⟩, rfl⟩ : (P = Q ∧ u = v) ∧ l = later := by simpa using hsplit
        exact .inl ⟨hbroken, rfl⟩
    | cons r earlier =>
        obtain ⟨rfl, rfl⟩ := List.cons.inj hsplit
        have hholds := List.forall_mem_cons.mp hearlier
        exact .inr ⟨hholds.1, earlier, Q, later, rfl, hholds.2, hbroken⟩
  · rintro (⟨hP, rfl⟩ | ⟨hP, earlier, Q, later, rfl, hearlier, hbroken⟩)
    · exact ⟨[], P, l, rfl, nofun, hP⟩
    · exact ⟨(P, u) :: earlier, Q, later, rfl, List.forall_mem_cons.mpr ⟨hP, hearlier⟩, hbroken⟩

lemma not_firstBroken_nil : ¬FirstBroken [] v := by
  rintro ⟨earlier, P, later, h, -⟩
  simp at h

/-- If not all rules hold, then one of them is the first that does not. -/
lemma exists_firstBroken_iff : (∃ v, FirstBroken l v) ↔ ¬∀ r ∈ l, r.1 := by
  induction l with
  | nil => simp [not_firstBroken_nil]
  | cons r l ih =>
      obtain ⟨P, u⟩ := r
      simp only [firstBroken_cons, List.forall_mem_cons, exists_or, exists_and_left, exists_eq, ih]
      tauto

lemma firstBroken_append : FirstBroken (l ++ l') v ↔
    FirstBroken l v ∨ (∀ r ∈ l, r.1) ∧ FirstBroken l' v := by
  induction l with
  | nil => simp [not_firstBroken_nil]
  | cons r l ih =>
      obtain ⟨P, u⟩ := r
      simp only [List.cons_append, firstBroken_cons, ih, List.forall_mem_cons]
      tauto

/-! ### Checks -/

/-- A check answers with the violation of the first broken rule, and with nothing if all hold. -/
def Answers (l : List (Prop × Violation)) (f : Option Violation) : Prop :=
  ∀ v, f = some v ↔ FirstBroken l v

namespace Answers

lemma eq_none_iff (h : Answers l f) : f = none ↔ ∀ r ∈ l, r.1 := by
  rw [← not_iff_not, ← exists_firstBroken_iff, ← ne_eq, Option.ne_none_iff_exists']
  exact exists_congr h

lemma nil : Answers [] none := fun _ => iff_of_false nofun not_firstBroken_nil

/-- A check of a single rule. -/
lemma test {b : Bool} (h : b = true ↔ ¬P) : Answers [(P, u)] (if b then some u else none) := by
  intro v
  rw [firstBroken_cons, ← h]
  cases b <;> simp [not_firstBroken_nil, eq_comm]

/-- A check that is made where another one answers with nothing. -/
lemma or (h : Answers l f) (h' : Answers l' f') : Answers (l ++ l') (f.or f') := by
  intro v
  rw [firstBroken_append, Option.or_eq_some_iff, h.eq_none_iff, h v, h' v]

/-- A check of one item after the other. -/
lemma flatMap {g : α → List (Prop × Violation)} {k : α → Option Violation}
    (h : ∀ a, Answers (g a) (k a)) (items : List α) :
    Answers (items.flatMap g) (items.findSome? k) := by
  induction items with
  | nil => exact nil
  | cons a items ih =>
      have hor := (h a).or ih
      rw [List.flatMap_cons, List.findSome?_cons]
      cases hk : k a with
      | none => rwa [hk] at hor
      | some v => rwa [hk] at hor

/-- A search for the first item that breaks its rule. -/
lemma find? {R : α → Prop} {k : α → Violation} {p : α → Bool} (h : ∀ a, p a = true ↔ ¬R a)
    (items : List α) : Answers (items.map fun a => (R a, k a)) ((items.find? p).map k) := by
  induction items with
  | nil => exact nil
  | cons a items ih =>
      have hor := (test (u := k a) (h a)).or ih
      rw [List.map_cons, List.find?_cons]
      cases hp : p a with
      | false => rwa [hp] at hor
      | true => rwa [hp] at hor

end Answers

lemma answers_seedViolation? (x : String × String) :
    Answers (c.seedRules x) (c.seedViolation? x) := by
  have hunknown : (!c.clusters.contains x.1) = true ↔ ¬x.1 ∈ c.clusters := by simp
  have hunreadable : (Address.parse? x.2).isNone = true ↔ ¬Address.IsText x.2 := by
    rw [← Address.isSome_parse?_iff]
    simp
  have hboth := (Answers.test (u := .seedForUnknown x.1 x.2) hunknown).or
    (.test (u := .unreadableSeed x.1 x.2) hunreadable)
  rw [seedViolation?]
  split
  next h => rwa [if_pos h] at hboth
  next h => rwa [if_neg h, Option.none_or] at hboth

lemma answers_modeViolation? : Answers (modeRules c.mode) c.modeViolation? := by
  rw [modeViolation?]
  cases c.mode with
  | fixed => exact .nil
  | adaptive a =>
      have hshort : (!a.violations.isEmpty) = true ↔ ¬1000 ≤ a.upperLimitMs.toNat := by
        rw [Adaptation.violations, not_le]
        change _ ↔ a.upperLimitMs.toNat < (1000 : UInt64).toNat
        rw [← UInt64.lt_iff_toNat_lt]
        split <;> simp [*]
      have htest := Answers.test (u := .invalidAdaptive a.upperLimitMs) hshort
      rw [modeRules]
      dsimp only
      cases h : a.violations.isEmpty <;> simpa [h] using htest

/-- The rules are looked at one after the other. -/
lemma firstViolation?_eq (c : Config) : c.firstViolation? =
    ((((if !c.clusters.contains c.localCluster then some (.localNotConfigured c.localCluster)
        else none).or
      (if c.seeds.contains c.localCluster then some (.seedForLocal c.localCluster) else none)).or
      (c.unseeded?.map .missingSeed)).or
      (c.seeds.toList.findSome? c.seedViolation?)).or c.modeViolation? := by
  rw [firstViolation?]
  split
  next => rfl
  next =>
    split
    next => rfl
    next =>
      rw [Option.none_or, Option.none_or]
      cases c.unseeded? <;> rfl

lemma contains_seeds_iff {name : String} :
    c.seeds.contains name = true ↔ ∃ seed, c.seeds.get? name = some seed := by
  rw [Keyed.contains_eq_isSome, ← Option.isSome_iff_exists, Assoc.get?, Option.isSome_map]

/-- The check of the configuration as a whole answers with the first of its rules that is broken. -/
lemma answers_firstViolation? (c : Config) : Answers c.rules c.firstViolation? := by
  have hhome : (!c.clusters.contains c.localCluster) = true ↔ ¬c.localCluster ∈ c.clusters := by
    simp
  have haway : c.seeds.contains c.localCluster = true ↔ ¬c.seeds.get? c.localCluster = none := by
    rw [contains_seeds_iff]
    exact Option.ne_none_iff_exists'.symm
  have hunseeded (name : String) :
      (decide (name ≠ c.localCluster) && !c.seeds.contains name) = true ↔
      ¬(name ≠ c.localCluster → ∃ seed, c.seeds.get? name = some seed) := by
    rw [← contains_seeds_iff]
    simp
  rw [firstViolation?_eq]
  exact ((((Answers.test hhome).or (.test haway)).or (.find? hunseeded c.clusters)).or
    (.flatMap answers_seedViolation? _)).or answers_modeViolation?

/-! ### Reports -/

/-- Where a violation is reported, and under which short name. -/
def Violation.entry (v : Violation) : String × String := (v.field, v.code)

/-- What the rules about a configuration as a whole demand of it. -/
lemma forall_mem_rules_iff : (∀ r ∈ c.rules, r.1) ↔ c.localCluster ∈ c.clusters ∧
    c.seeds.get? c.localCluster = none ∧
    (∀ name ∈ c.clusters, name ≠ c.localCluster → ∃ seed, c.seeds.get? name = some seed) ∧
    (∀ name seed, c.seeds.get? name = some seed → name ∈ c.clusters ∧ Address.IsText seed) ∧
    ∀ a, c.mode = .adaptive a → 1000 ≤ a.upperLimitMs.toNat := by
  have hseeds : (∀ r ∈ c.seeds.toList.flatMap c.seedRules, r.1) ↔
      ∀ name seed, c.seeds.get? name = some seed → name ∈ c.clusters ∧ Address.IsText seed := by
    simp only [List.forall_mem_flatMap, seedRules, List.forall_mem_cons, Prod.forall,
      Assoc.get?_eq_some_iff]
    simp
  have hmode : (∀ r ∈ modeRules c.mode, r.1) ↔
      ∀ a, c.mode = .adaptive a → 1000 ≤ a.upperLimitMs.toNat := by
    cases c.mode <;> simp [modeRules]
  rw [rules, List.forall_mem_append, List.forall_mem_append, List.forall_mem_append, hseeds, hmode]
  simp [and_assoc]

/-- There is no report without a violation. -/
lemma check_eq (c : Config) : c.check = if c.fieldViolations ++ c.firstViolation?.toList = [] then
    .ok () else .error (.configuration (c.fieldViolations ++ c.firstViolation?.toList)) := by
  rw [check, violations]
  simp only [List.isEmpty_iff]

/-- The entries of the broken rules about single fields. -/
lemma map_entry_fieldViolations (c : Config) : c.fieldViolations.map Violation.entry =
    (if c.localCluster = "" then [("local_cluster", "length")] else []) ++
    if c.intervalMs.toNat = 0 then [("discovery_interval_ms", "range")] else [] := by
  have hzero : c.intervalMs < 1 ↔ c.intervalMs.toNat = 0 := by
    rw [UInt64.lt_iff_toNat_lt]
    exact Nat.lt_one_iff
  rw [fieldViolations, List.map_append]
  simp only [String.isEmpty_iff, hzero]
  congr 1 <;> split <;> rfl

/-- Which configurations are accepted. -/
lemma check_eq_ok_iff_rules (c : Config) : c.check = .ok () ↔
    c.localCluster ≠ "" ∧ 1 ≤ c.intervalMs.toNat ∧
      c.localCluster ∈ c.clusters ∧ c.seeds.get? c.localCluster = none ∧
      (∀ name ∈ c.clusters, name ≠ c.localCluster → ∃ seed, c.seeds.get? name = some seed) ∧
      (∀ name seed, c.seeds.get? name = some seed → name ∈ c.clusters ∧ Address.IsText seed) ∧
      ∀ a, c.mode = .adaptive a → 1000 ≤ a.upperLimitMs.toNat := by
  have hfields : c.fieldViolations = [] ↔ c.localCluster ≠ "" ∧ 1 ≤ c.intervalMs.toNat := by
    rw [← List.map_eq_nil_iff, map_entry_fieldViolations, List.append_eq_nil_iff,
      Nat.one_le_iff_ne_zero]
    simp
  rw [check_eq, ← forall_mem_rules_iff, ← (answers_firstViolation? c).eq_none_iff, ← and_assoc,
    ← hfields]
  simp

/-- The entries of the rules about a configuration as a whole. -/
lemma map_entry_rules (c : Config) : c.rules.map (fun r => r.2.entry) =
    [("__all__", "local_cluster_not_configured"), ("__all__", "seed_for_local_cluster")] ++
    c.clusters.map (fun _ => ("__all__", "missing_seed")) ++
    c.seeds.toList.flatMap (fun _ =>
      [("__all__", "seed_for_unknown_cluster"), ("__all__", "invalid_seed")]) ++
    match c.mode with
    | .fixed => []
    | .adaptive _ => [("__all__", "invalid_scheduler")] := by
  rw [rules, List.map_append, List.map_append, List.map_append, List.map_map, List.map_flatMap]
  cases c.mode <;> rfl

/-- A configuration is accepted exactly if its local cluster has a name, its interval is not zero,
the local cluster is configured and has no seed, every other configured cluster has one, every seed
belongs to a configured cluster and is an address, and the limit of the adaptive mode is at least a
second. Else the report says which of the first two rules are broken, and of the others it has the
first broken one, in the order in which they stand here and for seeds in the order of their
clusters, where a cluster that is not configured comes before a text that is no address. -/
theorem check_reports_first (c : Config) :
    (c.check = .ok () ↔ c.localCluster ≠ "" ∧ 1 ≤ c.intervalMs.toNat ∧
      c.localCluster ∈ c.clusters ∧ c.seeds.get? c.localCluster = none ∧
      (∀ name ∈ c.clusters, name ≠ c.localCluster → ∃ seed, c.seeds.get? name = some seed) ∧
      (∀ name seed, c.seeds.get? name = some seed → name ∈ c.clusters ∧ Address.IsText seed) ∧
      ∀ a, c.mode = .adaptive a → 1000 ≤ a.upperLimitMs.toNat) ∧
    (∃ fields first, c.check = (if fields ++ first.toList = [] then .ok ()
        else .error (.configuration (fields ++ first.toList))) ∧
      fields.map Violation.entry =
        (if c.localCluster = "" then [("local_cluster", "length")] else []) ++
        (if c.intervalMs.toNat = 0 then [("discovery_interval_ms", "range")] else []) ∧
      ∀ v, first = some v ↔ FirstBroken c.rules v) ∧
    c.rules.map (fun r => r.2.entry) =
      [("__all__", "local_cluster_not_configured"), ("__all__", "seed_for_local_cluster")] ++
      c.clusters.map (fun _ => ("__all__", "missing_seed")) ++
      c.seeds.toList.flatMap (fun _ =>
        [("__all__", "seed_for_unknown_cluster"), ("__all__", "invalid_seed")]) ++
      match c.mode with
      | .fixed => []
      | .adaptive _ => [("__all__", "invalid_scheduler")] := by
  exact ⟨check_eq_ok_iff_rules c, ⟨c.fieldViolations, c.firstViolation?, check_eq c,
    map_entry_fieldViolations c, answers_firstViolation? c⟩, map_entry_rules c⟩

end Config

end Federation
