import Mathlib.Data.Finset.SymmDiff
import Federation.Membership.View
import Federation.Proofs.Collection.Keyed

/-!
Changes as patches.

* `Member.Precedes`: the order of members in words. `Member.compare_eq_lt_iff`: it is the one in
  which a view holds them.
* `Changes.applyTo`: some members leave a set of members, then others join it.
* `Changes.LeastPatch`: the changes lead from one set of members to another one, and all changes
  that do so let the same members leave and join, if not more.
* `Changes.between`: the members that only one of two sets has. They are the least patch
  (`Changes.leastPatch_between`), and as many as the symmetric difference holds
  (`Changes.count_between`).
* `View.changesSince_patches`: what a view changes about an earlier one is the least patch that
  leads to it, so that the changes of several views in a row lead to the last one.
-/

namespace Federation

open Std

/-! ### The order of members -/

lemma Address.compare_eq_lt_iff {a b : Address} :
    compare a b = .lt ↔ a.host < b.host ∨ a.host = b.host ∧ a.port < b.port := by
  change (compare a.host b.host).then (compare a.port b.port) = .lt ↔ _
  rw [Ordering.then_eq_lt, LawfulEqCmp.compare_eq_iff_eq]
  exact or_congr compareOfLessAndEq_eq_lt (and_congr_right fun _ => compareOfLessAndEq_eq_lt)

namespace Member

variable {a b : Member}

/-- A member comes before another one by its name, then by its host and then by its port. -/
def Precedes (a b : Member) : Prop :=
  a.name < b.name ∨ a.name = b.name ∧ (a.address.host < b.address.host ∨
    a.address.host = b.address.host ∧ a.address.port < b.address.port)

lemma compare_eq_lt_iff : compare a b = .lt ↔ a.Precedes b := by
  change (compare a.name b.name).then (compare a.address b.address) = .lt ↔ _
  rw [Ordering.then_eq_lt, LawfulEqCmp.compare_eq_iff_eq, Address.compare_eq_lt_iff]
  exact or_congr_left compareOfLessAndEq_eq_lt

end Member

namespace Changes

variable {c : Changes} {s t : ValueSet Member} {m : Member}

/-! ### Patches -/

/-- The members that are left when some have gone, together with those that join. -/
def applyTo (c : Changes) (s : ValueSet Member) : ValueSet Member :=
  c.joining.foldl Keyed.insertIfNew (c.leaving.foldl Keyed.erase s)

lemma mem_applyTo :
    m ∈ (c.applyTo s).toList ↔ (m ∈ s.toList ∧ m ∉ c.leaving) ∨ m ∈ c.joining := by
  rw [applyTo, ValueSet.mem_foldl_insertIfNew, ValueSet.mem_foldl_erase]

/-- The changes lead from the members `s` to the members `t`, and no others that do so can do
without any of them. -/
structure LeastPatch (c : Changes) (s t : ValueSet Member) : Prop where
  leaving_ascending : c.leaving.Pairwise Member.Precedes
  joining_ascending : c.joining.Pairwise Member.Precedes
  leaving_subset : c.leaving ⊆ s.toList
  joining_subset : c.joining ⊆ t.toList
  disjoint : c.leaving.Disjoint c.joining
  applyTo_eq : c.applyTo s = t
  least : ∀ c' : Changes, c'.applyTo s = t →
    c.leaving ⊆ c'.leaving ∧ c.joining ⊆ c'.joining ∧ c.count ≤ c'.count

/-! ### Differences -/

/-- The members that only one of two sets has. -/
def between (s t : ValueSet Member) : Changes := ⟨s.difference t, t.difference s⟩

lemma pairwise_difference : (s.difference t).Pairwise Member.Precedes :=
  (s.ascending.filter _).imp Member.compare_eq_lt_iff.mp

lemma nodup_difference : (s.difference t).Nodup :=
  (s.ascending.filter _).imp Keyed.ne_of_compare_lt

lemma applyTo_between : (between s t).applyTo s = t := by
  refine Keyed.ext_mem fun m => ?_
  rw [mem_applyTo, between, ValueSet.mem_difference, ValueSet.mem_difference]
  tauto

/-- A member that only the first set has must leave, one that only the second set has must join. -/
lemma between_subset (h : c.applyTo s = t) :
    (between s t).leaving ⊆ c.leaving ∧ (between s t).joining ⊆ c.joining := by
  constructor
  · intro m hm
    obtain ⟨hs, ht⟩ := ValueSet.mem_difference.mp hm
    rw [← h, mem_applyTo] at ht
    by_contra hc
    exact ht (Or.inl ⟨hs, hc⟩)
  · intro m hm
    obtain ⟨ht, hs⟩ := ValueSet.mem_difference.mp hm
    rw [← h, mem_applyTo] at ht
    exact ht.resolve_left fun hstays => hs hstays.1

lemma leastPatch_between (s t : ValueSet Member) : (between s t).LeastPatch s t where
  leaving_ascending := pairwise_difference
  joining_ascending := pairwise_difference
  leaving_subset _ hm := (ValueSet.mem_difference.mp hm).1
  joining_subset _ hm := (ValueSet.mem_difference.mp hm).1
  disjoint _ hm hm' := (ValueSet.mem_difference.mp hm).2 (ValueSet.mem_difference.mp hm').1
  applyTo_eq := applyTo_between
  least c h := by
    obtain ⟨hleaving, hjoining⟩ := between_subset h
    exact ⟨hleaving, hjoining, Nat.add_le_add (nodup_difference.subperm hleaving).length_le
      (nodup_difference.subperm hjoining).length_le⟩

lemma toFinset_difference :
    (s.difference t).toFinset = s.toList.toFinset \ t.toList.toFinset := by
  ext m
  rw [List.mem_toFinset, ValueSet.mem_difference, Finset.mem_sdiff, List.mem_toFinset,
    List.mem_toFinset]

lemma count_between :
    (between s t).count = (symmDiff s.toList.toFinset t.toList.toFinset).card := by
  have hdisjoint : Disjoint (s.toList.toFinset \ t.toList.toFinset)
      (t.toList.toFinset \ s.toList.toFinset) := disjoint_sdiff_sdiff
  rw [symmDiff_def, Finset.sup_eq_union, Finset.card_union_of_disjoint hdisjoint, count, between,
    ← toFinset_difference, ← toFinset_difference, List.toFinset_card_of_nodup nodup_difference,
    List.toFinset_card_of_nodup nodup_difference]

lemma count_between_eq_zero_iff : (between s t).count = 0 ↔ s = t := by
  rw [count_between, Finset.card_eq_zero, ← Finset.bot_eq_empty, symmDiff_eq_bot]
  constructor
  · intro h
    exact Keyed.ext_mem fun m => by rw [← List.mem_toFinset, h, List.mem_toFinset]
  · intro h
    rw [h]

end Changes

/-! ### Views -/

namespace View

/-- The view of a cluster that has no members. -/
def vacant (cluster : String) : View := ⟨cluster, ∅⟩

lemma changesSince_none (v : View) (cluster : String) :
    v.changesSince none = v.changesSince (some (vacant cluster)) := by
  have hall : v.members.difference ∅ = v.members.toList :=
    List.filter_eq_self.mpr fun m _ => rfl
  rw [changesSince, changesSince, vacant, hall]
  rfl

/-- What a view changes about an earlier one is the least patch that leads from the earlier members
to its own. It counts the members that only one of the views has, and is empty only if there are
none. Back again the same members change places, and the changes of a third view go on where those
of the second one have led. Without an earlier view all is as if it had no members. -/
theorem changesSince_patches (p u w : View) :
    let c := u.changesSince (some p)
    c.LeastPatch p.members u.members ∧
    c.count = (symmDiff p.members.toList.toFinset u.members.toList.toFinset).card ∧
    (c.count = 0 ↔ p.members = u.members) ∧ (c.isEmpty = true ↔ p.members = u.members) ∧
    p.changesSince (some u) = ⟨c.joining, c.leaving⟩ ∧
    (w.changesSince (some u)).applyTo (c.applyTo p.members) = w.members ∧
    ∀ cluster, u.changesSince none = u.changesSince (some (vacant cluster)) := by
  intro c
  have hpatch : c.LeastPatch p.members u.members := Changes.leastPatch_between _ _
  have hzero : c.count = 0 ↔ p.members = u.members := Changes.count_between_eq_zero_iff
  refine ⟨hpatch, Changes.count_between, hzero, beq_iff_eq.trans hzero, rfl, ?_,
    u.changesSince_none⟩
  rw [hpatch.applyTo_eq]
  exact Changes.applyTo_between

/-- Of two members of one name one moves to the address of the other node. To let everybody go and
the later members join leads to the same view, but takes more changes. -/
theorem changesSince_patches_moved :
    let p := ofList "asia" [⟨"a", ⟨"host", 1⟩⟩, ⟨"a", ⟨"host", 2⟩⟩, ⟨"b", ⟨"host", 3⟩⟩]
    let u := ofList "asia" [⟨"b", ⟨"host", 3⟩⟩, ⟨"a", ⟨"host", 3⟩⟩, ⟨"a", ⟨"host", 2⟩⟩]
    let c := u.changesSince (some p)
    let all : Changes := ⟨p.members.toList, u.members.toList⟩
    all.applyTo p.members = u.members ∧
    c = ⟨[⟨"a", ⟨"host", 1⟩⟩], [⟨"a", ⟨"host", 3⟩⟩]⟩ ∧
    c.leaving ⊆ all.leaving ∧ c.joining ⊆ all.joining ∧ c.count ≤ all.count := by
  intro p u c all
  have hall : all.applyTo p.members = u.members := by decide +kernel
  exact ⟨hall, by decide +kernel, (changesSince_patches p u p).1.least all hall⟩

end View

end Federation
