import Federation.Placement.NodePlacement
import Federation.Proofs.Placement.Apportionment
import Federation.Proofs.Refusal

/-!
The nodes of a cluster after a change of its placement.

* `NodePlacement.nodesOf_add`, `NodePlacement.nodesOf_remove`, `NodePlacement.nodesOf_clear`: a
  change that is not refused puts one node into its cluster or takes one out, whichever way nodes
  are placed, and no other cluster notices.
* `NodePlacement.not_contains_of_add`, `NodePlacement.contains_iff_remove`: an added node is new to
  its cluster by name, and a removal is refused exactly where nobody has the name.
* `HashedNodes.Sound`: all rings are sound and have the size and the hash function of the placement,
  which is kept by every change. Then `HashedNodes.Sound.nodeFor_eq` tells in closed form which node
  serves a lookup.
-/

namespace Federation

/-! ### By hashing -/

namespace HashedNodes

variable {p p' : HashedNodes} {cluster : String} {n : Node}

lemma cluster_of_ring? {r : Ring} (h : p.ring? cluster = some r) : r.cluster = cluster :=
  (Keyed.find?_eq_some_iff.mp h).2

/-- The ring to which a node of the cluster is added. -/
def ringOf (p : HashedNodes) (cluster : String) : Ring :=
  (p.ring? cluster).getD (.empty cluster p.max p.hash)

lemma ringOf_cluster (p : HashedNodes) (cluster : String) :
    (p.ringOf cluster).cluster = cluster := by
  rw [ringOf]
  cases h : p.ring? cluster with
  | none => rfl
  | some r => exact cluster_of_ring? h

lemma nodesOf_eq (p : HashedNodes) (cluster : String) :
    p.nodesOf cluster = (p.ringOf cluster).nodes := by
  rw [nodesOf, ringOf]
  cases p.ring? cluster <;> rfl

lemma add_eq_ok_iff : p.add cluster n = .ok p' ↔
    ∃ r, (p.ringOf cluster).add n = .ok r ∧ p' = { p with rings := p.rings.insert r } := by
  rw [add, ← ringOf, map_eq_ok_iff]
  exact exists_congr fun r => and_congr_right fun _ => eq_comm

lemma remove_eq_ok_iff : p.remove cluster n = .ok p' ↔
    ∃ r, (p.ringOf cluster).remove n = .ok r ∧ p' = { p with rings := p.rings.insert r } := by
  rw [remove, ringOf]
  cases p.ring? cluster with
  | none => simp [Ring.remove, Ring.empty, Ring.layOut, Keyed.contains]
  | some r =>
      rw [Option.getD_some, map_eq_ok_iff]
      exact exists_congr fun r => and_congr_right fun _ => eq_comm

lemma nodesOf_insert {r : Ring} (hr : r.cluster = cluster) (d : String) :
    ({ p with rings := p.rings.insert r } : HashedNodes).nodesOf d =
      if d = cluster then r.nodes else p.nodesOf d := by
  rw [nodesOf, ring?, Keyed.find?_insert, hr]
  by_cases hd : d = cluster
  · subst hd
    simp
  · rw [if_neg (Ne.symm hd), if_neg hd]
    rfl

lemma nodesOf_add (h : p.add cluster n = .ok p') (d : String) :
    p'.nodesOf d = if d = cluster then (p.nodesOf cluster).insert n else p.nodesOf d := by
  obtain ⟨r, hr, rfl⟩ := add_eq_ok_iff.mp h
  obtain ⟨-, -, rfl⟩ := Ring.add_eq_ok_iff.mp hr
  rw [nodesOf_insert ((Ring.withNodes_cluster _ _).trans (ringOf_cluster p cluster)),
    Ring.withNodes_nodes, nodesOf_eq p cluster]

lemma not_contains_of_add (h : p.add cluster n = .ok p') :
    (p.nodesOf cluster).contains n.name = false := by
  obtain ⟨r, hr, -⟩ := add_eq_ok_iff.mp h
  rw [nodesOf_eq]
  exact (Ring.add_eq_ok_iff.mp hr).2.1

lemma nodesOf_remove (h : p.remove cluster n = .ok p') (d : String) :
    p'.nodesOf d = if d = cluster then (p.nodesOf cluster).erase n.name else p.nodesOf d := by
  obtain ⟨r, hr, rfl⟩ := remove_eq_ok_iff.mp h
  obtain ⟨-, rfl⟩ := Ring.remove_eq_ok_iff.mp hr
  rw [nodesOf_insert ((Ring.withNodes_cluster _ _).trans (ringOf_cluster p cluster)),
    Ring.withNodes_nodes, nodesOf_eq p cluster]

lemma contains_iff_remove :
    (p.nodesOf cluster).contains n.name = true ↔ ∃ p', p.remove cluster n = .ok p' := by
  simp only [remove_eq_ok_iff, nodesOf_eq, Ring.remove_eq_ok_iff]
  constructor
  · exact fun h => ⟨_, _, ⟨h, rfl⟩, rfl⟩
  · rintro ⟨_, _, h, -⟩
    exact h.1

lemma nodesOf_clear (p : HashedNodes) (cluster : String) : p.clear.nodesOf cluster = ∅ := by
  rw [nodesOf, ring?, clear, Keyed.find?_map]
  cases p.rings.find? cluster <;> rfl

/-! ### Sound rings -/

/-- All rings are sound, of one size and with one hash function. -/
def Sound (p : HashedNodes) : Prop :=
  ∀ r ∈ p.rings.toList, r.Sound ∧ r.max = p.max ∧ r.hash = p.hash

lemma sound_ofLimit (max : ℕ) (hash : HashFunction) : (ofLimit max hash).Sound := by
  intro r hr
  simp [ofLimit] at hr

lemma Sound.ringOf (h : p.Sound) (cluster : String) :
    (p.ringOf cluster).Sound ∧ (p.ringOf cluster).max = p.max ∧
      (p.ringOf cluster).hash = p.hash := by
  rw [HashedNodes.ringOf]
  cases hr : p.ring? cluster with
  | none => exact ⟨Ring.sound_empty _ _ _, rfl, rfl⟩
  | some r => exact h r (Keyed.find?_eq_some_iff.mp hr).1

lemma Sound.insert (h : p.Sound) {r : Ring} (hr : r.Sound) (hmax : r.max = p.max)
    (hhash : r.hash = p.hash) : ({ p with rings := p.rings.insert r } : HashedNodes).Sound := by
  intro s hs
  rcases Keyed.mem_insert.mp hs with rfl | hs
  · exact ⟨hr, hmax, hhash⟩
  · exact h s hs.1

lemma Sound.add (h : p.Sound) (hadd : p.add cluster n = .ok p') : p'.Sound := by
  obtain ⟨r, hr, rfl⟩ := add_eq_ok_iff.mp hadd
  obtain ⟨hsound, hmax, hhash⟩ := h.ringOf cluster
  have heq := (Ring.add_eq_ok_iff.mp hr).2.2
  refine h.insert (hsound.add hr) ?_ ?_
  · rw [heq, Ring.withNodes_max, hmax]
  · rw [heq, Ring.withNodes_hash, hhash]

lemma Sound.remove (h : p.Sound) (hrem : p.remove cluster n = .ok p') : p'.Sound := by
  obtain ⟨r, hr, rfl⟩ := remove_eq_ok_iff.mp hrem
  obtain ⟨hsound, hmax, hhash⟩ := h.ringOf cluster
  have heq := (Ring.remove_eq_ok_iff.mp hr).2
  refine h.insert (hsound.remove hr) ?_ ?_
  · rw [heq, Ring.withNodes_max, hmax]
  · rw [heq, Ring.withNodes_hash, hhash]

lemma Sound.clear (h : p.Sound) : p.clear.Sound := by
  intro s hs
  obtain ⟨r, hr, rfl⟩ := List.mem_map.mp hs
  exact ⟨Ring.sound_clear r, (h r hr).2⟩

lemma max_of_add (h : p.add cluster n = .ok p') : p'.max = p.max ∧ p'.hash = p.hash := by
  obtain ⟨r, -, rfl⟩ := add_eq_ok_iff.mp h
  exact ⟨rfl, rfl⟩

lemma max_of_remove (h : p.remove cluster n = .ok p') : p'.max = p.max ∧ p'.hash = p.hash := by
  obtain ⟨r, -, rfl⟩ := remove_eq_ok_iff.mp h
  exact ⟨rfl, rfl⟩

/-- The node that serves a lookup in a cluster of `m` nodes is the one at position
`min (slot / (max / m)) (m - 1)`. -/
theorem Sound.nodeFor_eq (h : p.Sound) (cluster : String) (l : Lookup) :
    p.nodeFor cluster l = (p.nodesOf cluster).toList[min
      (p.hash.slot l.text p.max / (p.max / (p.nodesOf cluster).size))
      ((p.nodesOf cluster).size - 1)]? := by
  rw [nodeFor, nodesOf]
  cases hr : p.ring? cluster with
  | none => simp
  | some r =>
      obtain ⟨hsound, hmax, hhash⟩ := h r (Keyed.find?_eq_some_iff.mp hr).1
      rw [Option.bind_some, Option.elim_some, hsound.nodeFor_eq, hmax, hhash]

end HashedNodes

/-! ### By a strategy -/

namespace CustomNodes

variable {p p' : CustomNodes} {cluster : String} {n : Node}

lemma nodesOf_insert {registry : Assoc Site Node} {nodes : NodeSet} (d : String) :
    ({ p with registry := registry, nodes := p.nodes.insert (cluster, nodes) } :
      CustomNodes).nodesOf d = if d = cluster then nodes else p.nodesOf d := by
  rw [nodesOf, Assoc.get?, Keyed.find?_insert]
  by_cases hd : d = cluster
  · subst hd
    simp
  · rw [if_neg (Ne.symm hd), if_neg hd]
    rfl

lemma nodesOf_add (h : p.add cluster n = .ok p') (d : String) :
    p'.nodesOf d = if d = cluster then (p.nodesOf cluster).insert n else p.nodesOf d := by
  rw [add] at h
  split at h
  next => exact absurd h (by simp)
  next =>
    obtain rfl := Except.ok.inj h
    exact nodesOf_insert d

lemma not_contains_of_add (h : p.add cluster n = .ok p') :
    (p.nodesOf cluster).contains n.name = false := by
  rw [add] at h
  split at h
  next => exact absurd h (by simp)
  next hnew =>
    rw [Bool.or_eq_true, not_or, Bool.not_eq_true] at hnew
    exact hnew.1

lemma nodesOf_remove (h : p.remove cluster n = .ok p') (d : String) :
    p'.nodesOf d = if d = cluster then (p.nodesOf cluster).erase n.name else p.nodesOf d := by
  rw [remove] at h
  split at h
  next => exact absurd h (by simp)
  next =>
    obtain rfl := Except.ok.inj h
    exact nodesOf_insert d

lemma contains_iff_remove :
    (p.nodesOf cluster).contains n.name = true ↔ ∃ p', p.remove cluster n = .ok p' := by
  rw [Keyed.contains_eq_isSome, remove]
  cases (p.nodesOf cluster).find? n.name <;> simp

lemma nodesOf_clear (p : CustomNodes) (cluster : String) : p.clear.nodesOf cluster = ∅ := by
  rw [nodesOf, Assoc.get?, clear, Keyed.find?_map]
  cases p.nodes.find? cluster <;> rfl

end CustomNodes

/-! ### Either way -/

namespace NodePlacement

variable {p p' : NodePlacement} {cluster : String} {n : Node}

/-- An added node is in its cluster, and no other cluster has changed. -/
lemma nodesOf_add (h : p.add cluster n = .ok p') (d : String) :
    p'.nodesOf d = if d = cluster then (p.nodesOf cluster).insert n else p.nodesOf d := by
  cases p with
  | hashed p =>
      obtain ⟨q, hq, rfl⟩ := map_eq_ok_iff.mp h
      exact HashedNodes.nodesOf_add hq d
  | custom p =>
      obtain ⟨q, hq, rfl⟩ := map_eq_ok_iff.mp h
      exact CustomNodes.nodesOf_add hq d

/-- Only a node with a new name can be added. -/
lemma not_contains_of_add (h : p.add cluster n = .ok p') :
    (p.nodesOf cluster).contains n.name = false := by
  cases p with
  | hashed p =>
      obtain ⟨q, hq, -⟩ := map_eq_ok_iff.mp h
      exact HashedNodes.not_contains_of_add hq
  | custom p =>
      obtain ⟨q, hq, -⟩ := map_eq_ok_iff.mp h
      exact CustomNodes.not_contains_of_add hq

/-- A removed node is gone from its cluster, and no other cluster has changed. -/
lemma nodesOf_remove (h : p.remove cluster n = .ok p') (d : String) :
    p'.nodesOf d = if d = cluster then (p.nodesOf cluster).erase n.name else p.nodesOf d := by
  cases p with
  | hashed p =>
      obtain ⟨q, hq, rfl⟩ := map_eq_ok_iff.mp h
      exact HashedNodes.nodesOf_remove hq d
  | custom p =>
      obtain ⟨q, hq, rfl⟩ := map_eq_ok_iff.mp h
      exact CustomNodes.nodesOf_remove hq d

/-- A removal is refused exactly where nobody has the name. -/
lemma contains_iff_remove :
    (p.nodesOf cluster).contains n.name = true ↔ ∃ p', p.remove cluster n = .ok p' := by
  cases p with
  | hashed p =>
      refine HashedNodes.contains_iff_remove.trans ?_
      simp [remove, map_eq_ok_iff]
  | custom p =>
      refine CustomNodes.contains_iff_remove.trans ?_
      simp [remove, map_eq_ok_iff]

lemma nodesOf_clear (p : NodePlacement) (cluster : String) : p.clear.nodesOf cluster = ∅ := by
  cases p with
  | hashed p => exact HashedNodes.nodesOf_clear p cluster
  | custom p => exact CustomNodes.nodesOf_clear p cluster

end NodePlacement

end Federation
