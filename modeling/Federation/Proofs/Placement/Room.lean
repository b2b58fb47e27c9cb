import Federation.Proofs.Placement.NodesOf

/-!
When a cluster has room for another node.

* `CustomNodes.Sound`: the registry holds the nodes, each at its address. Every change keeps this.
* `NodePlacement.Sound`: what holds of a placement after any history of changes, whichever way nodes
  are placed.
* `NodePlacement.HasRoom`: what a node needs to be added: a new name, and a slot of its own where
  nodes are placed by hashing, or else an address of its own.
* `NodePlacement.Sound.exists_add`: then it is not refused.
-/

namespace Federation

/-! ### By hashing -/

lemma HashedNodes.Sound.exists_add {p : HashedNodes} {cluster : String} {n : Node} (h : p.Sound)
    (hnew : (p.nodesOf cluster).contains n.name = false) (hspace : (p.nodesOf cluster).size < p.max) :
    ∃ p', p.add cluster n = .ok p' := by
  rw [HashedNodes.nodesOf_eq] at hnew hspace
  refine ⟨_, HashedNodes.add_eq_ok_iff.mpr ⟨_, Ring.add_eq_ok_iff.mpr ⟨?_, hnew, rfl⟩, rfl⟩⟩
  rw [(h.ringOf cluster).2.1]
  exact hspace.ne

/-! ### By a strategy -/

namespace CustomNodes

variable {p p' : CustomNodes} {cluster : String} {n : Node}

/-- The registry holds the nodes, each at its address. -/
def Sound (p : CustomNodes) : Prop :=
  ∀ s n, p.registry.get? s = some n ↔ n ∈ (p.nodesOf s.cluster).toList ∧ n.address = s.address

lemma sound_ofStrategy (strategy : NodeStrategy) : (ofStrategy strategy).Sound := by
  intro s n
  exact iff_of_false (Option.some_ne_none n).symm fun h => absurd h.1 List.not_mem_nil

/-- In a sound registry an address leads to one node of a cluster only. -/
lemma Sound.eq_of_address_eq (h : p.Sound) {m : Node} (hn : n ∈ (p.nodesOf cluster).toList)
    (hm : m ∈ (p.nodesOf cluster).toList) (he : n.address = m.address) : n = m := by
  have hn := (h ⟨cluster, m.address⟩ n).mpr ⟨hn, he⟩
  have hm := (h ⟨cluster, m.address⟩ m).mpr ⟨hm, rfl⟩
  exact Option.some.inj (hn.symm.trans hm)

lemma Sound.contains_iff (h : p.Sound) (s : Site) :
    p.registry.contains s = true ↔ ∃ n ∈ (p.nodesOf s.cluster).toList, n.address = s.address := by
  rw [Keyed.contains_eq_isSome, ← Option.isSome_map (f := Prod.snd), Option.isSome_iff_exists]
  exact exists_congr fun n => h s n

lemma Sound.add (h : p.Sound) (hadd : p.add cluster n = .ok p') : p'.Sound := by
  have hnodes := nodesOf_add hadd
  rw [CustomNodes.add] at hadd
  split at hadd
  next => cases hadd
  next hfree =>
    obtain rfl := Except.ok.inj hadd
    rw [Bool.or_eq_true, not_or, Bool.not_eq_true, Keyed.contains_eq_false_iff, h.contains_iff] at hfree
    obtain ⟨hname, hsite⟩ := hfree
    rintro ⟨d, a⟩ m
    rw [hnodes, Assoc.get?, Keyed.find?_insert]
    by_cases hd : d = cluster
    · subst hd
      rw [if_pos rfl, Keyed.mem_insert]
      by_cases ha : n.address = a
      · -- the address is that of the new node, and of no other
        subst ha
        rw [if_pos rfl, Option.map_some, Option.some_inj]
        constructor
        · rintro rfl
          exact ⟨Or.inl rfl, rfl⟩
        · rintro ⟨rfl | ⟨hm, -⟩, he⟩
          · rfl
          · exact absurd ⟨m, hm, he⟩ hsite
      · rw [if_neg (fun he => ha (congrArg Site.address he))]
        refine (h ⟨d, a⟩ m).trans (and_congr_left fun he => ?_)
        constructor
        · exact fun hm => Or.inr ⟨hm, hname m hm⟩
        · rintro (rfl | hm)
          · exact absurd he ha
          · exact hm.1
    · rw [if_neg (fun he => hd (congrArg Site.cluster he).symm), if_neg hd]
      exact h ⟨d, a⟩ m

lemma Sound.remove (h : p.Sound) (hrem : p.remove cluster n = .ok p') : p'.Sound := by
  have hnodes := nodesOf_remove hrem
  rw [CustomNodes.remove] at hrem
  split at hrem
  next => cases hrem
  next stored hstored =>
    obtain rfl := Except.ok.inj hrem
    obtain ⟨hmem, hname⟩ := Keyed.find?_eq_some_iff.mp hstored
    rintro ⟨d, a⟩ m
    rw [hnodes, Assoc.get?, Keyed.find?_erase]
    by_cases hd : d = cluster
    · subst hd
      rw [if_pos rfl, Keyed.mem_erase, ← hname]
      by_cases ha : a = stored.address
      · -- the address was that of the removed node, and of no other
        subst ha
        rw [if_pos rfl, Option.map_none]
        refine iff_of_false (Option.some_ne_none m).symm ?_
        rintro ⟨⟨hm, hne⟩, he⟩
        exact hne (congrArg Node.name (h.eq_of_address_eq hm hmem he))
      · rw [if_neg (fun he => ha (congrArg Site.address he))]
        refine (h ⟨d, a⟩ m).trans (and_congr_left fun he => ⟨fun hm => ⟨hm, fun hn => ?_⟩, And.left⟩)
        exact ha (he.symm.trans (congrArg Node.address (Keyed.eq_of_key_eq hm hmem hn)))
    · rw [if_neg (fun he => hd (congrArg Site.cluster he)), if_neg hd]
      exact h ⟨d, a⟩ m

lemma sound_clear (p : CustomNodes) : p.clear.Sound := by
  intro s n
  rw [nodesOf_clear]
  exact iff_of_false (Option.some_ne_none n).symm fun h => absurd h.1 List.not_mem_nil

lemma Sound.exists_add (h : p.Sound) (hnew : (p.nodesOf cluster).contains n.name = false)
    (hsite : ∀ m ∈ (p.nodesOf cluster).toList, m.address ≠ n.address) :
    ∃ p', p.add cluster n = .ok p' := by
  have hfree : p.registry.contains ⟨cluster, n.address⟩ = false := by
    rw [← Bool.not_eq_true, h.contains_iff]
    rintro ⟨m, hm, he⟩
    exact hsite m hm he
  rw [CustomNodes.add, hnew, hfree, Bool.or_self, if_neg Bool.false_ne_true]
  exact ⟨_, rfl⟩

end CustomNodes

/-! ### Either way -/

namespace NodePlacement

variable {p p' : NodePlacement} {cluster : String} {n : Node}

/-- What holds of a placement after any history of changes. -/
def Sound : NodePlacement → Prop
  | hashed p => p.Sound
  | custom p => p.Sound

lemma Sound.add (h : p.Sound) (hadd : p.add cluster n = .ok p') :
    p'.Sound ∧ p'.limit? = p.limit? := by
  cases p with
  | hashed p =>
      obtain ⟨q, hq, rfl⟩ := map_eq_ok_iff.mp hadd
      exact ⟨HashedNodes.Sound.add h hq, congrArg some (HashedNodes.max_of_add hq).1⟩
  | custom p =>
      obtain ⟨q, hq, rfl⟩ := map_eq_ok_iff.mp hadd
      exact ⟨CustomNodes.Sound.add h hq, rfl⟩

lemma Sound.remove (h : p.Sound) (hrem : p.remove cluster n = .ok p') :
    p'.Sound ∧ p'.limit? = p.limit? := by
  cases p with
  | hashed p =>
      obtain ⟨q, hq, rfl⟩ := map_eq_ok_iff.mp hrem
      exact ⟨HashedNodes.Sound.remove h hq, congrArg some (HashedNodes.max_of_remove hq).1⟩
  | custom p =>
      obtain ⟨q, hq, rfl⟩ := map_eq_ok_iff.mp hrem
      exact ⟨CustomNodes.Sound.remove h hq, rfl⟩

lemma Sound.clear (h : p.Sound) : p.clear.Sound ∧ p.clear.limit? = p.limit? := by
  cases p with
  | hashed p => exact ⟨HashedNodes.Sound.clear h, rfl⟩
  | custom p => exact ⟨p.sound_clear, rfl⟩

/-- Among the nodes of a cluster there is room for another one: its name is new, there is a slot for
it if there is a limit, and otherwise nobody is at its address. -/
structure HasRoom (limit? : Option ℕ) (nodes : NodeSet) (n : Node) : Prop where
  new : nodes.contains n.name = false
  space : ∀ max, limit? = some max → nodes.size < max
  site : limit? = none → ∀ m ∈ nodes.toList, m.address ≠ n.address

/-- A node for which there is room is not refused. -/
lemma Sound.exists_add (h : p.Sound) (hroom : HasRoom p.limit? (p.nodesOf cluster) n) :
    ∃ p', p.add cluster n = .ok p' := by
  cases p with
  | hashed p =>
      obtain ⟨q, hq⟩ := HashedNodes.Sound.exists_add h hroom.new (hroom.space p.max rfl)
      exact ⟨hashed q, map_eq_ok_iff.mpr ⟨q, hq, rfl⟩⟩
  | custom p =>
      obtain ⟨q, hq⟩ := CustomNodes.Sound.exists_add h hroom.new (hroom.site rfl)
      exact ⟨custom q, map_eq_ok_iff.mpr ⟨q, hq, rfl⟩⟩

end NodePlacement

end Federation
