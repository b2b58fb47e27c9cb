import Federation.Proofs.Placement.NodesOf

/-!
Placements that agree about a cluster.

* `NodePlacement.Agree`: the same is known of a cluster, whatever is known of others.
* `NodePlacement.Agree.settle_add`, `NodePlacement.Agree.settle_remove`: a change of the cluster is
  answered alike, and the placements agree about it afterwards.
* `NodePlacement.agree_settle_add`, `NodePlacement.agree_settle_remove`: a change of another cluster
  is not noticed.
* `NodePlacement.eq_of_agree`: placements that agree about all clusters are equal.
-/

namespace Federation

/-! ### By hashing -/

namespace HashedNodes

variable {p p' : HashedNodes} {c d : String} {n : Node}

/-- The cluster has the same ring. -/
structure Agree (c : String) (p p' : HashedNodes) : Prop where
  max : p.max = p'.max
  hash : p.hash = p'.hash
  ring : p.ring? c = p'.ring? c

lemma Agree.ringOf_eq (h : Agree c p p') : p.ringOf c = p'.ringOf c := by
  rw [ringOf, ringOf, h.ring, h.max, h.hash]

lemma ring?_insert {r : Ring} (d : String) :
    ({ p with rings := p.rings.insert r } : HashedNodes).ring? d =
      if r.cluster = d then some r else p.ring? d :=
  Keyed.find?_insert

/-- Another ring in the place of an old one is noticed in its cluster only. -/
lemma agree_insert {r : Ring} (hd : d ≠ r.cluster) : Agree d p { p with rings := p.rings.insert r } :=
  ⟨rfl, rfl, ((ring?_insert d).trans (if_neg hd.symm)).symm⟩

lemma Agree.insert (h : Agree c p p') (r : Ring) :
    Agree c { p with rings := p.rings.insert r } { p' with rings := p'.rings.insert r } := by
  refine ⟨h.max, h.hash, ?_⟩
  rw [ring?_insert, ring?_insert, h.ring]

lemma remove_eq (p : HashedNodes) (c : String) (n : Node) : p.remove c n =
    ((p.ringOf c).remove n).map fun r => { p with rings := p.rings.insert r } := by
  rw [remove, ringOf]
  cases p.ring? c with
  | none => rfl
  | some r => rfl

lemma cluster_of_add {r : Ring} (hr : (p.ringOf c).add n = .ok r) : r.cluster = c := by
  rw [(Ring.add_eq_ok_iff.mp hr).2.2, Ring.withNodes_cluster, ringOf_cluster]

lemma cluster_of_remove {r : Ring} (hr : (p.ringOf c).remove n = .ok r) : r.cluster = c := by
  rw [(Ring.remove_eq_ok_iff.mp hr).2, Ring.withNodes_cluster, ringOf_cluster]

/-- Placements that agree about all clusters are equal. -/
lemma eq_of_agree (h : ∀ c, Agree c p p') : p = p' := by
  obtain ⟨hmax, hhash, -⟩ := h ""
  have hrings : p.rings = p'.rings := Keyed.ext_find? fun c => (h c).ring
  cases p
  cases p'
  simp_all

end HashedNodes

/-! ### By a strategy -/

namespace CustomNodes

variable {p p' : CustomNodes} {c d : String} {n : Node}

/-- The cluster has the same nodes, at the same addresses. -/
structure Agree (c : String) (p p' : CustomNodes) : Prop where
  strategy : p.strategy = p'.strategy
  nodes : p.nodes.get? c = p'.nodes.get? c
  registry : ∀ a, p.registry.get? ⟨c, a⟩ = p'.registry.get? ⟨c, a⟩

lemma Agree.nodesOf_eq (h : Agree c p p') : p.nodesOf c = p'.nodesOf c := by
  rw [nodesOf, nodesOf, h.nodes]

lemma Agree.contains_eq (h : Agree c p p') (a : Address) :
    p.registry.contains ⟨c, a⟩ = p'.registry.contains ⟨c, a⟩ := by
  rw [Keyed.contains_eq_isSome, Keyed.contains_eq_isSome, ← Option.isSome_map (f := Prod.snd),
    ← Option.isSome_map (f := Prod.snd)]
  exact congrArg Option.isSome (h.registry a)

/-- Placements that agree about all clusters are equal. -/
lemma eq_of_agree (h : ∀ c, Agree c p p') : p = p' := by
  have hstrategy := (h "").strategy
  have hnodes : p.nodes = p'.nodes := Assoc.ext_get? fun c => (h c).nodes
  have hregistry : p.registry = p'.registry :=
    Assoc.ext_get? fun s => (h s.cluster).registry s.address
  cases p
  cases p'
  simp_all

end CustomNodes

/-! ### Either way -/

namespace NodePlacement

variable {p p' p'' : NodePlacement} {c d : String} {n : Node}

/-- The same is known of a cluster. -/
def Agree (c : String) : NodePlacement → NodePlacement → Prop
  | hashed p, hashed p' => p.Agree c p'
  | custom p, custom p' => p.Agree c p'
  | _, _ => False

namespace Agree

lemma refl (c : String) (p : NodePlacement) : Agree c p p := by
  cases p with
  | hashed p => exact ⟨rfl, rfl, rfl⟩
  | custom p => exact ⟨rfl, rfl, fun _ => rfl⟩

lemma symm (h : Agree c p p') : Agree c p' p := by
  cases p <;> cases p'
  case hashed.hashed => exact ⟨h.max.symm, h.hash.symm, h.ring.symm⟩
  case custom.custom => exact ⟨h.strategy.symm, h.nodes.symm, fun a => (h.registry a).symm⟩
  all_goals exact h.elim

lemma trans (h : Agree c p p') (h' : Agree c p' p'') : Agree c p p'' := by
  cases p <;> cases p' <;> cases p''
  case hashed.hashed.hashed => exact ⟨h.max.trans h'.max, h.hash.trans h'.hash, h.ring.trans h'.ring⟩
  case custom.custom.custom =>
    exact ⟨h.strategy.trans h'.strategy, h.nodes.trans h'.nodes,
      fun a => (h.registry a).trans (h'.registry a)⟩
  all_goals first | exact h.elim | exact h'.elim

lemma nodesOf_eq (h : Agree c p p') : p.nodesOf c = p'.nodesOf c := by
  cases p <;> cases p'
  case hashed.hashed p p' =>
    rw [nodesOf, nodesOf, HashedNodes.nodesOf_eq, HashedNodes.nodesOf_eq,
      HashedNodes.Agree.ringOf_eq h]
  case custom.custom => exact CustomNodes.Agree.nodesOf_eq h
  all_goals exact h.elim

end Agree

/-- Placements that agree about all clusters are equal. -/
lemma eq_of_agree (h : ∀ c, Agree c p p') : p = p' := by
  cases p <;> cases p'
  case hashed.hashed => exact congrArg hashed (HashedNodes.eq_of_agree h)
  case custom.custom => exact congrArg custom (CustomNodes.eq_of_agree h)
  all_goals exact (h "").elim

/-! ### Changes -/

/-- A node is added alike where the placements agree, and they still do afterwards. -/
lemma Agree.settle_add (h : Agree c p p') (n : Node) :
    (settle p (p.add c n)).1 = (settle p' (p'.add c n)).1 ∧
      Agree c (settle p (p.add c n)).2 (settle p' (p'.add c n)).2 := by
  cases p <;> cases p'
  case hashed.hashed p p' =>
    have hring := HashedNodes.Agree.ringOf_eq h
    rw [add, add, HashedNodes.add, HashedNodes.add, ← HashedNodes.ringOf, ← HashedNodes.ringOf,
      ← hring]
    cases (p.ringOf c).add n with
    | error e => exact ⟨rfl, h⟩
    | ok r => exact ⟨rfl, HashedNodes.Agree.insert h r⟩
  case custom.custom p p' =>
    have hnodes := CustomNodes.Agree.nodesOf_eq h
    rw [add, add, CustomNodes.add, CustomNodes.add, ← hnodes, ← CustomNodes.Agree.contains_eq h]
    split
    next => exact ⟨rfl, h⟩
    next =>
      refine ⟨rfl, h.strategy, ?_, fun a => ?_⟩
      · rw [Assoc.get?_insert, Assoc.get?_insert, h.nodes]
      · rw [Assoc.get?_insert, Assoc.get?_insert, h.registry]
  all_goals exact h.elim

/-- A node is removed alike where the placements agree, and they still do afterwards. -/
lemma Agree.settle_remove (h : Agree c p p') (n : Node) :
    (settle p (p.remove c n)).1 = (settle p' (p'.remove c n)).1 ∧
      Agree c (settle p (p.remove c n)).2 (settle p' (p'.remove c n)).2 := by
  cases p <;> cases p'
  case hashed.hashed p p' =>
    rw [remove, remove, HashedNodes.remove_eq, HashedNodes.remove_eq,
      ← HashedNodes.Agree.ringOf_eq h]
    cases (p.ringOf c).remove n with
    | error e => exact ⟨rfl, h⟩
    | ok r => exact ⟨rfl, HashedNodes.Agree.insert h r⟩
  case custom.custom p p' =>
    rw [remove, remove, CustomNodes.remove, CustomNodes.remove, ← CustomNodes.Agree.nodesOf_eq h]
    cases (p.nodesOf c).find? n.name with
    | none => exact ⟨rfl, h⟩
    | some stored =>
        refine ⟨rfl, h.strategy, ?_, fun a => ?_⟩
        · rw [Assoc.get?_insert, Assoc.get?_insert, h.nodes]
        · rw [Assoc.get?_erase, Assoc.get?_erase, h.registry]
  all_goals exact h.elim

/-- A node that is added to one cluster is not noticed in another, whatever its name. -/
lemma agree_settle_add (hd : d ≠ c) (p : NodePlacement) (n : Node) :
    Agree d p (settle p (p.add c n)).2 := by
  refine settle_induction (Agree.refl d p) fun p' hp => ?_
  cases p with
  | hashed p =>
      obtain ⟨q, hq, rfl⟩ := map_eq_ok_iff.mp hp
      obtain ⟨r, hr, rfl⟩ := HashedNodes.add_eq_ok_iff.mp hq
      exact HashedNodes.agree_insert (HashedNodes.cluster_of_add hr ▸ hd)
  | custom p =>
      obtain ⟨q, hq, rfl⟩ := map_eq_ok_iff.mp hp
      rw [CustomNodes.add] at hq
      split at hq
      next => cases hq
      next =>
        obtain rfl := Except.ok.inj hq
        refine ⟨rfl, ?_, fun a => ?_⟩
        · rw [Assoc.get?_insert, if_neg hd.symm]
        · rw [Assoc.get?_insert, if_neg fun he => hd (congrArg Site.cluster he).symm]

/-- A node that is removed from one cluster is not noticed in another, whatever its name. -/
lemma agree_settle_remove (hd : d ≠ c) (p : NodePlacement) (n : Node) :
    Agree d p (settle p (p.remove c n)).2 := by
  refine settle_induction (Agree.refl d p) fun p' hp => ?_
  cases p with
  | hashed p =>
      obtain ⟨q, hq, rfl⟩ := map_eq_ok_iff.mp hp
      obtain ⟨r, hr, rfl⟩ := HashedNodes.remove_eq_ok_iff.mp hq
      exact HashedNodes.agree_insert (HashedNodes.cluster_of_remove hr ▸ hd)
  | custom p =>
      obtain ⟨q, hq, rfl⟩ := map_eq_ok_iff.mp hp
      rw [CustomNodes.remove] at hq
      split at hq
      next => cases hq
      next stored _ =>
        obtain rfl := Except.ok.inj hq
        refine ⟨rfl, ?_, fun a => ?_⟩
        · rw [Assoc.get?_insert, if_neg hd.symm]
        · rw [Assoc.get?_erase, if_neg fun he => hd (congrArg Site.cluster he)]

end NodePlacement

end Federation
