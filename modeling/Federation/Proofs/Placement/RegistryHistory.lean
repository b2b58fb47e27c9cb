import Federation.Proofs.Placement.Agreement
import Federation.Proofs.Placement.Room

/-!
Registries in the course of changes.

Nodes that are placed by a strategy are kept twice: by name in the set of their cluster, and by
cluster and address in the registry to which the strategy's answers lead.

* `NodeCall`, `CustomNodes.call`, `CustomNodes.after`: a change asked of the nodes, its answer with
  the nodes after it, and the nodes after a history of changes.
* `CustomNodes.Stands`: a node was added by a history, and nothing that came later has removed it.
* `CustomNodes.SameAnswers`: whoever asks about a cluster gets the same answers.
  `CustomNodes.sameAnswers_call`: a change for one cluster has no influence on those about others.
* `CustomNodes.registry_follows_nodes`: after any history the registry leads to the nodes that
  stand, each at the address at which it was added, and what is refused next depends on nothing
  else.
-/

namespace Federation

/-- A change asked of the nodes of all clusters. -/
inductive NodeCall where
  | add (cluster : String) (n : Node)
  | remove (cluster : String) (n : Node)
  | clear

namespace NodeCall

/-- The cluster that a change is for. -/
def cluster? : NodeCall → Option String
  | add c _ | remove c _ => some c
  | clear => none

/-- Whether a change takes the node of a name away from a cluster. -/
def Drops (cluster name : String) : NodeCall → Prop
  | add _ _ => False
  | remove c n => c = cluster ∧ n.name = name
  | clear => True

end NodeCall

namespace CustomNodes

variable {p p' : CustomNodes} {c d : String} {n m : Node} {x : NodeCall}

/-- The answer to a change, and the nodes after it. -/
def call (p : CustomNodes) : NodeCall → Except Fault Unit × CustomNodes
  | .add c n => settle p (p.add c n)
  | .remove c n => settle p (p.remove c n)
  | .clear => (.ok (), p.clear)

/-- The nodes after a history of changes, the first one first. -/
def after (p : CustomNodes) (calls : List NodeCall) : CustomNodes :=
  calls.foldl (fun p x => (p.call x).2) p

@[simp] lemma after_concat (p : CustomNodes) (calls : List NodeCall) (x : NodeCall) :
    p.after (calls ++ [x]) = ((p.after calls).call x).2 := by
  simp [after]

/-- The node `n` was added to the cluster at some point of the history, where this was not refused,
and no change after that point has taken it away. -/
def Stands (p : CustomNodes) (calls : List NodeCall) (c : String) (n : Node) : Prop :=
  ∃ earlier later, calls = earlier ++ .add c n :: later ∧
    ((p.after earlier).call (.add c n)).1 = .ok () ∧ ∀ x ∈ later, ¬ x.Drops c n.name

/-! ### Single changes -/

lemma Sound.call (h : p.Sound) (x : NodeCall) : (p.call x).2.Sound := by
  cases x with
  | add c n => exact settle_induction h fun _ hp => h.add hp
  | remove c n => exact settle_induction h fun _ hp => h.remove hp
  | clear => exact sound_clear p

/-- A change concerns the nodes only. -/
lemma strategy_call (p : CustomNodes) (x : NodeCall) : (p.call x).2.strategy = p.strategy := by
  cases x with
  | add c n =>
      refine settle_induction (P := fun q : CustomNodes => q.strategy = p.strategy) rfl
        fun q hq => ?_
      rw [add] at hq
      split at hq
      next => cases hq
      next =>
        obtain rfl := Except.ok.inj hq
        rfl
  | remove c n =>
      refine settle_induction (P := fun q : CustomNodes => q.strategy = p.strategy) rfl
        fun q hq => ?_
      rw [remove] at hq
      split at hq
      next => cases hq
      next =>
        obtain rfl := Except.ok.inj hq
        rfl
  | clear => rfl

lemma call_of_error {e : Fault} (h : (p.call x).1 = .error e) : (p.call x).2 = p := by
  cases x with
  | add c n => exact settle_snd_of_error h
  | remove c n => exact settle_snd_of_error h
  | clear => cases h

/-- A node is refused where a node of the cluster has its name or its address. -/
lemma Sound.call_add (h : p.Sound) (c : String) (n : Node) : (p.call (.add c n)).1 =
    if ∃ m ∈ (p.nodesOf c).toList, m.name = n.name ∨ m.address = n.address then
      .error (.duplicateNode c n.name) else .ok () := by
  have htaken : ((p.nodesOf c).contains n.name || p.registry.contains ⟨c, n.address⟩) = true ↔
      ∃ m ∈ (p.nodesOf c).toList, m.name = n.name ∨ m.address = n.address := by
    rw [Bool.or_eq_true, Keyed.contains_iff, h.contains_iff, ← exists_or]
    exact exists_congr fun m => and_or_left.symm
  rw [CustomNodes.call, CustomNodes.add]
  simp only [htaken]
  split <;> rfl

/-- A removal is refused where nobody has the name. -/
lemma call_remove (p : CustomNodes) (c : String) (n : Node) : (p.call (.remove c n)).1 =
    if ∃ m ∈ (p.nodesOf c).toList, m.name = n.name then .ok ()
    else .error (.unknownNode c n.name) := by
  rw [call, remove]
  simp only [← Keyed.contains_iff, Keyed.contains_eq_isSome]
  cases (p.nodesOf c).find? n.name <;> rfl

/-- The name of the argument is all that counts. -/
lemma call_remove_congr (p : CustomNodes) (c : String) (h : n.name = m.name) :
    p.call (.remove c n) = p.call (.remove c m) := by
  rw [call, call, remove, remove, h]

/-- The address of the node that was kept under the name becomes free, and no other does. -/
lemma registry_remove (hm : m ∈ (p.nodesOf c).toList) (hname : m.name = n.name) (a : Address) :
    (p.call (.remove c n)).2.registry.get? ⟨c, a⟩ =
      if a = m.address then none else p.registry.get? ⟨c, a⟩ := by
  have hfound : (p.nodesOf c).find? n.name = some m := Keyed.find?_eq_some_iff.mpr ⟨hm, hname⟩
  rw [call, remove, hfound, settle_ok, Assoc.get?_erase]
  simp only [Site.mk.injEq, true_and]

/-- The nodes of a cluster after a change: the one that it has added, and those that it has not
taken away. -/
lemma mem_call_iff (p : CustomNodes) (x : NodeCall) (c : String) (n : Node) :
    n ∈ ((p.call x).2.nodesOf c).toList ↔
      (x = .add c n ∧ (p.call x).1 = .ok ()) ∨ (n ∈ (p.nodesOf c).toList ∧ ¬ x.Drops c n.name) := by
  cases x with
  | add d m =>
      simp only [call, NodeCall.Drops, not_false_eq_true, and_true, NodeCall.add.injEq]
      cases hadd : p.add d m with
      | error e => simp
      | ok q =>
          rw [settle_ok, nodesOf_add hadd]
          split
          next hc =>
            subst hc
            have hne := Keyed.contains_eq_false_iff.mp (not_contains_of_add hadd)
            rw [Keyed.mem_insert, eq_comm (a := m)]
            exact or_congr (by simp) ⟨fun hn => hn.1, fun hn => ⟨hn, hne n hn⟩⟩
          next hc => simp [Ne.symm hc]
  | remove d m =>
      simp only [call, NodeCall.Drops, reduceCtorEq, false_and, false_or]
      cases hrem : p.remove d m with
      | error e =>
          rw [settle_error]
          refine ⟨fun hn => ⟨hn, ?_⟩, fun hn => hn.1⟩
          rintro ⟨rfl, hname⟩
          obtain ⟨q, hq⟩ := contains_iff_remove.mp (Keyed.contains_iff.mpr ⟨n, hn, hname.symm⟩)
          cases hrem.symm.trans hq
      | ok q =>
          rw [settle_ok, nodesOf_remove hrem]
          split
          next hc => rw [Keyed.mem_erase, hc, eq_self, true_and, ne_comm]
          next hc => simp [Ne.symm hc]
  | clear => simp [call, NodeCall.Drops, nodesOf_clear]

/-! ### Other clusters -/

/-- Whoever asks about a cluster gets the same answers: which nodes it has, where lookups lead, and
what is refused. -/
structure SameAnswers (c : String) (p p' : CustomNodes) : Prop where
  nodes : p'.nodesOf c = p.nodesOf c
  lookups : ∀ l, p'.nodeFor c l = p.nodeFor c l
  changes : ∀ x : NodeCall, x.cluster? = some c → (p'.call x).1 = (p.call x).1

/-- The settlement of a change is the same whether it is asked of these nodes or of a placement. -/
lemma settle_custom (p : CustomNodes) (r : Except Fault CustomNodes) :
    settle (NodePlacement.custom p) (r.map .custom) = ((settle p r).1, .custom (settle p r).2) := by
  cases r <;> rfl

/-- Nodes that agree about a cluster answer alike. -/
lemma Agree.sameAnswers (h : Agree c p p') : SameAnswers c p p' := by
  have hplaced : NodePlacement.Agree c (.custom p) (.custom p') := h
  refine ⟨h.nodesOf_eq.symm, fun l => ?_, fun x hx => ?_⟩
  · rw [nodeFor, nodeFor, h.strategy]
    exact Option.bind_congr fun a _ => (h.registry a).symm
  · cases x with
    | add d n =>
        obtain rfl := Option.some.inj hx
        have hadd := (hplaced.settle_add n).1
        rw [NodePlacement.add, NodePlacement.add, settle_custom, settle_custom] at hadd
        exact hadd.symm
    | remove d n =>
        obtain rfl := Option.some.inj hx
        have hrem := (hplaced.settle_remove n).1
        rw [NodePlacement.remove, NodePlacement.remove, settle_custom, settle_custom] at hrem
        exact hrem.symm
    | clear => cases hx

/-- A change for one cluster is not noticed by those who ask about another. -/
theorem sameAnswers_call (p : CustomNodes) (hx : x.cluster? = some c) (hd : d ≠ c) :
    SameAnswers d p (p.call x).2 := by
  cases x with
  | add c n =>
      obtain rfl := Option.some.inj hx
      have hadd := NodePlacement.agree_settle_add hd (.custom p) n
      rw [NodePlacement.add, settle_custom] at hadd
      exact Agree.sameAnswers hadd
  | remove c n =>
      obtain rfl := Option.some.inj hx
      have hrem := NodePlacement.agree_settle_remove hd (.custom p) n
      rw [NodePlacement.remove, settle_custom] at hrem
      exact Agree.sameAnswers hrem
  | clear => cases hx

/-! ### Histories -/

lemma sound_after (strategy : NodeStrategy) (calls : List NodeCall) :
    ((ofStrategy strategy).after calls).Sound := by
  induction calls using List.reverseRecOn with
  | nil => exact sound_ofStrategy strategy
  | append_singleton calls x ih =>
      rw [after_concat]
      exact ih.call x

lemma strategy_after (p : CustomNodes) (calls : List NodeCall) :
    (p.after calls).strategy = p.strategy := by
  induction calls using List.reverseRecOn with
  | nil => rfl
  | append_singleton calls x ih => rw [after_concat, strategy_call, ih]

/-- The nodes after a history that began without any are those that stand. -/
lemma mem_after_iff (strategy : NodeStrategy) (calls : List NodeCall) (c : String) (n : Node) :
    n ∈ (((ofStrategy strategy).after calls).nodesOf c).toList ↔
      (ofStrategy strategy).Stands calls c n := by
  induction calls using List.reverseRecOn with
  | nil =>
      refine iff_of_false List.not_mem_nil ?_
      rintro ⟨earlier, later, h, -⟩
      simp at h
  | append_singleton calls x ih =>
      rw [after_concat, mem_call_iff, ih]
      exact (exists_split_concat_iff
        (P := fun earlier x => (((ofStrategy strategy).after earlier).call x).1 = .ok ())).symm

/-- In a sound registry the nodes of a cluster differ in their addresses, as they do in their
names. -/
lemma Sound.nodup_addresses (h : p.Sound) (c : String) :
    ((p.nodesOf c).toList.map Node.address).Nodup :=
  (p.nodesOf c).nodup_keys.of_map.map_on fun _ hn _ hm he => h.eq_of_address_eq hn hm he

/-- A lookup leads to the node of the cluster at the address that the strategy answers. -/
lemma Sound.nodeFor_eq_some_iff (h : p.Sound) (c : String) (l : Lookup) (n : Node) :
    p.nodeFor c l = some n ↔ p.strategy c l = some n.address ∧ n ∈ (p.nodesOf c).toList := by
  rw [nodeFor, Option.bind_eq_some_iff]
  constructor
  · rintro ⟨a, ha, hn⟩
    obtain ⟨hmem, rfl⟩ := (h ⟨c, a⟩ n).mp hn
    exact ⟨ha, hmem⟩
  · rintro ⟨ha, hmem⟩
    exact ⟨n.address, ha, (h ⟨c, n.address⟩ n).mpr ⟨hmem, rfl⟩⟩

/-- After any history of changes that began without nodes, refused ones included, the nodes of each
cluster are exactly the ones that were added and not taken away since, each as it was added. No two
of them share a name or an address. The registry leads from an address to the node of the cluster
there, or nowhere if there is none, and so does every lookup whatever the strategy answers. A
further node is refused exactly if a node of the cluster has its name or its address, and a removal
exactly if nobody has the name. A removal goes by the name alone, and it frees the address of the
node that was kept under it. A refusal changes nothing, and a change for one cluster nothing about
the others. -/
theorem registry_follows_nodes (strategy : NodeStrategy) (calls : List NodeCall) :
    let p := (ofStrategy strategy).after calls
    (∀ c n, n ∈ (p.nodesOf c).toList ↔ (ofStrategy strategy).Stands calls c n) ∧
    (∀ c, ((p.nodesOf c).toList.map Node.name).Nodup ∧
      ((p.nodesOf c).toList.map Node.address).Nodup) ∧
    (∀ c a n, p.registry.get? ⟨c, a⟩ = some n ↔ n ∈ (p.nodesOf c).toList ∧ n.address = a) ∧
    (∀ c l n, p.nodeFor c l = some n ↔
      strategy c l = some n.address ∧ n ∈ (p.nodesOf c).toList) ∧
    (∀ c n, (p.call (.add c n)).1 =
      if ∃ m ∈ (p.nodesOf c).toList, m.name = n.name ∨ m.address = n.address then
        .error (.duplicateNode c n.name) else .ok ()) ∧
    (∀ c n, (p.call (.remove c n)).1 =
      if ∃ m ∈ (p.nodesOf c).toList, m.name = n.name then .ok ()
      else .error (.unknownNode c n.name)) ∧
    (∀ c n m, n.name = m.name → p.call (.remove c n) = p.call (.remove c m)) ∧
    (∀ c n, ∀ m ∈ (p.nodesOf c).toList, m.name = n.name → ∀ a,
      (p.call (.remove c n)).2.registry.get? ⟨c, a⟩ =
        if a = m.address then none else p.registry.get? ⟨c, a⟩) ∧
    (∀ x e, (p.call x).1 = .error e → (p.call x).2 = p) ∧
    ∀ x c d, x.cluster? = some c → d ≠ c → SameAnswers d p (p.call x).2 := by
  intro p
  have hsound : p.Sound := sound_after strategy calls
  have hstrategy : p.strategy = strategy := strategy_after _ calls
  refine ⟨mem_after_iff strategy calls,
    fun c => ⟨(p.nodesOf c).nodup_keys, hsound.nodup_addresses c⟩, fun c a n => hsound ⟨c, a⟩ n,
    fun c l n => ?_, hsound.call_add, call_remove p, fun c n m h => call_remove_congr p c h,
    fun c n m hm h a => registry_remove hm h a, fun x e he => call_of_error he,
    fun x c d hx hd => sameAnswers_call p hx hd⟩
  rw [← hstrategy]
  exact hsound.nodeFor_eq_some_iff c l n

end CustomNodes

end Federation
