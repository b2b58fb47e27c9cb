import Federation.Proofs.Routing.RouterHistory

/-!
Lookups that are hashed on both levels.

* `Router.Hashed`: clusters and nodes are placed by one hash function, the clusters among which it
  chooses are the registered ones, and all rings are sound. Every change keeps this
  (`Router.Hashed.call`).
* `hashedName`: the name to which a lookup leads, in closed form over the names alone.
* `Router.hashed_lookup`: after any history a hashed router answers by that closed form, so that two
  routers which know the same names answer alike.
-/

namespace Federation

/-- Clusters and nodes are placed by one hash function, and nothing that is derived from the
registered clusters and the nodes is out of date. -/
structure Router.Hashed (max : ℕ) (hash : HashFunction) (r : Router) : Prop where
  placement_eq : r.placement = .hashed ⟨hash, r.clusters.toList⟩
  nodes_eq : ∃ p : HashedNodes, r.nodes = .hashed p ∧ p.Sound ∧ p.max = max ∧ p.hash = hash

/-- A router that hashes on both levels and knows nothing yet. -/
def Router.hashed (max : ℕ) (hash : HashFunction) : Router :=
  .ofPlacements (.hashed (.ofLimit max hash)) (.ofHash hash)

/-- What stands at the position to which `text` is hashed among `max` slots, if these are divided
among the items of `l`. -/
def shareOf {α : Type} (hash : HashFunction) (max : ℕ) (text : String) (l : List α) : Option α :=
  l[min (hash.slot text max / (max / l.length)) (l.length - 1)]?

/-- The name of the node to which a lookup leads, where `nodes` are the names of the nodes of a
cluster: one hash of the text chooses the cluster, another one the share of a node. -/
def hashedName (hash : HashFunction) (max : ℕ) (clusters : List String)
    (nodes : String → List String) (l : Lookup) : Option String :=
  clusters[hash.slot l.text clusters.length]?.bind fun c => shareOf hash max l.text (nodes c)

section Closed

variable {α β : Type} {hash : HashFunction} {max : ℕ} {text : String}

lemma shareOf_map (f : α → β) (l : List α) :
    shareOf hash max text (l.map f) = (shareOf hash max text l).map f := by
  rw [shareOf, shareOf, List.length_map, List.getElem?_map]

lemma shareOf_eq_none_iff {l : List α} : shareOf hash max text l = none ↔ l = [] := by
  rw [shareOf, List.getElem?_eq_none_iff]
  constructor
  · intro h
    exact List.length_eq_zero_iff.mp (by omega)
  · rintro rfl
    simp

lemma hashed_position_eq_none_iff {l : List α} : l[hash.slot text l.length]? = none ↔ l = [] := by
  rw [List.getElem?_eq_none_iff]
  constructor
  · intro h
    by_contra hne
    exact absurd (hash.slot_lt text l.length (List.length_pos_iff.mpr hne)) (by omega)
  · rintro rfl
    simp

end Closed

namespace Router

variable {max : ℕ} {hash : HashFunction} {r : Router}

lemma hashed_hashed (max : ℕ) (hash : HashFunction) : (hashed max hash).Hashed max hash :=
  ⟨rfl, _, rfl, HashedNodes.sound_ofLimit max hash, rfl, rfl⟩

/-- A change keeps all that is derived up to date, also where it is refused. -/
lemma Hashed.call (h : r.Hashed max hash) (c : RouterCall) : (r.call c).2.Hashed max hash := by
  obtain ⟨p, hp, hsound, hmax, hhash⟩ := h.nodes_eq
  cases c with
  | setUp clusters =>
      refine ⟨?_, h.nodes_eq⟩
      change r.placement.setUp _ = _
      rw [h.placement_eq]
      rfl
  | setLocalNode n => exact ⟨h.placement_eq, h.nodes_eq⟩
  | addRoute cluster n =>
      refine settle_induction h fun r' hr => ?_
      obtain ⟨-, q, hq, rfl⟩ := addRoute_eq_ok_iff.mp hr
      rw [hp] at hq
      obtain ⟨p', hadd, rfl⟩ := map_eq_ok_iff.mp hq
      obtain ⟨hmax', hhash'⟩ := HashedNodes.max_of_add hadd
      exact ⟨h.placement_eq, p', rfl, hsound.add hadd, hmax'.trans hmax, hhash'.trans hhash⟩
  | removeRoute cluster n =>
      refine settle_induction h fun r' hr => ?_
      obtain ⟨-, q, hq, rfl⟩ := removeRoute_eq_ok_iff.mp hr
      rw [hp] at hq
      obtain ⟨p', hrem, rfl⟩ := map_eq_ok_iff.mp hq
      obtain ⟨hmax', hhash'⟩ := HashedNodes.max_of_remove hrem
      exact ⟨h.placement_eq, p', rfl, hsound.remove hrem, hmax'.trans hmax, hhash'.trans hhash⟩
  | clear =>
      refine ⟨h.placement_eq, p.clear, ?_, hsound.clear, hmax, hhash⟩
      change r.nodes.clear = _
      rw [hp]
      rfl

lemma hashed_after (max : ℕ) (hash : HashFunction) (calls : List RouterCall) :
    ((hashed max hash).after calls).Hashed max hash := by
  induction calls using List.reverseRecOn with
  | nil => exact hashed_hashed max hash
  | append_singleton calls c ih =>
      rw [after_concat]
      exact ih.call c

/-- The node to which a lookup leads: the hash chooses a cluster, and in it the share of a node. -/
lemma Hashed.nodeFor_eq (h : r.Hashed max hash) (l : Lookup) :
    r.nodeFor l = (r.clusters.keys[hash.slot l.text r.clusters.keys.length]?.bind fun c =>
      shareOf hash max l.text (r.nodes.nodesOf c).toList).elim (.error .missingRoute) .ok := by
  obtain ⟨p, hp, hsound, rfl, rfl⟩ := h.nodes_eq
  have hcluster : r.placement.clusterFor l =
      .ok r.clusters.toList[p.hash.slot l.text r.clusters.toList.length]? := by
    rw [h.placement_eq, ClusterPlacement.clusterFor, HashedClusters.clusterFor]
    split
    next hempty =>
      have hnil : r.clusters.toList = [] := List.isEmpty_iff.mp hempty
      simp [hnil]
    next => rfl
  rw [nodeFor, hcluster, Keyed.keys, List.length_map, List.getElem?_map]
  cases r.clusters.toList[p.hash.slot l.text r.clusters.toList.length]? with
  | none => rfl
  | some c =>
      have hnode : r.nodes.nodeFor c.name l =
          shareOf p.hash p.max l.text (r.nodes.nodesOf c.name).toList := by
        rw [hp]
        exact hsound.nodeFor_eq c.name l
      simp only [hnode, Option.map_some, Option.bind_some]
      cases shareOf p.hash p.max l.text (r.nodes.nodesOf c.name).toList <;> rfl

/-- The name to which a lookup leads depends on the known names only. -/
lemma Hashed.map_nodeFor_eq (h : r.Hashed max hash) (l : Lookup) :
    (r.nodeFor l).map Node.name =
      (hashedName hash max r.clusters.keys (fun c => (r.nodes.nodesOf c).keys) l).elim
        (.error .missingRoute) .ok := by
  rw [h.nodeFor_eq, hashedName]
  cases r.clusters.keys[hash.slot l.text r.clusters.keys.length]? with
  | none => rfl
  | some c =>
      rw [Option.bind_some, Option.bind_some, Keyed.keys, shareOf_map]
      cases shareOf hash max l.text (r.nodes.nodesOf c).toList <;> rfl

end Router

lemma hashedName_congr {hash : HashFunction} {max : ℕ} {clusters : List String}
    {nodes nodes' : String → List String} (h : ∀ c ∈ clusters, nodes c = nodes' c) (l : Lookup) :
    hashedName hash max clusters nodes l = hashedName hash max clusters nodes' l := by
  rw [hashedName, hashedName]
  cases hc : clusters[hash.slot l.text clusters.length]? with
  | none => rfl
  | some c => rw [Option.bind_some, Option.bind_some, h c (List.mem_of_getElem? hc)]

/-- After any history of changes, refused ones included, a router that hashes on both levels answers
each lookup in closed form: with `k` clusters and `m` nodes in the cluster at position
`hash.slot text k` of the names, with the node at position
`min (hash.slot text max / (max / m)) (m - 1)`. It misses a route exactly if `k = 0` or `m = 0`. So
any two histories after which the same names of clusters and of their nodes are known lead all
lookups to nodes of the same names. -/
theorem Router.hashed_lookup (max : ℕ) (hash : HashFunction) (calls : List RouterCall)
    (l : Lookup) :
    let r := (hashed max hash).after calls
    (r.clusters.keys.Pairwise (· < ·) ∧ ∀ c, (r.nodes.nodesOf c).keys.Pairwise (· < ·)) ∧
    r.nodeFor l = (r.clusters.keys[hash.slot l.text r.clusters.keys.length]?.bind fun c =>
      (r.nodes.nodesOf c).toList[min (hash.slot l.text max / (max / (r.nodes.nodesOf c).size))
        ((r.nodes.nodesOf c).size - 1)]?).elim (.error .missingRoute) .ok ∧
    (r.nodeFor l = .error .missingRoute ↔ r.clusters.keys = [] ∨
      ∃ c, r.clusters.keys[hash.slot l.text r.clusters.keys.length]? = some c ∧
        (r.nodes.nodesOf c).toList = []) ∧
    ∀ calls', r.clusters.keys = ((hashed max hash).after calls').clusters.keys →
      (∀ c ∈ r.clusters.keys, (r.nodes.nodesOf c).keys =
        (((hashed max hash).after calls').nodes.nodesOf c).keys) →
      (r.nodeFor l).map Node.name =
        (((hashed max hash).after calls').nodeFor l).map Node.name := by
  intro r
  have hr : r.Hashed max hash := hashed_after max hash calls
  refine ⟨⟨Keyed.pairwise_keys_lt _, fun c => Keyed.pairwise_keys_lt _⟩, hr.nodeFor_eq l, ?_,
    fun calls' hclusters hnodes => ?_⟩
  · rw [hr.nodeFor_eq]
    cases hc : r.clusters.keys[hash.slot l.text r.clusters.keys.length]? with
    | none => simpa using hashed_position_eq_none_iff.mp hc
    | some c =>
        have hne : r.clusters.keys ≠ [] := List.ne_nil_of_mem (List.mem_of_getElem? hc)
        rw [Option.bind_some]
        cases hs : shareOf hash max l.text (r.nodes.nodesOf c).toList with
        | none => simpa [hne] using shareOf_eq_none_iff.mp hs
        | some n =>
            have hnodes : (r.nodes.nodesOf c).toList ≠ [] := fun hnil => by
              rw [shareOf_eq_none_iff.mpr hnil] at hs
              exact absurd hs (by simp)
            simp [hne, hnodes]
  · rw [hr.map_nodeFor_eq, (hashed_after max hash calls').map_nodeFor_eq, ← hclusters,
      hashedName_congr hnodes]

/-- Two processes that add the same nodes in different orders, one of them even twice, agree. -/
theorem Router.hashed_lookup_reordered :
    (((hashed 4 (.ofCode String.length)).after [.setUp (.ofList [.ofRemote "asia"]),
        .addRoute "asia" ⟨"a", ⟨"host", 1⟩⟩, .addRoute "asia" ⟨"b", ⟨"host", 2⟩⟩]).nodeFor
          (.ofBucket "orders")).map Node.name =
      (((hashed 4 (.ofCode String.length)).after [.setUp (.ofList [.ofRemote "asia"]),
        .addRoute "asia" ⟨"b", ⟨"host", 2⟩⟩, .addRoute "asia" ⟨"a", ⟨"host", 1⟩⟩,
        .addRoute "asia" ⟨"b", ⟨"host", 3⟩⟩]).nodeFor (.ofBucket "orders")).map Node.name := by
  obtain ⟨-, -, -, hagree⟩ := hashed_lookup 4 (.ofCode String.length)
    [.setUp (.ofList [.ofRemote "asia"]), .addRoute "asia" ⟨"a", ⟨"host", 1⟩⟩,
      .addRoute "asia" ⟨"b", ⟨"host", 2⟩⟩] (.ofBucket "orders")
  exact hagree _ (by decide +kernel) (by decide +kernel)

end Federation
