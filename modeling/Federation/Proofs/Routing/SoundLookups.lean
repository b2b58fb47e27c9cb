import Federation.Proofs.Routing.Directory
import Federation.Proofs.Routing.HashedLookups

/-!
Where lookups lead, whichever way data is placed.

* `ClusterPlacement.pick?`: the cluster among given ones that is picked for a lookup.
  `NodePlacement.serve?`: the node among given ones to which a lookup in a cluster leads.
* `NodePlacement.Admits`: the nodes to which a lookup in a cluster may lead.
  `NodePlacement.admits_of_serve?`, `NodePlacement.serve?_eq_none_iff`: it leads to one of them if
  there is one.
* `Router.Current`: neither way of placing data works with clusters or nodes that are out of date.
  Every change keeps this (`Router.Current.call`), and then a lookup leads to the node that serves it
  in the cluster that is picked (`Router.Current.nodeFor_eq`).
* `Router.lookup_sound`: after any history a lookup leads to a node that is held for the picked
  cluster, or a route is missing.
-/

namespace Federation

/-! ### Clusters -/

/-- Data is placed on clusters either way, and none was set up so far. -/
inductive ClusterPlacement.Blank : ClusterPlacement → Prop
  | hashed (hash : HashFunction) : Blank (.ofHash hash)
  | custom (strategy : ClusterStrategy) : Blank (.ofStrategy strategy)

namespace ClusterPlacement

/-- The cluster among the given ones that is picked for a lookup: the one at the position to which
it is hashed, or the one that the strategy names. -/
def pick? (clusters : ClusterSet) (l : Lookup) : ClusterPlacement → Option Cluster
  | hashed p => clusters.toList[p.hash.slot l.text clusters.size]?
  | custom p => (p.strategy l).bind clusters.find?

variable {p : ClusterPlacement} {clusters : ClusterSet} {l : Lookup} {c : Cluster}

lemma mem_of_pick? (h : p.pick? clusters l = some c) : c ∈ clusters.toList := by
  cases p with
  | hashed p => exact List.mem_of_getElem? h
  | custom p =>
      obtain ⟨name, -, hname⟩ := Option.bind_eq_some_iff.mp h
      exact (Keyed.find?_eq_some_iff.mp hname).1

/-- A placement that knows the given clusters picks one of them, or refuses the lookup. -/
lemma clusterFor_setUp (p : ClusterPlacement) (clusters : ClusterSet) (l : Lookup) (c : Cluster) :
    (p.setUp clusters).clusterFor l = .ok (some c) ↔ p.pick? clusters l = some c := by
  cases p with
  | hashed p =>
      rw [setUp, clusterFor, HashedClusters.clusterFor, Except.ok.injEq, pick?]
      split
      next hempty =>
        have hnil : clusters.toList = [] := List.isEmpty_iff.mp hempty
        simp [hnil]
      next => rfl
  | custom p =>
      rw [setUp, clusterFor, CustomClusters.clusterFor, pick?]
      dsimp only
      cases (p.strategy l).bind clusters.find? <;> simp [Except.map]

end ClusterPlacement

/-! ### Nodes -/

namespace NodePlacement

/-- The node among the given ones of a cluster to which a lookup leads: the owner of the share to
which it is hashed, or the one at the address that the strategy answers. -/
def serve? (cluster : String) (nodes : NodeSet) (l : Lookup) : NodePlacement → Option Node
  | hashed p => shareOf p.hash p.max l.text nodes.toList
  | custom p => (p.strategy cluster l).bind fun a => nodes.toList.find? fun n => n.address = a

/-- A lookup in the cluster may lead to the node: by hashing to any node, by a strategy to one at
exactly the address that it answers. -/
def Admits (cluster : String) (l : Lookup) (n : Node) : NodePlacement → Prop
  | hashed _ => True
  | custom p => p.strategy cluster l = some n.address

variable {p p' : NodePlacement} {cluster : String} {nodes : NodeSet} {l : Lookup} {n : Node}

lemma admits_of_serve? (h : p.serve? cluster nodes l = some n) :
    n ∈ nodes.toList ∧ p.Admits cluster l n := by
  cases p with
  | hashed p => exact ⟨List.mem_of_getElem? h, trivial⟩
  | custom p =>
      obtain ⟨a, ha, hfind⟩ := Option.bind_eq_some_iff.mp h
      have hn : n.address = a := by simpa using List.find?_some hfind
      refine ⟨List.mem_of_find?_eq_some hfind, ?_⟩
      rw [Admits, hn]
      exact ha

lemma serve?_eq_none_iff :
    p.serve? cluster nodes l = none ↔ ∀ n ∈ nodes.toList, ¬p.Admits cluster l n := by
  cases p with
  | hashed p =>
      rw [serve?, shareOf_eq_none_iff, List.eq_nil_iff_forall_not_mem]
      simp [Admits]
  | custom p =>
      rw [serve?, Option.bind_eq_none_iff]
      simp only [List.find?_eq_none, decide_eq_true_eq, Admits]
      constructor
      · exact fun h n hn ha => h n.address ha n hn rfl
      · rintro h a ha n hn rfl
        exact h n hn ha

/-- A sound placement leads lookups to the nodes that it holds. -/
lemma Sound.nodeFor_eq (h : p.Sound) (cluster : String) (l : Lookup) :
    p.nodeFor cluster l = p.serve? cluster (p.nodesOf cluster) l := by
  cases p with
  | hashed p => exact HashedNodes.Sound.nodeFor_eq h cluster l
  | custom p =>
      have hsound : p.Sound := h
      rw [nodeFor, CustomNodes.nodeFor, serve?]
      refine Option.bind_congr fun a _ => Option.ext fun n => ?_
      rw [hsound ⟨cluster, a⟩ n, nodesOf]
      constructor
      · rintro ⟨hn, rfl⟩
        -- no other node of the cluster has the address
        cases hfind : (p.nodesOf cluster).toList.find? fun m => m.address = n.address with
        | none => simpa using List.find?_eq_none.mp hfind n hn
        | some m =>
            have hm : m.address = n.address := by simpa using List.find?_some hfind
            rw [hsound.eq_of_address_eq (List.mem_of_find?_eq_some hfind) hn hm]
      · intro hfind
        exact ⟨List.mem_of_find?_eq_some hfind, by simpa using List.find?_some hfind⟩

/-- Two placements that lead lookups to the same ones of any given nodes. -/
def Alike (p p' : NodePlacement) : Prop :=
  ∀ cluster nodes l, p.serve? cluster nodes l = p'.serve? cluster nodes l

lemma alike_of_add (h : p.add cluster n = .ok p') : p'.Alike p := by
  intro d nodes l
  cases p with
  | hashed p =>
      obtain ⟨q, hq, rfl⟩ := map_eq_ok_iff.mp h
      obtain ⟨hmax, hhash⟩ := HashedNodes.max_of_add hq
      rw [serve?, serve?, hmax, hhash]
  | custom p =>
      obtain ⟨q, hq, rfl⟩ := map_eq_ok_iff.mp h
      rw [CustomNodes.add] at hq
      split at hq
      next => cases hq
      next =>
        obtain rfl := Except.ok.inj hq
        rfl

lemma alike_of_remove (h : p.remove cluster n = .ok p') : p'.Alike p := by
  intro d nodes l
  cases p with
  | hashed p =>
      obtain ⟨q, hq, rfl⟩ := map_eq_ok_iff.mp h
      obtain ⟨hmax, hhash⟩ := HashedNodes.max_of_remove hq
      rw [serve?, serve?, hmax, hhash]
  | custom p =>
      obtain ⟨q, hq, rfl⟩ := map_eq_ok_iff.mp h
      rw [CustomNodes.remove] at hq
      split at hq
      next => cases hq
      next =>
        obtain rfl := Except.ok.inj hq
        rfl

lemma alike_clear (p : NodePlacement) : p.clear.Alike p := by
  intro d nodes l
  cases p <;> rfl

end NodePlacement

/-! ### Routers -/

namespace Router

variable {nodes : NodePlacement} {placement : ClusterPlacement} {r : Router}

/-- The router places data in the given ways, and neither of them works with clusters or nodes that
are out of date. -/
structure Current (nodes : NodePlacement) (placement : ClusterPlacement) (r : Router) : Prop where
  placement_eq : r.placement = placement.setUp r.clusters
  sound : r.nodes.Sound
  alike : r.nodes.Alike nodes

lemma current_ofPlacements (hnodes : nodes.Blank) (hplacement : placement.Blank) :
    (ofPlacements nodes placement).Current nodes placement := by
  refine ⟨?_, (tidy_ofPlacements hnodes placement).sound, fun _ _ _ => rfl⟩
  cases hplacement <;> rfl

/-- Every change brings both placements up to date, also where it is refused. -/
lemma Current.call (h : r.Current nodes placement) (c : RouterCall) :
    (r.call c).2.Current nodes placement := by
  have hnodes : ∀ {p : NodePlacement}, p.Sound → p.Alike r.nodes →
      ({ r with nodes := p } : Router).Current nodes placement := fun hsound halike =>
    ⟨h.placement_eq, hsound, fun d ns l => (halike d ns l).trans (h.alike d ns l)⟩
  cases c with
  | setUp clusters =>
      refine ⟨?_, h.sound, h.alike⟩
      change r.placement.setUp _ = _
      rw [h.placement_eq, ClusterPlacement.setUp_setUp]
      rfl
  | setLocalNode n => exact ⟨h.placement_eq, h.sound, h.alike⟩
  | addRoute cluster n =>
      refine settle_induction h fun r' hr => ?_
      obtain ⟨-, p, hp, rfl⟩ := addRoute_eq_ok_iff.mp hr
      exact hnodes (h.sound.add hp).1 (NodePlacement.alike_of_add hp)
  | removeRoute cluster n =>
      refine settle_induction h fun r' hr => ?_
      obtain ⟨-, p, hp, rfl⟩ := removeRoute_eq_ok_iff.mp hr
      exact hnodes (h.sound.remove hp).1 (NodePlacement.alike_of_remove hp)
  | clear => exact hnodes h.sound.clear.1 (NodePlacement.alike_clear _)

lemma current_after (hnodes : nodes.Blank) (hplacement : placement.Blank)
    (calls : List RouterCall) :
    ((ofPlacements nodes placement).after calls).Current nodes placement := by
  induction calls using List.reverseRecOn with
  | nil => exact current_ofPlacements hnodes hplacement
  | append_singleton calls c ih =>
      rw [after_concat]
      exact ih.call c

/-- A lookup leads to the node that serves it in the cluster that is picked for it. -/
lemma Current.nodeFor_eq (h : r.Current nodes placement) (l : Lookup) :
    r.nodeFor l = ((placement.pick? r.clusters l).bind fun c =>
      nodes.serve? c.name (r.nodes.nodesOf c.name) l).elim (.error .missingRoute) .ok := by
  have hpick := placement.clusterFor_setUp r.clusters l
  rw [nodeFor, h.placement_eq]
  cases hc : placement.pick? r.clusters l with
  | none =>
      rw [Option.bind_none, Option.elim_none]
      split
      next c hok => exact absurd ((hpick c).mp hok) (by simp [hc])
      next => rfl
      next => rfl
  | some c =>
      rw [(hpick c).mpr hc, Option.bind_some, ← h.alike, ← h.sound.nodeFor_eq]
      dsimp only
      cases r.nodes.nodeFor c.name l <;> rfl

/-- A node that is held for a registered cluster is broadcast for it. -/
lemma mem_broadcast {c : Cluster} {n : Node} (hc : c ∈ r.clusters.toList)
    (hn : n ∈ (r.nodes.nodesOf c.name).toList) :
    ∃ route, (c, route) ∈ r.broadcast ∧ n ∈ route.toList := by
  refine ⟨r.clusterRoute c, List.mem_map.mpr ⟨c, hc, rfl⟩, ?_⟩
  rw [clusterRoute]
  split
  next own _ =>
    split
    next =>
      -- the node of this process gives way to a node of its name
      rw [Keyed.mem_iff_find?, Keyed.find?_insertIfNew, Keyed.mem_iff_find?.mp hn, Option.some_or]
    next => exact hn
  next => exact hn

/-- Whichever way data is placed on clusters and on their nodes, and whatever strategies answer,
after any history of changes every lookup leads to the node that serves it among those held for the
registered cluster that is picked for it. That node is broadcast for the cluster, and it is at the
very address that a strategy for nodes has answered. The only failure is a missing route, exactly if
no registered cluster is picked or none of its nodes may serve the lookup. -/
theorem lookup_sound (hnodes : nodes.Blank) (hplacement : placement.Blank)
    (calls : List RouterCall) (l : Lookup) :
    let r := (ofPlacements nodes placement).after calls
    (∀ c, r.placement.clusterFor l = .ok (some c) ↔ placement.pick? r.clusters l = some c) ∧
    r.nodeFor l = ((placement.pick? r.clusters l).bind fun c =>
      nodes.serve? c.name (r.nodes.nodesOf c.name) l).elim (.error .missingRoute) .ok ∧
    (∀ n, r.nodeFor l = .ok n → ∃ c ∈ r.clusters.toList, placement.pick? r.clusters l = some c ∧
      n ∈ (r.nodes.nodesOf c.name).toList ∧ nodes.Admits c.name l n ∧
      ∃ route, (c, route) ∈ r.broadcast ∧ n ∈ route.toList) ∧
    ∀ e, r.nodeFor l = .error e ↔ e = .missingRoute ∧ ∀ c, placement.pick? r.clusters l = some c →
      ∀ n ∈ (r.nodes.nodesOf c.name).toList, ¬nodes.Admits c.name l n := by
  intro r
  have hr : r.Current nodes placement := current_after hnodes hplacement calls
  have hlookup := hr.nodeFor_eq l
  refine ⟨fun c => ?_, hlookup, fun n hn => ?_, fun e => ?_⟩
  · rw [hr.placement_eq]
    exact placement.clusterFor_setUp r.clusters l c
  · cases hc : placement.pick? r.clusters l with
    | none =>
        rw [hlookup, hc] at hn
        cases hn
    | some c =>
        rw [hlookup, hc, Option.bind_some] at hn
        cases hserve : nodes.serve? c.name (r.nodes.nodesOf c.name) l with
        | none =>
            rw [hserve] at hn
            cases hn
        | some m =>
            rw [hserve] at hn
            obtain rfl := Except.ok.inj hn
            obtain ⟨hheld, hadmits⟩ := NodePlacement.admits_of_serve? hserve
            have hmem := ClusterPlacement.mem_of_pick? hc
            exact ⟨c, hmem, rfl, hheld, hadmits, mem_broadcast hmem hheld⟩
  · rw [hlookup]
    cases hc : placement.pick? r.clusters l with
    | none => simp [eq_comm]
    | some c =>
        have hnone : nodes.serve? c.name (r.nodes.nodesOf c.name) l = none ↔ _ :=
          NodePlacement.serve?_eq_none_iff
        rw [Option.bind_some]
        cases hserve : nodes.serve? c.name (r.nodes.nodesOf c.name) l with
        | none =>
            have hrefused := hnone.mp hserve
            simp only [Option.elim_none, Except.error.injEq, Option.some.injEq]
            refine ⟨fun he => ⟨he.symm, ?_⟩, fun he => he.1.symm⟩
            rintro _ rfl
            exact hrefused
        | some m =>
            refine iff_of_false (by simp) fun he => ?_
            rw [hnone.mpr (he.2 c rfl)] at hserve
            cases hserve

/-! ### Strategies that answer anything -/

/-- Answers with the address of a node, of a removed one, or of a node of another cluster. -/
def strayNodes : NodeStrategy := fun _ l =>
  if l.bucket = "old" then some ⟨"host", 1⟩
  else if l.bucket = "far" then some ⟨"host", 3⟩
  else some ⟨"host", 2⟩

/-- Names a registered cluster or an unknown one. -/
def strayClusters : ClusterStrategy := fun l =>
  if l.bucket = "ghost" then some "mars" else some "asia"

/-- A cluster whose first node is removed, next to another cluster. -/
def strayCalls : List RouterCall :=
  [.setUp (.ofList [.ofRemote "asia", .ofRemote "europe"]), .addRoute "asia" ⟨"a", ⟨"host", 1⟩⟩,
    .addRoute "asia" ⟨"b", ⟨"host", 2⟩⟩, .addRoute "europe" ⟨"c", ⟨"host", 3⟩⟩,
    .removeRoute "asia" ⟨"a", ⟨"host", 9⟩⟩]

/-- A lookup leads to the node at the address that was answered. Neither the removed node nor that
of the other cluster nor an unknown cluster is ever reached. -/
theorem lookup_sound_stray :
    let r := (ofPlacements (.custom (.ofStrategy strayNodes)) (.ofStrategy strayClusters)).after
      strayCalls
    (∃ c ∈ r.clusters.toList, ∃ route, (c, route) ∈ r.broadcast ∧
      ⟨"b", ⟨"host", 2⟩⟩ ∈ route.toList) ∧
    r.nodeFor (.ofKey "new" "k") = .ok ⟨"b", ⟨"host", 2⟩⟩ ∧
    r.nodeFor (.ofBucket "old") = .error .missingRoute ∧
    r.nodeFor (.ofBucket "far") = .error .missingRoute ∧
    r.nodeFor (.ofBucket "ghost") = .error .missingRoute := by
  intro r
  have hsound := lookup_sound (.custom strayNodes) (.custom strayClusters) strayCalls
  have hnew : r.nodeFor (.ofKey "new" "k") = .ok ⟨"b", ⟨"host", 2⟩⟩ :=
    (hsound _).2.1.trans (by decide +kernel)
  obtain ⟨c, hc, -, -, -, hroute⟩ := (hsound _).2.2.1 _ hnew
  exact ⟨⟨c, hc, hroute⟩, hnew, (hsound _).2.1.trans (by decide +kernel),
    (hsound _).2.1.trans (by decide +kernel), (hsound _).2.1.trans (by decide +kernel)⟩

end Router

end Federation
