import Federation.Proofs.Placement.Room
import Federation.Proofs.Routing.RouterHistory

/-!
Routers as plain maps.

* `Directory`: what a router is to those who ask it for clusters and nodes: the node of this
  process, and for the name of each registered cluster its flag and its nodes.
* `Directory.refusal?`: why a node is not added, which is all that the directory knows about the way
  in which nodes are placed.
* `Router.directory`: the directory that a router stands for. It answers as the router does
  (`Router.Tidy.clusterRoute_eq`, `Router.broadcast_eq`), and a change of the router is one of its
  directory (`Router.Tidy.directory_call`).
* `Router.answers_as_directory`: after any history of changes, refused ones included, a router gives
  the answers of a directory that has gone through the same history.
-/

namespace Federation

/-! ### Directories -/

/-- What a directory keeps of a cluster. -/
structure Listing where
  isLocal : Bool
  nodes : NodeSet
deriving DecidableEq

/-- Clusters and their nodes, without any order of placement. A cluster has at most as many nodes as
the limit says. Without a limit nodes need addresses of their own. -/
structure Directory where
  limit? : Option ℕ
  localNode : Option Node
  listings : Assoc String Listing
deriving DecidableEq

namespace Directory

/-- A directory without clusters and nodes. -/
def ofLimit (limit? : Option ℕ) : Directory := ⟨limit?, none, ∅⟩

/-- Why `n` does not become a node of the cluster: there are as many nodes as the limit allows, its
name is taken, or without a limit its address. -/
def refusal? (limit? : Option ℕ) (cluster : String) (nodes : NodeSet) (n : Node) : Option Fault :=
  match limit? with
  | some max =>
    if max ≤ nodes.size then some (.partitionsExhausted max)
    else if nodes.contains n.name then some (.duplicateNode cluster n.name)
    else none
  | none =>
    if nodes.contains n.name ∨ ∃ m ∈ nodes.toList, m.address = n.address then
      some (.duplicateNode cluster n.name)
    else none

/-! ### Changes -/

/-- Lists the clusters whose names are new, without nodes. -/
def setUp (d : Directory) (clusters : ClusterSet) : Directory :=
  let new := clusters.toList.map fun c => (c.name, (⟨c.isLocal, ∅⟩ : Listing))
  { d with listings := new.foldl Keyed.insertIfNew d.listings }

/-- Puts other nodes in the place of those of a cluster. -/
def withNodes (d : Directory) (cluster : String) (l : Listing) (nodes : NodeSet) : Directory :=
  { d with listings := d.listings.insert (cluster, { l with nodes := nodes }) }

/-- Adds a node to a listed cluster. -/
def add (d : Directory) (cluster : String) (n : Node) : Except Fault Directory :=
  match d.listings.get? cluster with
  | none => .error (.unknownCluster cluster)
  | some l =>
    match refusal? d.limit? cluster l.nodes n with
    | some e => .error e
    | none => .ok (d.withNodes cluster l (l.nodes.insert n))

/-- Removes the node with the name of `n` from a listed cluster. -/
def remove (d : Directory) (cluster : String) (n : Node) : Except Fault Directory :=
  match d.listings.get? cluster with
  | none => .error (.unknownCluster cluster)
  | some l =>
    if l.nodes.contains n.name then .ok (d.withNodes cluster l (l.nodes.erase n.name))
    else .error (.unknownNode cluster n.name)

/-- Removes the nodes of all clusters. -/
def clear (d : Directory) : Directory :=
  { d with listings := d.listings.map (fun e => (e.1, { e.2 with nodes := ∅ })) fun _ => rfl }

/-- The answer to a change, and the directory after it. -/
def call (d : Directory) : RouterCall → Except Fault Unit × Directory
  | .setUp clusters => (.ok (), d.setUp clusters)
  | .setLocalNode n => (.ok (), { d with localNode := some n })
  | .addRoute cluster n => settle d (d.add cluster.name n)
  | .removeRoute cluster n => settle d (d.remove cluster.name n)
  | .clear => (.ok (), d.clear)

/-- The directory after a history of changes, the first one first. -/
def after (d : Directory) (calls : List RouterCall) : Directory :=
  calls.foldl (fun d c => (d.call c).2) d

@[simp] lemma after_concat (d : Directory) (calls : List RouterCall) (c : RouterCall) :
    d.after (calls ++ [c]) = ((d.after calls).call c).2 := by
  simp [after]

/-! ### Answers -/

/-- The registered clusters, with the flags under which they were registered first. -/
def clusters (d : Directory) : List Cluster := d.listings.toList.map fun e => ⟨e.1, e.2.isLocal⟩

/-- The nodes to which a listing leads. The node of this process joins those of its cluster, unless
one of them has its name. -/
def routeOf (d : Directory) (l : Listing) : NodeSet :=
  match d.localNode with
  | some n => if l.isLocal then l.nodes.insertIfNew n else l.nodes
  | none => l.nodes

/-- The nodes of a cluster, whose own flag counts only if it is not registered. -/
def clusterRoute (d : Directory) (cluster : Cluster) : NodeSet :=
  d.routeOf ((d.listings.get? cluster.name).getD ⟨cluster.isLocal, ∅⟩)

/-- The nodes of every registered cluster. -/
def broadcast (d : Directory) : List (Cluster × NodeSet) :=
  d.listings.toList.map fun e => (⟨e.1, e.2.isLocal⟩, d.routeOf e.2)

/-- The node of this process, if it is known. -/
def localRoute (d : Directory) : Except Fault Node :=
  d.localNode.elim (.error .missingRoute) .ok

/-! ### Values after a change -/

lemma get?_setUp (d : Directory) (clusters : ClusterSet) (c : String) :
    (d.setUp clusters).listings.get? c = (d.listings.get? c).or
      ((clusters.find? c).map fun k => ⟨k.isLocal, ∅⟩) := by
  rw [Assoc.get?, setUp, Keyed.find?_foldl_insertIfNew, List.find?_map, Assoc.get?, Keyed.find?,
    Keyed.find?, Option.map_or, Option.map_map]
  rfl

lemma get?_withNodes (d : Directory) (cluster : String) (l : Listing) (nodes : NodeSet)
    (c : String) : (d.withNodes cluster l nodes).listings.get? c =
      if cluster = c then some { l with nodes := nodes } else d.listings.get? c :=
  Assoc.get?_insert

lemma get?_clear (d : Directory) (c : String) :
    d.clear.listings.get? c = (d.listings.get? c).map fun l => { l with nodes := ∅ } := by
  rw [clear, Assoc.get?_map]

lemma ext_get? {d d' : Directory} (hlimit : d.limit? = d'.limit?)
    (hlocal : d.localNode = d'.localNode)
    (h : ∀ c, d.listings.get? c = d'.listings.get? c) : d = d' := by
  have hlistings := Assoc.ext_get? h
  cases d
  cases d'
  simp_all

end Directory

/-! ### What a placement refuses -/

lemma HashedNodes.Sound.add_eq_error_iff {p : HashedNodes} {cluster : String} {n : Node} {e : Fault}
    (h : p.Sound) : p.add cluster n = .error e ↔
      Directory.refusal? (some p.max) cluster (p.nodesOf cluster) n = some e := by
  obtain ⟨hsound, hmax, -⟩ := h.ringOf cluster
  -- a sound ring has at most as many nodes as slots
  have hfull : (p.ringOf cluster).nodes.size = p.max ↔ p.max ≤ (p.ringOf cluster).nodes.size := by
    have hfits := hsound.fits
    omega
  rw [HashedNodes.add, ← HashedNodes.ringOf, map_eq_error_iff, Ring.add, nodesOf_eq,
    Directory.refusal?, ringOf_cluster]
  simp only [hmax, hfull]
  split
  next => simp
  next => split <;> simp

lemma CustomNodes.Sound.add_eq_error_iff {p : CustomNodes} {cluster : String} {n : Node} {e : Fault}
    (h : p.Sound) : p.add cluster n = .error e ↔
      Directory.refusal? none cluster (p.nodesOf cluster) n = some e := by
  simp only [CustomNodes.add, Directory.refusal?, Bool.or_eq_true, h.contains_iff]
  split <;> simp

namespace NodePlacement

variable {p p' : NodePlacement} {cluster : String} {n : Node} {e : Fault}

/-- A sound placement does not add a node exactly for the reasons that a directory has. -/
lemma Sound.add_eq_error_iff (h : p.Sound) : p.add cluster n = .error e ↔
    Directory.refusal? p.limit? cluster (p.nodesOf cluster) n = some e := by
  cases p with
  | hashed p => exact map_eq_error_iff.trans (HashedNodes.Sound.add_eq_error_iff h)
  | custom p => exact map_eq_error_iff.trans (CustomNodes.Sound.add_eq_error_iff h)

/-- A removal is refused for one reason only. -/
lemma remove_eq_error_iff : p.remove cluster n = .error e ↔
    (p.nodesOf cluster).contains n.name = false ∧ e = .unknownNode cluster n.name := by
  cases p with
  | hashed p =>
      refine map_eq_error_iff.trans ?_
      rw [HashedNodes.remove, nodesOf, HashedNodes.nodesOf]
      cases hr : p.ring? cluster with
      | none => simp [Keyed.contains, eq_comm]
      | some r =>
          rw [Option.elim_some, map_eq_error_iff, Ring.remove, HashedNodes.cluster_of_ring? hr]
          split
          next hin => simp [hin]
          next hout => simp [hout, eq_comm (a := e)]
  | custom p =>
      refine map_eq_error_iff.trans ?_
      rw [CustomNodes.remove, nodesOf, Keyed.contains_eq_isSome]
      split
      next hnone => simp [hnone, eq_comm (a := e)]
      next m hm => simp [hm]

end NodePlacement

/-! ### The directory of a router -/

namespace Router

variable {r r' : Router} {cluster : String} {n : Node}

/-- The directory that a router stands for. -/
def directory (r : Router) : Directory where
  limit? := r.limit?
  localNode := r.localNode
  listings := ⟨r.clusters.toList.map fun c => (c.name, ⟨c.isLocal, r.nodes.nodesOf c.name⟩), by
    simpa only [List.pairwise_map] using r.clusters.ascending⟩

lemma get?_directory (r : Router) (c : String) : r.directory.listings.get? c =
    (r.clusters.find? c).map fun k => ⟨k.isLocal, r.nodes.nodesOf c⟩ := by
  rw [Assoc.get?, Keyed.find?, directory, List.find?_map, Option.map_map]
  refine Option.map_congr fun k hk => ?_
  have hname : k.name = c := by simpa using List.find?_some hk
  rw [Function.comp, hname]

/-- The placement is sound, and only registered clusters have nodes. -/
structure Tidy (r : Router) : Prop where
  sound : r.nodes.Sound
  blank : ∀ c, r.clusters.contains c = false → r.nodes.nodesOf c = ∅

/-! ### Answers -/

lemma clusters_eq (r : Router) : r.clusters.toList = r.directory.clusters := by
  rw [Directory.clusters, directory, List.map_map]
  exact (List.map_id _).symm

lemma localRoute_eq (r : Router) : r.localRoute = r.directory.localRoute := by
  rw [localRoute, Directory.localRoute, directory]
  cases r.localNode <;> rfl

lemma routeOf_directory (r : Router) (c : Cluster) : r.directory.routeOf
    ⟨((r.clusters.find? c.name).getD c).isLocal, r.nodes.nodesOf c.name⟩ = r.clusterRoute c := rfl

/-- The nodes of a cluster are those in the directory. Where the cluster is not registered it has no
nodes that the directory could miss. -/
lemma Tidy.clusterRoute_eq (h : r.Tidy) (c : Cluster) :
    r.clusterRoute c = r.directory.clusterRoute c := by
  rw [← routeOf_directory, Directory.clusterRoute, get?_directory]
  cases hc : r.clusters.find? c.name with
  | some k => rfl
  | none => rw [h.blank c.name (Keyed.contains_eq_false_of_find? hc)]; rfl

lemma broadcast_eq (r : Router) : r.broadcast = r.directory.broadcast := by
  rw [broadcast, Directory.broadcast, directory, List.map_map]
  refine List.map_congr_left fun c hc => ?_
  have hfind : r.clusters.find? c.name = some c := Keyed.find?_eq_some_iff.mpr ⟨hc, rfl⟩
  rw [Function.comp, clusterRoute, hfind]
  rfl

/-! ### Changes -/

/-- Other nodes of a registered cluster are other nodes of its listing. -/
lemma directory_withNodes {k : Cluster} {p : NodePlacement} {nodes : NodeSet}
    (hk : r.clusters.find? cluster = some k) (hlimit : p.limit? = r.limit?)
    (hp : ∀ d, p.nodesOf d = if d = cluster then nodes else r.nodes.nodesOf d) :
    ({ r with nodes := p } : Router).directory =
      r.directory.withNodes cluster ⟨k.isLocal, r.nodes.nodesOf cluster⟩ nodes := by
  refine Directory.ext_get? hlimit rfl fun d => ?_
  rw [Directory.get?_withNodes, get?_directory, get?_directory]
  by_cases hd : cluster = d
  · subst hd
    simp [hk, hp]
  · simp [hd, hp, Ne.symm hd]

lemma Tidy.directory_addRoute (h : r.Tidy) (cluster : String) (n : Node) :
    (r.addRoute cluster n).map directory = r.directory.add cluster n := by
  rw [addRoute_eq, Directory.add, get?_directory, Keyed.contains_eq_isSome]
  cases hk : r.clusters.find? cluster with
  | none => rfl
  | some k =>
      have hrefused : ∀ e, r.nodes.add cluster n = .error e ↔
          Directory.refusal? _ cluster _ n = some e := fun e => h.sound.add_eq_error_iff
      simp only [Option.isSome_some, if_true, Option.map_some]
      cases hadd : r.nodes.add cluster n with
      | error e =>
          have hrefusal : Directory.refusal? r.directory.limit? cluster _ n = some e :=
            (hrefused e).mp hadd
          rw [hrefusal]
          rfl
      | ok p =>
          have hrefusal : Directory.refusal? r.directory.limit? cluster
              (r.nodes.nodesOf cluster) n = none :=
            Option.eq_none_iff_forall_ne_some.mpr fun e he => by
              rw [(hrefused e).mpr he] at hadd
              cases hadd
          rw [hrefusal]
          exact congrArg Except.ok (directory_withNodes hk (h.sound.add hadd).2
            (NodePlacement.nodesOf_add hadd))

lemma Tidy.directory_removeRoute (h : r.Tidy) (cluster : String) (n : Node) :
    (r.removeRoute cluster n).map directory = r.directory.remove cluster n := by
  rw [removeRoute_eq, Directory.remove, get?_directory, Keyed.contains_eq_isSome]
  cases hk : r.clusters.find? cluster with
  | none => rfl
  | some k =>
      simp only [Option.isSome_some, if_true, Option.map_some]
      cases hrem : r.nodes.remove cluster n with
      | error e =>
          obtain ⟨hout, rfl⟩ := NodePlacement.remove_eq_error_iff.mp hrem
          rw [hout]
          rfl
      | ok p =>
          rw [if_pos (NodePlacement.contains_iff_remove.mpr ⟨p, hrem⟩)]
          exact congrArg Except.ok (directory_withNodes hk (h.sound.remove hrem).2
            (NodePlacement.nodesOf_remove hrem))

/-- A change of a tidy router is one of its directory, with the same answer. -/
lemma Tidy.directory_call (h : r.Tidy) (c : RouterCall) :
    (r.call c).1 = (r.directory.call c).1 ∧
      (r.call c).2.directory = (r.directory.call c).2 := by
  cases c with
  | setUp clusters =>
      refine ⟨rfl, Directory.ext_get? rfl rfl fun d => ?_⟩
      change (r.setUp clusters).directory.listings.get? d =
        (r.directory.setUp clusters).listings.get? d
      rw [get?_directory, Directory.get?_setUp, get?_directory, setUp, Keyed.find?_union]
      cases hd : r.clusters.find? d with
      | some k => rfl
      | none =>
          -- a cluster that becomes registered had no nodes before
          rw [h.blank d (Keyed.contains_eq_false_of_find? hd), Option.none_or]
          rfl
  | setLocalNode n => exact ⟨rfl, rfl⟩
  | addRoute cluster n =>
      rw [call, Directory.call, ← h.directory_addRoute cluster.name n]
      cases r.addRoute cluster.name n <;> exact ⟨rfl, rfl⟩
  | removeRoute cluster n =>
      rw [call, Directory.call, ← h.directory_removeRoute cluster.name n]
      cases r.removeRoute cluster.name n <;> exact ⟨rfl, rfl⟩
  | clear =>
      refine ⟨rfl, Directory.ext_get? h.sound.clear.2 rfl fun d => ?_⟩
      change r.clear.directory.listings.get? d = r.directory.clear.listings.get? d
      rw [get?_directory, Directory.get?_clear, get?_directory, clear, Option.map_map,
        NodePlacement.nodesOf_clear]
      rfl

/-- Every change leaves a tidy router tidy, also where it is refused. -/
lemma Tidy.call (h : r.Tidy) (c : RouterCall) : (r.call c).2.Tidy := by
  cases c with
  | setUp clusters =>
      refine ⟨h.sound, fun d hd => h.blank d ?_⟩
      rw [Keyed.contains_eq_isSome] at hd ⊢
      change (Keyed.find? (r.clusters.union clusters) d).isSome = false at hd
      rw [Keyed.find?_union, Option.isSome_or, Bool.or_eq_false_iff] at hd
      exact hd.1
  | setLocalNode n => exact ⟨h.sound, h.blank⟩
  | addRoute cluster n =>
      refine settle_induction h fun r' hr => ?_
      obtain ⟨hin, p, hp, rfl⟩ := addRoute_eq_ok_iff.mp hr
      refine ⟨(h.sound.add hp).1, fun d hd => ?_⟩
      have hne : d ≠ cluster.name := by
        rintro rfl
        exact Bool.false_ne_true (hd.symm.trans hin)
      exact ((NodePlacement.nodesOf_add hp d).trans (if_neg hne)).trans (h.blank d hd)
  | removeRoute cluster n =>
      refine settle_induction h fun r' hr => ?_
      obtain ⟨hin, p, hp, rfl⟩ := removeRoute_eq_ok_iff.mp hr
      refine ⟨(h.sound.remove hp).1, fun d hd => ?_⟩
      have hne : d ≠ cluster.name := by
        rintro rfl
        exact Bool.false_ne_true (hd.symm.trans hin)
      exact ((NodePlacement.nodesOf_remove hp d).trans (if_neg hne)).trans (h.blank d hd)
  | clear => exact ⟨h.sound.clear.1, fun d _ => NodePlacement.nodesOf_clear _ d⟩

lemma call_of_error {c : RouterCall} {e : Fault} (h : (r.call c).1 = .error e) :
    (r.call c).2 = r := by
  cases c with
  | setUp clusters => cases h
  | setLocalNode n => cases h
  | addRoute cluster n => exact settle_snd_of_error h
  | removeRoute cluster n => exact settle_snd_of_error h
  | clear => cases h

end Router

/-! ### Histories -/

/-- Nodes are placed either way, and none was placed so far. -/
inductive NodePlacement.Blank : NodePlacement → Prop
  | hashed (max : ℕ) (hash : HashFunction) : Blank (.hashed (.ofLimit max hash))
  | custom (strategy : NodeStrategy) : Blank (.custom (.ofStrategy strategy))

lemma NodePlacement.Blank.nodesOf_eq {p : NodePlacement} (h : p.Blank) (c : String) :
    p.nodesOf c = ∅ := by
  cases h <;> rfl

namespace Router

variable {nodes : NodePlacement}

lemma tidy_ofPlacements (h : nodes.Blank) (placement : ClusterPlacement) :
    (ofPlacements nodes placement).Tidy := by
  cases h with
  | hashed max hash => exact ⟨HashedNodes.sound_ofLimit max hash, fun _ _ => rfl⟩
  | custom strategy => exact ⟨CustomNodes.sound_ofStrategy strategy, fun _ _ => rfl⟩

/-- After any history of changes a router is tidy and stands for the directory that has gone through
the same history. -/
lemma directory_after (h : nodes.Blank) (placement : ClusterPlacement) (calls : List RouterCall) :
    ((ofPlacements nodes placement).after calls).Tidy ∧
      ((ofPlacements nodes placement).after calls).directory =
        (Directory.ofLimit nodes.limit?).after calls := by
  induction calls using List.reverseRecOn with
  | nil => exact ⟨tidy_ofPlacements h placement, rfl⟩
  | append_singleton calls c ih =>
      obtain ⟨htidy, hdirectory⟩ := ih
      rw [after_concat, Directory.after_concat, ← hdirectory]
      exact ⟨htidy.call c, (htidy.directory_call c).2⟩

/-- After any history of changes, refused ones included, a router answers as the directory does that
has gone through the same history, whichever way nodes are placed: when it is asked for the
clusters, for the nodes of one or of all of them and for the node of this process, and when it is
asked for any further change. A change that it refuses leaves it as it was. -/
theorem answers_as_directory (h : nodes.Blank) (placement : ClusterPlacement)
    (calls : List RouterCall) :
    let r := (ofPlacements nodes placement).after calls
    let d := (Directory.ofLimit nodes.limit?).after calls
    r.clusters.toList = d.clusters ∧ (∀ c, r.clusterRoute c = d.clusterRoute c) ∧
    r.broadcast = d.broadcast ∧ r.localRoute = d.localRoute ∧
    ∀ c, (r.call c).1 = (d.call c).1 ∧ ∀ e, (r.call c).1 = .error e → (r.call c).2 = r := by
  intro r d
  obtain ⟨htidy, hdirectory⟩ := directory_after h placement calls
  have hd : r.directory = d := hdirectory
  rw [← hd]
  exact ⟨clusters_eq r, htidy.clusterRoute_eq, broadcast_eq r, localRoute_eq r,
    fun c => ⟨(htidy.directory_call c).1, fun e he => call_of_error he⟩⟩

/-- A routed node stays in the place of the local node with its name, the flag of the first
registration counts, and without a limit a second node at an address is refused. -/
theorem answers_as_directory_shared_address :
    let r := (ofPlacements (.custom (.ofStrategy fun _ _ => none))
      (.ofHash (.ofCode String.length))).after
        [.addRoute "europe" ⟨"a", ⟨"host", 1⟩⟩, .setUp (.ofList [.ofLocal "europe"]),
          .setUp (.ofList [.ofRemote "europe"]), .addRoute "europe" ⟨"a", ⟨"host", 2⟩⟩,
          .setLocalNode ⟨"a", ⟨"host", 3⟩⟩]
    r.clusterRoute (.ofRemote "europe") = .ofList [⟨"a", ⟨"host", 2⟩⟩] ∧
    (r.call (.addRoute "europe" ⟨"b", ⟨"host", 2⟩⟩)).1 = .error (.duplicateNode "europe" "b") := by
  intro r
  obtain ⟨-, hroute, -, -, hcall⟩ := answers_as_directory (.custom fun _ _ => none)
    (.ofHash (.ofCode String.length))
    [.addRoute "europe" ⟨"a", ⟨"host", 1⟩⟩, .setUp (.ofList [.ofLocal "europe"]),
      .setUp (.ofList [.ofRemote "europe"]), .addRoute "europe" ⟨"a", ⟨"host", 2⟩⟩,
      .setLocalNode ⟨"a", ⟨"host", 3⟩⟩]
  exact ⟨(hroute _).trans (by decide +kernel), (hcall _).1.trans (by decide +kernel)⟩

end Router

end Federation
