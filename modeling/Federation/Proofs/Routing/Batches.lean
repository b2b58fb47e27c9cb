import Federation.Proofs.Collection.Keyed
import Federation.Proofs.Refusal
import Federation.Proofs.Routing.Directory

/-!
Batches of keys against lookups of single keys.

* `KeyGroups.find?_ofResolved`: the group of a name shows the first node that came with the name, and
  it holds all keys that did.
* `Router.resolveKeys_eq`: all keys with their nodes, or a missing route if any key has none.
  `Router.groupKeys_eq`: it makes no difference whether they are resolved in parts.
* `KeyGroups.byName`: groups without the addresses of their nodes. They depend on the set of keys
  alone.
* `Router.Unambiguous`: the keys do not lead to different nodes of one name.
* `Router.batch_serves_iff`: a batch puts every key under the very node that serves it exactly if its
  keys are unambiguous.
* `Router.batch_accounts`: every key is in one group, that of the name of its node. Neither the order
  of the keys nor their repetition matters, save for ambiguous keys, whose order decides which
  address a group shows.
-/

namespace Federation

namespace KeyGroups

/-! ### Groups -/

lemma ofResolved_concat (l : List (Node × String)) (e : Node × String) :
    ofResolved (l ++ [e]) = (ofResolved l).add e.1 e.2 := by
  rw [ofResolved, List.foldl_append]
  rfl

/-- The group into which a key of the node is put: the one of its name, or else a new one. -/
def groupOf (groups : KeyGroups) (n : Node) : KeyGroup := (groups.find? n.name).getD ⟨n, ∅⟩

lemma name_groupOf (groups : KeyGroups) (n : Node) : (groups.groupOf n).node.name = n.name := by
  rw [groupOf]
  cases hg : groups.find? n.name with
  | none => rfl
  | some g => exact (Keyed.find?_eq_some_iff.mp hg).2

/-- A key is put into the group of its node, and all other groups stay. -/
lemma find?_add (groups : KeyGroups) (n : Node) (key name : String) :
    (groups.add n key).find? name =
      if n.name = name then
        some ⟨(groups.groupOf n).node, (groups.groupOf n).keys.insertIfNew key⟩
      else groups.find? name := by
  rw [← name_groupOf groups n]
  exact Keyed.find?_insert

/-- The group of a name shows the first node that came with the name, and holds all keys that did.
-/
lemma find?_ofResolved (l : List (Node × String)) (name : String) :
    (ofResolved l).find? name = (l.find? fun e => e.1.name = name).map fun e =>
      ⟨e.1, .ofList ((l.filter fun e => e.1.name = name).map Prod.snd)⟩ := by
  induction l using List.reverseRecOn with
  | nil => rfl
  | append_singleton l e ih =>
      rw [ofResolved_concat, find?_add, List.find?_append, List.filter_append, List.map_append]
      by_cases hname : e.1.name = name
      · subst hname
        have hkeys : ∀ keys : List String,
            (Keyed.ofList (keys ++ [e.2]) : ValueSet String) = (Keyed.ofList keys).insertIfNew e.2 :=
          fun keys => by rw [Keyed.ofList, List.foldl_append]; rfl
        have hlast : (([e].filter fun x => x.1.name = e.1.name).map Prod.snd) = [e.2] := by simp
        rw [if_pos rfl, groupOf, ih, hlast, hkeys]
        cases hfirst : l.find? fun x => x.1.name = e.1.name with
        | some x => rfl
        | none =>
            -- nobody came with the name before, so that the new node is shown
            have hnobody : (l.filter fun x => x.1.name = e.1.name) = [] :=
              List.filter_eq_nil_iff.mpr (List.find?_eq_none.mp hfirst)
            rw [hnobody]
            simp
            rfl
      · rw [if_neg hname, ih]
        simp [hname]

variable {l : List (Node × String)} {g : KeyGroup} {n : Node} {key name : String}

/-- A group holds the keys that came with a node of its name. -/
lemma mem_keys_ofResolved (hg : g ∈ (ofResolved l).toList) :
    key ∈ g.keys.toList ↔ ∃ n, (n, key) ∈ l ∧ n.name = g.node.name := by
  rw [Keyed.mem_iff_find?, find?_ofResolved, Option.map_eq_some_iff] at hg
  obtain ⟨e, -, hkeys⟩ := hg
  rw [← congrArg KeyGroup.keys hkeys, ValueSet.mem_ofList, List.mem_map]
  simp [and_comm]

/-- A group shows the first node of its name. -/
lemma node_ofResolved (hg : g ∈ (ofResolved l).toList) :
    (l.map Prod.fst).find? (fun m => m.name = g.node.name) = some g.node := by
  rw [Keyed.mem_iff_find?, find?_ofResolved, Option.map_eq_some_iff] at hg
  obtain ⟨e, hfirst, hnode⟩ := hg
  rw [List.find?_map, Option.map_eq_some_iff]
  exact ⟨e, hfirst, congrArg KeyGroup.node hnode⟩

/-- Whatever is grouped is in the group of its name. -/
lemma exists_group (he : (n, key) ∈ l) :
    ∃ g ∈ (ofResolved l).toList, g.node.name = n.name ∧ key ∈ g.keys.toList := by
  cases hfirst : l.find? fun e => e.1.name = n.name with
  | none => exact absurd (decide_eq_true rfl) (List.find?_eq_none.mp hfirst _ he)
  | some e =>
      have hfind := find?_ofResolved l n.name
      rw [hfirst, Option.map_some] at hfind
      obtain ⟨hg, hname⟩ := Keyed.find?_eq_some_iff.mp hfind
      exact ⟨_, hg, hname, (mem_keys_ofResolved hg).mpr ⟨n, he, hname.symm⟩⟩

/-- The keys of the groups by the names of their nodes, without the addresses. -/
def byName (groups : KeyGroups) : Assoc String (ValueSet String) :=
  ⟨groups.toList.map fun g => (g.node.name, g.keys), by
    simpa only [List.pairwise_map] using groups.ascending⟩

lemma get?_byName (groups : KeyGroups) (name : String) :
    groups.byName.get? name = (groups.find? name).map KeyGroup.keys := by
  rw [Assoc.get?, Keyed.find?, byName, List.find?_map, Option.map_map]
  rfl

/-- Of the names and keys alone the order and the repetition of what is grouped cannot be told. -/
lemma byName_ofResolved {l l' : List (Node × String)} (h : ∀ e, e ∈ l' ↔ e ∈ l) :
    (ofResolved l').byName = (ofResolved l).byName := by
  refine Assoc.ext_get? fun name => ?_
  have hfilter : ∀ e, e ∈ l'.filter (fun e => e.1.name = name) ↔
      e ∈ l.filter fun e => e.1.name = name := fun e => by
    rw [List.mem_filter, List.mem_filter, h]
  have hkeys : (Keyed.ofList ((l'.filter fun e => e.1.name = name).map Prod.snd) :
      ValueSet String) = .ofList ((l.filter fun e => e.1.name = name).map Prod.snd) := by
    refine Keyed.ext_mem fun key => ?_
    simp only [ValueSet.mem_ofList, List.mem_map, hfilter]
  have hfirst : ((l'.find? fun e => e.1.name = name).isSome : Bool) =
      (l.find? fun e => e.1.name = name).isSome := by
    rw [Bool.eq_iff_iff, List.find?_isSome, List.find?_isSome]
    exact exists_congr fun e => and_congr_left fun _ => h e
  rw [get?_byName, get?_byName, find?_ofResolved, find?_ofResolved, hkeys, Option.map_map,
    Option.map_map]
  cases hl : l.find? fun e => e.1.name = name with
  | none =>
      rw [hl, Option.isSome_none, Option.isSome_eq_false_iff, Option.isNone_iff_eq_none] at hfirst
      rw [hfirst]
  | some e =>
      rw [hl, Option.isSome_some, Option.isSome_iff_exists] at hfirst
      obtain ⟨e', he'⟩ := hfirst
      rw [he']
      rfl

/-- Groups with the same names and keys are the same if they show the same nodes. -/
lemma eq_of_byName_eq {groups groups' : KeyGroups} (h : groups'.byName = groups.byName)
    (hnode : ∀ g ∈ groups.toList, ∀ g' ∈ groups'.toList, g.node.name = g'.node.name →
      g.node = g'.node) : groups' = groups := by
  refine Keyed.ext_find? fun name => ?_
  have hkeys := congrArg (fun m => Assoc.get? m name) h
  simp only [get?_byName] at hkeys
  cases hg : groups.find? name with
  | none => simpa [hg] using hkeys
  | some g =>
      rw [hg, Option.map_some, Option.map_eq_some_iff] at hkeys
      obtain ⟨g', hg', hsame⟩ := hkeys
      obtain ⟨hmem, hname⟩ := Keyed.find?_eq_some_iff.mp hg
      obtain ⟨hmem', hname'⟩ := Keyed.find?_eq_some_iff.mp hg'
      have hshown := hnode g hmem g' hmem' (hname.trans hname'.symm)
      rw [hg']
      cases g
      cases g'
      simp_all

end KeyGroups

namespace Router

variable {r : Router} {bucket key : String} {keys keys' : List String} {n : Node} {e : Fault}
  {groups : KeyGroups}

/-! ### Lookups of the keys -/

/-- The node that serves a key of the bucket, if there is one. -/
def server? (r : Router) (bucket key : String) : Option Node :=
  (r.nodeFor (.ofKey bucket key)).toOption

lemma server?_eq_some_iff : r.server? bucket key = some n ↔ r.nodeFor (.ofKey bucket key) = .ok n := by
  rw [server?]
  cases r.nodeFor (.ofKey bucket key) <;> simp [Except.toOption]

/-- A lookup fails only for want of a route. -/
lemma eq_missingRoute_of_nodeFor {l : Lookup} (h : r.nodeFor l = .error e) : e = .missingRoute := by
  rw [nodeFor] at h
  split at h
  next => split at h <;> cases h; rfl
  next => cases h; rfl
  next => cases h; rfl

/-- Without a node that serves it a key has no route. -/
lemma resolveKey_eq (r : Router) (bucket key : String) : r.resolveKey bucket key =
    (r.server? bucket key).elim (.error .missingRoute) fun n => .ok (n, key) := by
  rw [resolveKey, server?]
  cases hn : r.nodeFor (.ofKey bucket key) with
  | ok n => rfl
  | error e =>
      obtain rfl := eq_missingRoute_of_nodeFor hn
      rfl

/-- The keys that have a route, each with its node. -/
def served (r : Router) (bucket : String) (keys : List String) : List (Node × String) :=
  keys.filterMap fun key => (r.server? bucket key).map fun n => (n, key)

lemma mem_served : (n, key) ∈ r.served bucket keys ↔ key ∈ keys ∧ r.server? bucket key = some n := by
  simp [served]

/-- Every key has a route. -/
def Serves (r : Router) (bucket : String) (keys : List String) : Prop :=
  ∀ key ∈ keys, (r.server? bucket key).isSome = true

instance (r : Router) (bucket : String) (keys : List String) : Decidable (r.Serves bucket keys) :=
  inferInstanceAs (Decidable (∀ key ∈ keys, _))

lemma not_serves_iff : ¬r.Serves bucket keys ↔
    ∃ key ∈ keys, r.nodeFor (.ofKey bucket key) = .error .missingRoute := by
  simp only [Serves, not_forall, exists_prop, server?]
  refine exists_congr fun key => and_congr_right fun _ => ?_
  cases hn : r.nodeFor (.ofKey bucket key) with
  | ok n => simp [Except.toOption]
  | error e => simp [Except.toOption, eq_missingRoute_of_nodeFor hn]

/-- The nodes to which the keys lead, in the order of the keys. -/
def servers (r : Router) (bucket : String) (keys : List String) : List Node :=
  keys.filterMap (r.server? bucket)

lemma mem_servers : n ∈ r.servers bucket keys ↔ ∃ key ∈ keys, r.server? bucket key = some n :=
  List.mem_filterMap

lemma map_fst_served (r : Router) (bucket : String) (keys : List String) :
    (r.served bucket keys).map Prod.fst = r.servers bucket keys := by
  rw [served, servers, List.map_filterMap]
  exact List.filterMap_congr fun key _ => by cases r.server? bucket key <;> rfl

/-- The keys do not lead to different nodes of one name. -/
def Unambiguous (r : Router) (bucket : String) (keys : List String) : Prop :=
  ∀ m ∈ r.servers bucket keys, ∀ n ∈ r.servers bucket keys, m.name = n.name → m = n

instance (r : Router) (bucket : String) (keys : List String) :
    Decidable (r.Unambiguous bucket keys) :=
  inferInstanceAs (Decidable (∀ m ∈ r.servers bucket keys, ∀ n ∈ r.servers bucket keys, _ → _))

/-! ### Resolving all keys -/

/-- Keys are resolved all together or not at all. -/
lemma resolveKeys_eq (r : Router) (bucket : String) (keys : List String) :
    r.resolveKeys bucket keys =
      if r.Serves bucket keys then .ok (r.served bucket keys) else .error .missingRoute := by
  induction keys with
  | nil => rfl
  | cons key keys ih =>
      have hserves : r.Serves bucket (key :: keys) ↔
          (r.server? bucket key).isSome = true ∧ r.Serves bucket keys := List.forall_mem_cons
      rw [resolveKeys, resolveKey_eq, ih, served]
      cases hn : r.server? bucket key with
      | none =>
          have hnot : ¬r.Serves bucket (key :: keys) := fun h => by simp [hserves, hn] at h
          rw [if_neg hnot]
          rfl
      | some n =>
          have hiff : r.Serves bucket (key :: keys) ↔ r.Serves bucket keys := by simp [hserves, hn]
          by_cases hrest : r.Serves bucket keys
          · simp [hiff, hrest, hn, served, Except.map]
          · simp [hiff, hrest, Except.map]

/-- The parts of a list make up the list. -/
lemma flatten_partsOf {α : Type} (n : ℕ) (l : List α) : (partsOf n l).flatten = l := by
  fun_induction partsOf n l with
  | case1 => rfl
  | case2 a l ih => rw [List.flatten_cons, ih, List.cons_append, List.take_append_drop]

/-- Parts that are resolved side by side come to the same as one after the other. -/
lemma joinParts_resolveKeys (r : Router) (bucket : String) (parts : List (List String)) :
    joinParts (parts.map (r.resolveKeys bucket)) = r.resolveKeys bucket parts.flatten := by
  induction parts with
  | nil => rfl
  | cons part parts ih =>
      have hserves : r.Serves bucket (part ++ parts.flatten) ↔
          r.Serves bucket part ∧ r.Serves bucket parts.flatten := List.forall_mem_append
      rw [List.map_cons, List.flatten_cons, resolveKeys_eq r bucket part,
        resolveKeys_eq r bucket (part ++ parts.flatten)]
      by_cases hpart : r.Serves bucket part
      · rw [if_pos hpart, joinParts, ih, resolveKeys_eq]
        by_cases hrest : r.Serves bucket parts.flatten
        · simp [hserves, hpart, hrest, served, Except.map]
        · simp [hserves, hrest, Except.map]
      · rw [if_neg hpart, if_neg fun h => hpart (hserves.mp h).1, joinParts]

/-- It makes no difference whether keys are resolved in parts. -/
lemma resolveKeysInParts_eq (r : Router) (bucket : String) (keys : List String) :
    r.resolveKeysInParts bucket keys = r.resolveKeys bucket keys := by
  have hrunning : ((partsOf batchTail keys).map fun part =>
      Task.spawn fun _ => r.resolveKeys bucket part).map Task.get =
        (partsOf batchTail keys).map (r.resolveKeys bucket) := by
    rw [List.map_map]
    rfl
  calc r.resolveKeysInParts bucket keys
      = joinParts ((partsOf batchTail keys).map (r.resolveKeys bucket)) := by
        rw [← hrunning]
        rfl
    _ = r.resolveKeys bucket (partsOf batchTail keys).flatten := joinParts_resolveKeys r bucket _
    _ = r.resolveKeys bucket keys := by rw [flatten_partsOf]

/-- A batch is grouped if every key has a route, and fails otherwise. -/
lemma groupKeys_eq (r : Router) (bucket : String) (keys : List String) :
    r.groupKeys bucket keys = if r.Serves bucket keys then
      .ok (.ofResolved (r.served bucket keys)) else .error .missingRoute := by
  rw [groupKeys, resolveKeysInParts_eq, ite_self, resolveKeys_eq]
  split <;> rfl

/-! ### Batches -/

/-- A batch is grouped only if every key has a route. -/
lemma groupKeys_eq_ok_iff : r.groupKeys bucket keys = .ok groups ↔
    r.Serves bucket keys ∧ KeyGroups.ofResolved (r.served bucket keys) = groups := by
  rw [groupKeys_eq]
  split <;> simp_all

/-- The keys of a group are those that lead to a node of its name. -/
lemma mem_group_iff (h : r.groupKeys bucket keys = .ok groups) {g : KeyGroup}
    (hg : g ∈ groups.toList) : key ∈ g.keys.toList ↔
      key ∈ keys ∧ ∃ n, r.nodeFor (.ofKey bucket key) = .ok n ∧ n.name = g.node.name := by
  obtain ⟨-, rfl⟩ := groupKeys_eq_ok_iff.mp h
  rw [KeyGroups.mem_keys_ofResolved hg]
  simp only [mem_served, server?_eq_some_iff, and_assoc, exists_and_left]

/-- Every key is in a group. -/
lemma exists_group (h : r.groupKeys bucket keys = .ok groups) (hkey : key ∈ keys) :
    ∃ n, r.nodeFor (.ofKey bucket key) = .ok n ∧
      ∃ g ∈ groups.toList, key ∈ g.keys.toList ∧ g.node.name = n.name := by
  obtain ⟨hserves, rfl⟩ := groupKeys_eq_ok_iff.mp h
  obtain ⟨n, hn⟩ := Option.isSome_iff_exists.mp (hserves key hkey)
  obtain ⟨g, hg, hname, hmem⟩ := KeyGroups.exists_group (mem_served.mpr ⟨hkey, hn⟩)
  exact ⟨n, server?_eq_some_iff.mp hn, g, hg, hmem, hname⟩

/-- A key is in one group only. -/
lemma eq_of_mem_groups (h : r.groupKeys bucket keys = .ok groups) {g g' : KeyGroup}
    (hg : g ∈ groups.toList) (hg' : g' ∈ groups.toList) (hmem : key ∈ g.keys.toList)
    (hmem' : key ∈ g'.keys.toList) : g' = g := by
  obtain ⟨-, n, hn, hname⟩ := (mem_group_iff h hg).mp hmem
  obtain ⟨-, n', hn', hname'⟩ := (mem_group_iff h hg').mp hmem'
  obtain rfl := Except.ok.inj (hn.symm.trans hn')
  exact Keyed.eq_of_key_eq hg' hg (hname'.symm.trans hname)

/-- A group shows the first node of its name to which the keys lead. -/
lemma node_group (h : r.groupKeys bucket keys = .ok groups) {g : KeyGroup} (hg : g ∈ groups.toList) :
    (r.servers bucket keys).find? (fun m => m.name = g.node.name) = some g.node := by
  obtain ⟨-, rfl⟩ := groupKeys_eq_ok_iff.mp h
  rw [← map_fst_served]
  exact KeyGroups.node_ofResolved hg

/-- A batch puts every key into the one group of the name of its node. This shows the first node of
the name to which the keys lead, so that every key is under the very node that serves it exactly if
the keys do not lead to different nodes of one name. -/
theorem batch_serves_iff (h : r.groupKeys bucket keys = .ok groups) :
    (∀ key ∈ keys, ∃ n, r.nodeFor (.ofKey bucket key) = .ok n ∧
      ∃ g ∈ groups.toList, key ∈ g.keys.toList ∧
        (∀ g' ∈ groups.toList, key ∈ g'.keys.toList → g' = g) ∧ g.node.name = n.name ∧
        (r.servers bucket keys).find? (fun m => m.name = n.name) = some g.node) ∧
    ((∀ key ∈ keys, ∀ g ∈ groups.toList, key ∈ g.keys.toList →
      r.nodeFor (.ofKey bucket key) = .ok g.node) ↔ r.Unambiguous bucket keys) := by
  refine ⟨fun key hkey => ?_, fun hall m hm n hn hname => ?_, fun hone key hkey g hg hmem => ?_⟩
  · obtain ⟨n, hn, g, hg, hmem, hname⟩ := exists_group h hkey
    exact ⟨n, hn, g, hg, hmem, fun g' hg' hmem' => eq_of_mem_groups h hg hg' hmem hmem', hname,
      hname ▸ node_group h hg⟩
  · -- two nodes of one name are shown by the one group of that name
    obtain ⟨k, hk, hkm⟩ := mem_servers.mp hm
    obtain ⟨k', hk', hkn⟩ := mem_servers.mp hn
    obtain ⟨-, -, g, hg, hmem, -⟩ := exists_group h hk
    obtain ⟨-, -, g', hg', hmem', -⟩ := exists_group h hk'
    obtain rfl := Except.ok.inj ((server?_eq_some_iff.mp hkm).symm.trans (hall k hk g hg hmem))
    obtain rfl := Except.ok.inj ((server?_eq_some_iff.mp hkn).symm.trans (hall k' hk' g' hg' hmem'))
    exact congrArg KeyGroup.node (Keyed.eq_of_key_eq hg hg' hname)
  · obtain ⟨-, n, hn, hname⟩ := (mem_group_iff h hg).mp hmem
    have hserver : n ∈ r.servers bucket keys :=
      mem_servers.mpr ⟨key, hkey, server?_eq_some_iff.mpr hn⟩
    have hshown := List.mem_of_find?_eq_some (node_group h hg)
    rw [hn, hone n hserver _ hshown hname]

/-- Two clusters, each with a node of the same name. Keys with an even number of letters are placed
on the second one if the bucket has one letter. -/
def namesakes : Router :=
  (ofPlacements (.hashed (.ofLimit 2 (.ofCode String.length)))
    (.ofHash (.ofCode String.length))).after
      [.setUp (.ofList [.ofRemote "asia", .ofRemote "europe"]),
        .addRoute "asia" ⟨"a", ⟨"host", 1⟩⟩, .addRoute "europe" ⟨"a", ⟨"host", 2⟩⟩]

/-- Keys of one cluster do not meet the node of the same name in the other cluster. -/
theorem batch_serves_iff_namesakes :
    ∃ groups, namesakes.groupKeys "b" ["k", "kkk", "k"] = .ok groups ∧
      ∀ key ∈ ["k", "kkk", "k"], ∀ g ∈ groups.toList, key ∈ g.keys.toList →
        namesakes.nodeFor (.ofKey "b" key) = .ok g.node := by
  have hgroups : namesakes.groupKeys "b" ["k", "kkk", "k"] =
      .ok (.ofList [⟨⟨"a", ⟨"host", 1⟩⟩, .ofList ["k", "kkk"]⟩]) := by decide +kernel
  exact ⟨_, hgroups, (batch_serves_iff hgroups).2.mpr (by decide +kernel)⟩

/-- A batch may put a key under another node than the one that serves it. -/
theorem not_always_served :
    ¬∀ (nodes : NodePlacement) (placement : ClusterPlacement) (calls : List RouterCall)
      (bucket : String) (keys : List String) (groups : KeyGroups), nodes.Blank →
        ((ofPlacements nodes placement).after calls).groupKeys bucket keys = .ok groups →
        ∀ key ∈ keys, ∀ g ∈ groups.toList, key ∈ g.keys.toList →
          ((ofPlacements nodes placement).after calls).nodeFor (.ofKey bucket key) = .ok g.node := by
  intro hall
  let groups : KeyGroups := .ofList [⟨⟨"a", ⟨"host", 1⟩⟩, .ofList ["k", "kk"]⟩]
  have hserved : namesakes.nodeFor (.ofKey "b" "kk") = .ok ⟨"a", ⟨"host", 1⟩⟩ :=
    hall _ _ _ "b" ["k", "kk"] groups (.hashed 2 (.ofCode String.length)) (by decide +kernel) "kk"
      (by decide) ⟨⟨"a", ⟨"host", 1⟩⟩, .ofList ["k", "kk"]⟩ (by decide +kernel) (by decide +kernel)
  have hserver : namesakes.nodeFor (.ofKey "b" "kk") = .ok ⟨"a", ⟨"host", 2⟩⟩ := by decide +kernel
  exact absurd (hserved.symm.trans hserver) (by decide)

/-! ### The order of the keys -/

lemma serves_congr (h : ∀ key, key ∈ keys' ↔ key ∈ keys) :
    r.Serves bucket keys' ↔ r.Serves bucket keys :=
  forall_congr' fun key => imp_congr_left (h key)

lemma mem_served_congr (h : ∀ key, key ∈ keys' ↔ key ∈ keys) (e : Node × String) :
    e ∈ r.served bucket keys' ↔ e ∈ r.served bucket keys := by
  rw [mem_served, mem_served, h]

/-- Neither the order of the keys nor their repetition can be told from the names and keys. -/
lemma byName_groupKeys (h : ∀ key, key ∈ keys' ↔ key ∈ keys) :
    (r.groupKeys bucket keys').map KeyGroups.byName =
      (r.groupKeys bucket keys).map KeyGroups.byName := by
  rw [groupKeys_eq, groupKeys_eq]
  by_cases hserves : r.Serves bucket keys
  · rw [if_pos hserves, if_pos ((serves_congr h).mpr hserves)]
    exact congrArg Except.ok (KeyGroups.byName_ofResolved (mem_served_congr h))
  · rw [if_neg hserves, if_neg fun hs => hserves ((serves_congr h).mp hs)]

/-- The order of ambiguous keys decides which node a group shows, and that of others decides
nothing. -/
lemma groupKeys_congr_iff (hserves : r.Serves bucket keys) :
    (∀ keys', (∀ key, key ∈ keys' ↔ key ∈ keys) →
      r.groupKeys bucket keys' = r.groupKeys bucket keys) ↔ r.Unambiguous bucket keys := by
  have hok : r.groupKeys bucket keys = .ok (.ofResolved (r.served bucket keys)) :=
    groupKeys_eq_ok_iff.mpr ⟨hserves, rfl⟩
  constructor
  · intro hall m hm n hn hname
    -- each of the two nodes is shown if its key comes first
    have hshown : ∀ m ∈ r.servers bucket keys,
        ((KeyGroups.ofResolved (r.served bucket keys)).find? m.name).map KeyGroup.node = some m := by
      intro m hm
      obtain ⟨k, hk, hserver⟩ := mem_servers.mp hm
      have hfirst := (hall (k :: keys) (by simp [hk])).trans hok
      obtain ⟨-, hgroups⟩ := groupKeys_eq_ok_iff.mp hfirst
      rw [← hgroups, KeyGroups.find?_ofResolved]
      simp [served, hserver]
    have hsame := hshown m hm
    rw [hname, hshown n hn] at hsame
    exact (Option.some.inj hsame).symm
  · intro hone keys' hkeys
    have hok' : r.groupKeys bucket keys' = .ok (.ofResolved (r.served bucket keys')) :=
      groupKeys_eq_ok_iff.mpr ⟨(serves_congr hkeys).mpr hserves, rfl⟩
    rw [hok, hok', KeyGroups.eq_of_byName_eq (KeyGroups.byName_ofResolved (mem_served_congr hkeys))]
    intro g hg g' hg' hname
    have hservers : g'.node ∈ r.servers bucket keys := by
      obtain ⟨k, hk, hserver⟩ := mem_servers.mp (List.mem_of_find?_eq_some (node_group hok' hg'))
      exact mem_servers.mpr ⟨k, (hkeys k).mp hk, hserver⟩
    exact hone _ (List.mem_of_find?_eq_some (node_group hok hg)) _ hservers hname

/-- A batch fails exactly if some key has no route, and then for this reason. Otherwise its groups
are not empty and have no key in common, together they hold the keys that were asked for, and each
key is in the group of the name of its node. It makes no difference whether the keys are resolved in
parts, nor for the names and keys of the groups in which order and how often keys are listed. The
same is true of the nodes that the groups show exactly if the keys do not lead to different nodes of
one name. -/
theorem batch_accounts (r : Router) (bucket : String) (keys : List String) :
    (∀ e, r.groupKeys bucket keys = .error e ↔ e = .missingRoute ∧
      ∃ key ∈ keys, r.nodeFor (.ofKey bucket key) = .error .missingRoute) ∧
    (∀ groups, r.groupKeys bucket keys = .ok groups →
      (∀ g ∈ groups.toList, g.keys.toList ≠ []) ∧
      (groups.toList.Pairwise fun g g' => ∀ key ∈ g.keys.toList, key ∉ g'.keys.toList) ∧
      (∀ key, (∃ g ∈ groups.toList, key ∈ g.keys.toList) ↔ key ∈ keys) ∧
      ∀ g ∈ groups.toList, ∀ key ∈ g.keys.toList,
        ∃ n, r.nodeFor (.ofKey bucket key) = .ok n ∧ n.name = g.node.name) ∧
    r.resolveKeysInParts bucket keys = r.resolveKeys bucket keys ∧
    (∀ keys', (∀ key, key ∈ keys' ↔ key ∈ keys) →
      (r.groupKeys bucket keys').map KeyGroups.byName =
        (r.groupKeys bucket keys).map KeyGroups.byName) ∧
    ((∀ keys', (∀ key, key ∈ keys' ↔ key ∈ keys) →
      r.groupKeys bucket keys' = r.groupKeys bucket keys) ↔
        (∃ key ∈ keys, r.nodeFor (.ofKey bucket key) = .error .missingRoute) ∨
          r.Unambiguous bucket keys) := by
  refine ⟨fun e => ?_, fun groups h => ⟨fun g hg => ?_, ?_, fun key => ⟨?_, fun hkey => ?_⟩,
    fun g hg key hmem => ((mem_group_iff h hg).mp hmem).2⟩, resolveKeysInParts_eq r bucket keys,
    fun keys' hkeys => byName_groupKeys hkeys, ?_⟩
  · rw [groupKeys_eq, ← not_serves_iff]
    split
    next hserves => simp [hserves]
    next hserves => simp [hserves, eq_comm]
  · obtain ⟨key, hkey, hserver⟩ := mem_servers.mp (List.mem_of_find?_eq_some (node_group h hg))
    exact List.ne_nil_of_mem
      ((mem_group_iff h hg).mpr ⟨hkey, g.node, server?_eq_some_iff.mp hserver, rfl⟩)
  · refine (List.pairwise_map.mp (Keyed.nodup_keys groups)).imp_of_mem fun hg hg' hne key hmem => ?_
    exact fun hmem' => hne (congrArg (fun g => g.node.name) (eq_of_mem_groups h hg' hg hmem' hmem))
  · rintro ⟨g, hg, hmem⟩
    exact ((mem_group_iff h hg).mp hmem).1
  · obtain ⟨-, -, g, hg, hmem, -⟩ := exists_group h hkey
    exact ⟨g, hg, hmem⟩
  · rw [← not_serves_iff]
    by_cases hserves : r.Serves bucket keys
    · simpa [hserves] using groupKeys_congr_iff hserves
    · simp only [hserves, not_false_eq_true, true_or, iff_true]
      intro keys' hkeys
      rw [groupKeys_eq, groupKeys_eq, if_neg hserves,
        if_neg fun hs => hserves ((serves_congr hkeys).mp hs)]

/-- The order of the keys may decide which node a group shows. -/
theorem not_always_orderless :
    ¬∀ (nodes : NodePlacement) (placement : ClusterPlacement) (calls : List RouterCall)
      (bucket : String) (keys keys' : List String), nodes.Blank →
        (∀ key, key ∈ keys' ↔ key ∈ keys) →
        ((ofPlacements nodes placement).after calls).groupKeys bucket keys' =
          ((ofPlacements nodes placement).after calls).groupKeys bucket keys := by
  intro hall
  have hsame : namesakes.groupKeys "b" ["kk", "k"] = namesakes.groupKeys "b" ["k", "kk"] :=
    hall _ _ _ "b" ["k", "kk"] ["kk", "k"] (.hashed 2 (.ofCode String.length)) (by simp [or_comm])
  exact absurd hsame (by decide +kernel)

end Router

end Federation
