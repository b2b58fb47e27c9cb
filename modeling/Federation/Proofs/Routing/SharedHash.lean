import Mathlib.Data.Nat.ModEq
import Federation.Proofs.Routing.HashedLookups

/-!
One hash code for clusters and for slots.

A router that hashes on both levels takes the code of a lookup modulo the number `k` of clusters to
choose the cluster, and the same code modulo the number `max` of slots to choose the slot. The two
choices are not independent: the cluster at position `i` sees the slots that are congruent to `i`
modulo `gcd k max`, and no others.

* `Router.ownerAt`: the owner of a slot in the ring of a cluster.
* `Router.Leads`: the lookup leads to a node of a cluster.
* `Router.Hashed.leads_iff`: that depends on two remainders of one code.
* `Router.leads_iff_congruent_slot`: the nodes to which some lookup leads.
* `Router.not_all_led_to`: there may be others.
-/

namespace Federation

/-- The codes of lookups are the numbers of 64 bits. -/
def Lookup.Covers (code : String → ℕ) : Prop := ∀ x, x < UInt64.size ↔ ∃ l : Lookup, code l.text = x

namespace Router

/-- The node that owns a slot in the ring of a cluster. -/
def ownerAt (r : Router) (cluster : String) (slot : ℕ) : Option Node :=
  (r.nodes.ring? cluster).bind fun ring => ring.owners[slot]?.join

/-- The lookup goes to the cluster, and there to the node. -/
structure Leads (r : Router) (l : Lookup) (cluster : String) (n : Node) : Prop where
  cluster : ∃ k, r.placement.clusterFor l = .ok (some k) ∧ k.name = cluster
  node : r.nodeFor l = .ok n

section

variable {max : ℕ} {hash : HashFunction} {code : String → ℕ} {r : Router} {c : String} {n : Node}
  {l : Lookup} {i : ℕ}

/-- The owner of a slot in closed form. -/
lemma Hashed.ownerAt_eq (h : r.Hashed max hash) (c : String) {s : ℕ} (hs : s < max) :
    r.ownerAt c s = (r.nodes.nodesOf c).toList[min (s / (max / (r.nodes.nodesOf c).size))
      ((r.nodes.nodesOf c).size - 1)]? := by
  obtain ⟨p, hp, hsound, rfl, rfl⟩ := h.nodes_eq
  rw [ownerAt, hp, NodePlacement.ring?, NodePlacement.nodesOf, HashedNodes.nodesOf]
  cases hr : p.ring? c with
  | none => simp
  | some ring =>
      obtain ⟨hring, hmax, -⟩ := hsound ring (Keyed.find?_eq_some_iff.mp hr).1
      rw [Option.bind_some, Option.elim_some, hring.getElem?_owners, hmax, if_pos hs,
        Option.join_some]

/-- A cluster has no more nodes than slots. -/
lemma Hashed.size_le (h : r.Hashed max hash) (c : String) : (r.nodes.nodesOf c).size ≤ max := by
  obtain ⟨p, hp, hsound, rfl, -⟩ := h.nodes_eq
  rw [hp, NodePlacement.nodesOf, HashedNodes.nodesOf_eq]
  obtain ⟨hring, hmax, -⟩ := hsound.ringOf c
  exact hmax ▸ hring.fits

/-- Two remainders of the code tell where a lookup leads. -/
lemma Hashed.leads_iff (h : r.Hashed max (.ofCode code)) (hmax : 0 < max)
    (hi : r.clusters.keys[i]? = some c) :
    r.Leads l c n ↔ code l.text % r.clusters.size = i ∧
      r.ownerAt c (code l.text % max) = some n := by
  have hlen : i < r.clusters.keys.length := (List.getElem?_eq_some_iff.mp hi).1
  have hsize : r.clusters.keys.length = r.clusters.size := List.length_map _
  have hk : r.clusters.size ≠ 0 := by omega
  have hclusters : r.clusters.toList ≠ [] := List.ne_nil_of_length_pos (by
    rw [Keyed.size] at hk
    omega)
  have hslot : ∀ m, m ≠ 0 → (HashFunction.ofCode code).slot l.text m = code l.text % m :=
    fun m hm => if_neg hm
  have hchosen : r.placement.clusterFor l =
      .ok r.clusters.toList[code l.text % r.clusters.size]? := by
    have hslotk := hslot _ hk
    rw [Keyed.size] at hslotk
    rw [h.placement_eq, ClusterPlacement.clusterFor, HashedClusters.clusterFor,
      if_neg (by simpa using hclusters), hslotk, Keyed.size]
  have hposition : (∃ k, r.placement.clusterFor l = .ok (some k) ∧ k.name = c) ↔
      code l.text % r.clusters.size = i := by
    have hlt : code l.text % r.clusters.size < r.clusters.keys.length := by
      rw [hsize]
      exact Nat.mod_lt _ (by omega)
    calc (∃ k, r.placement.clusterFor l = .ok (some k) ∧ k.name = c)
        ↔ r.clusters.keys[code l.text % r.clusters.size]? = some c := by
          rw [hchosen, Keyed.keys, List.getElem?_map, Option.map_eq_some_iff]
          simp
      _ ↔ code l.text % r.clusters.size = i := by
          rw [← hi]
          exact List.getElem?_inj hlt r.clusters.nodup_keys
  have hnode : code l.text % r.clusters.size = i →
      (r.nodeFor l = .ok n ↔ r.ownerAt c (code l.text % max) = some n) := by
    intro hcode
    rw [h.nodeFor_eq, hsize, hslot _ hk, hcode, hi, Option.bind_some, shareOf, hslot _ hmax.ne',
      ← Keyed.size, ← h.ownerAt_eq c (Nat.mod_lt _ hmax)]
    cases r.ownerAt c (code l.text % max) <;> simp
  constructor
  · rintro ⟨hcluster, hn⟩
    have hcode := hposition.mp hcluster
    exact ⟨hcode, (hnode hcode).mp hn⟩
  · rintro ⟨hcode, hn⟩
    exact ⟨hposition.mpr hcode, (hnode hcode).mpr hn⟩

/-- As long as a code may be as large as all pairs of a cluster and a slot, any two remainders go
together that agree modulo the greatest common divisor. -/
lemma exists_code_iff (hcode : Lookup.Covers code) {k max i : ℕ} (hfit : k * max ≤ UInt64.size)
    (hi : i < k) {P : ℕ → Prop} (hmax : 0 < max) :
    (∃ l : Lookup, code l.text % k = i ∧ P (code l.text % max)) ↔
      ∃ s < max, P s ∧ s ≡ i [MOD k.gcd max] := by
  constructor
  · rintro ⟨l, rfl, hP⟩
    refine ⟨code l.text % max, Nat.mod_lt _ hmax, hP, ?_⟩
    have hslot : code l.text % max ≡ code l.text [MOD k.gcd max] :=
      (Nat.mod_modEq _ _).of_dvd (Nat.gcd_dvd_right k max)
    have hcluster : code l.text % k ≡ code l.text [MOD k.gcd max] :=
      (Nat.mod_modEq _ _).of_dvd (Nat.gcd_dvd_left k max)
    exact hslot.trans hcluster.symm
  · rintro ⟨s, hs, hP, hmod⟩
    obtain ⟨x, hx⟩ : ∃ x, x = (Nat.chineseRemainder' hmod.symm : ℕ) := ⟨_, rfl⟩
    obtain ⟨hxk, hxmax⟩ := (Nat.chineseRemainder' hmod.symm).2
    rw [← hx] at hxk hxmax
    have hlt : x < UInt64.size := by
      calc x < k.lcm max := by
            rw [hx]
            exact Nat.chineseRemainder'_lt_lcm hmod.symm (by omega) (by omega)
        _ ≤ k * max := Nat.le_of_dvd (Nat.mul_pos (by omega) hmax) (Nat.lcm_dvd_mul k max)
        _ ≤ UInt64.size := hfit
    obtain ⟨l, rfl⟩ := (hcode x).mp hlt
    refine ⟨l, ?_, ?_⟩
    · exact Nat.mod_eq_of_modEq hxk hi
    · rwa [Nat.mod_eq_of_modEq hxmax hs]

/-- Among as many consecutive slots as the modulus there is one of each remainder. -/
lemma exists_modEq_between (first i : ℕ) {g : ℕ} (hg : 0 < g) :
    ∃ s, first ≤ s ∧ s < first + g ∧ s ≡ i [MOD g] := by
  refine ⟨first + (i + (g - 1) * first) % g, by omega, ?_, ?_⟩
  · have hlt := Nat.mod_lt (i + (g - 1) * first) hg
    omega
  · have hsum : first + (i + (g - 1) * first) = i + g * first := by
      obtain ⟨g, rfl⟩ : ∃ g', g = g' + 1 := ⟨g - 1, by omega⟩
      rw [Nat.add_sub_cancel]
      ring
    calc first + (i + (g - 1) * first) % g
        ≡ first + (i + (g - 1) * first) [MOD g] := (Nat.mod_modEq _ _).add_left first
      _ ≡ i [MOD g] := by
          rw [hsum]
          exact Nat.add_mul_mod_self_left i g first

/-- A node owns at least a full share of consecutive slots. -/
lemma Hashed.exists_share (h : r.Hashed max hash) (hn : n ∈ (r.nodes.nodesOf c).toList) :
    ∃ first, ∀ s, first ≤ s → s < first + max / (r.nodes.nodesOf c).size →
      s < max ∧ r.ownerAt c s = some n := by
  obtain ⟨j, hj⟩ := List.mem_iff_getElem?.mp hn
  have hlt : j < (r.nodes.nodesOf c).size := (List.getElem?_eq_some_iff.mp hj).1
  set share := max / (r.nodes.nodesOf c).size with hshare
  have hpos : 0 < share := Nat.div_pos (h.size_le c) (by omega)
  refine ⟨j * share, fun s hle hs => ?_⟩
  have hsmax : s < max := by
    calc s < (j + 1) * share := by rwa [Nat.add_mul, Nat.one_mul]
      _ ≤ (r.nodes.nodesOf c).size * share := Nat.mul_le_mul_right _ hlt
      _ ≤ max := Nat.mul_div_le max _
  have hquotient : s / share = j :=
    Nat.div_eq_of_lt_le hle (by rwa [Nat.add_mul, Nat.one_mul])
  refine ⟨hsmax, ?_⟩
  rw [h.ownerAt_eq c hsmax, ← hshare, hquotient, Nat.min_eq_left (by omega), hj]

end

/-- After any history of changes of a router that hashes on both levels, some lookup leads to a node
of the registered cluster at position `i` exactly if the node owns a slot that is congruent to `i`
modulo the greatest common divisor of the numbers of clusters and of slots. That is so of all nodes
of a cluster whose shares are at least as large as that divisor. -/
theorem leads_iff_congruent_slot (max : ℕ) {code : String → ℕ} (hcode : Lookup.Covers code)
    (calls : List RouterCall) :
    let r := (hashed max (.ofCode code)).after calls
    r.clusters.size * max ≤ UInt64.size →
    ∀ i c, r.clusters.keys[i]? = some c → ∀ n ∈ (r.nodes.nodesOf c).toList,
      ((∃ l, r.Leads l c n) ↔
        ∃ s < max, r.ownerAt c s = some n ∧ s ≡ i [MOD r.clusters.size.gcd max]) ∧
      (r.clusters.size.gcd max ≤ max / (r.nodes.nodesOf c).size → ∃ l, r.Leads l c n) := by
  intro r hfit i c hi n hn
  have hr : r.Hashed max (.ofCode code) := hashed_after max _ calls
  have hlt : i < r.clusters.size := by
    have hlen := (List.getElem?_eq_some_iff.mp hi).1
    rwa [Keyed.keys, List.length_map] at hlen
  have hmax : 0 < max := (List.length_pos_of_mem hn).trans_le (hr.size_le c)
  have hiff : (∃ l, r.Leads l c n) ↔
      ∃ s < max, r.ownerAt c s = some n ∧ s ≡ i [MOD r.clusters.size.gcd max] := by
    simp only [hr.leads_iff hmax hi]
    exact exists_code_iff hcode hfit hlt (P := fun s => r.ownerAt c s = some n) hmax
  refine ⟨hiff, fun hshare => hiff.mpr ?_⟩
  obtain ⟨first, hfirst⟩ := hr.exists_share hn
  obtain ⟨s, hle, hs, hmod⟩ :=
    exists_modEq_between first i (Nat.gcd_pos_of_pos_right r.clusters.size hmax)
  obtain ⟨hsmax, howner⟩ := hfirst s hle (by omega)
  exact ⟨s, hsmax, howner, hmod⟩

/-! ### Two clusters and two slots -/

/-- Two clusters, one of them with two nodes. -/
def pairCalls : List RouterCall :=
  [.setUp (.ofList [.ofRemote "asia", .ofRemote "europe"]), .addRoute "asia" ⟨"a", ⟨"host", 1⟩⟩,
    .addRoute "asia" ⟨"b", ⟨"host", 2⟩⟩]

/-- The number of characters, in 64 bits. -/
def lengthCode (s : String) : ℕ := s.length % UInt64.size

lemma covers_lengthCode : Lookup.Covers lengthCode := by
  intro x
  constructor
  · intro hx
    refine ⟨.ofBucket (String.ofList (List.replicate x 'a')), ?_⟩
    have hlength : (Lookup.ofBucket (String.ofList (List.replicate x 'a'))).text.length = x := by
      simp [Lookup.text, Lookup.ofBucket]
    rw [lengthCode, hlength, Nat.mod_eq_of_lt hx]
  · rintro ⟨l, rfl⟩
    exact Nat.mod_lt _ (by decide)

/-- With three slots some lookup leads to the second node, because two and three have no common
divisor. -/
theorem leads_of_coprime :
    ∃ l, ((hashed 3 (.ofCode lengthCode)).after pairCalls).Leads l "asia"
      ⟨"b", ⟨"host", 2⟩⟩ := by
  have h := leads_iff_congruent_slot 3 covers_lengthCode pairCalls (by decide +kernel) 0 "asia"
    (by decide +kernel) ⟨"b", ⟨"host", 2⟩⟩ (by decide +kernel)
  exact h.2 (by decide +kernel)

/-- With two slots no lookup leads to the second node: it owns the odd slot, and the codes that
choose its cluster are even. -/
theorem not_all_led_to : ¬∀ (max : ℕ) (code : String → ℕ) (calls : List RouterCall), 0 < max →
    Lookup.Covers code →
    ((hashed max (.ofCode code)).after calls).clusters.size * max ≤ UInt64.size →
    ∀ c ∈ ((hashed max (.ofCode code)).after calls).clusters.keys,
      ∀ n ∈ (((hashed max (.ofCode code)).after calls).nodes.nodesOf c).toList,
        ∃ l, ((hashed max (.ofCode code)).after calls).Leads l c n := by
  intro h
  obtain ⟨l, hl⟩ := h 2 lengthCode pairCalls (by decide) covers_lengthCode (by decide +kernel) "asia"
    (by decide +kernel) ⟨"b", ⟨"host", 2⟩⟩ (by decide +kernel)
  have hfirst : ((hashed 2 (.ofCode lengthCode)).after pairCalls).clusters.keys[0]? =
      some "asia" := by decide +kernel
  obtain ⟨heven, howner⟩ :=
    ((hashed_after 2 (.ofCode lengthCode) pairCalls).leads_iff (by decide) hfirst).mp hl
  have hsize : ((hashed 2 (.ofCode lengthCode)).after pairCalls).clusters.size = 2 := by
    decide +kernel
  rw [hsize] at heven
  rw [heven] at howner
  exact absurd howner (by decide +kernel)

end Router

end Federation
