import Mathlib.Tactic
import Federation.Placement.Ring
import Federation.Proofs.Collection.Keyed

/-!
How a ring divides its slots.

With `m` nodes and `max ≥ m` slots each node gets `max / m` consecutive slots and the last one also
those that are left over, so slot `i` belongs to the node at position `min (i / (max / m)) (m - 1)`.

* `Run.getElem?_divide`: the runs, one for each node.
* `Run.getElem?_owners`: the owner of each slot in closed form.
* `Ring.Sound`: the three parts of a ring, its nodes, runs and owners, agree with one another, and
  the nodes are not more than the slots. Every change of a ring keeps this (`Ring.Sound.add`,
  `Ring.Sound.remove`, `Ring.Sound.clear`).
* `Ring.Apportioned`: what a sound ring looks like from outside (`Ring.Sound.apportioned`).
* `Ring.Sound.nodeFor_eq`: the owner of the slot of a lookup in closed form.
-/

namespace Federation

/-! ### Runs -/

namespace Run

lemma length_divideFrom (max share first : ℕ) (l : List Node) :
    (divideFrom max share first l).length = l.length := by
  fun_induction divideFrom max share first l with
  | case1 => rfl
  | case2 => rfl
  | case3 first n m l ih => simpa using ih

/-- The runs begin `share` slots apart, and the last one ends with the slots. -/
lemma getElem?_divideFrom (max share first : ℕ) (l : List Node) (j : ℕ) :
    (divideFrom max share first l)[j]? = l[j]?.map fun n =>
      ⟨n, first + j * share, if j + 1 = l.length then max - (first + j * share) else share⟩ := by
  fun_induction divideFrom max share first l generalizing j with
  | case1 => simp
  | case2 first n => cases j <;> simp
  | case3 first n m l ih =>
      cases j with
      | zero => simp
      | succ j =>
          have hfirst : first + share + j * share = first + (j + 1) * share := by ring
          simp only [List.getElem?_cons_succ, ih, hfirst, List.length_cons,
            Nat.add_right_cancel_iff]

lemma getElem?_divide (max : ℕ) (l : List Node) (j : ℕ) :
    (divide max l)[j]? = l[j]?.map fun n =>
      ⟨n, j * (max / l.length),
        if j + 1 = l.length then max - j * (max / l.length) else max / l.length⟩ := by
  simp [divide, getElem?_divideFrom]

/-- The slots of consecutive runs, in closed form: a position goes to the run that its quotient by
`share` counts, and positions beyond that to the last run. -/
lemma getElem?_slots {max share first : ℕ} {l : List Node} (hl : l ≠ []) (hshare : 0 < share)
    (hfit : first + (l.length - 1) * share ≤ max) (k : ℕ) :
    ((divideFrom max share first l).flatMap fun r => List.replicate r.length (some r.node))[k]? =
      if k < max - first then some l[min (k / share) (l.length - 1)]? else none := by
  fun_induction divideFrom max share first l generalizing k with
  | case1 => exact absurd rfl hl
  | case2 first n => simp [List.getElem?_replicate]
  | case3 first n m l ih =>
      have hlen : (n :: m :: l).length - 1 = (m :: l).length - 1 + 1 := by simp
      rw [hlen, Nat.add_mul, Nat.one_mul] at hfit
      have ih := ih (by simp) (by omega)
      rw [List.flatMap_cons, List.getElem?_append, List.length_replicate]
      by_cases hk : k < share
      · rw [if_pos hk, List.getElem?_replicate, if_pos hk, if_pos (by omega),
          Nat.div_eq_of_lt hk]
        simp
      · obtain ⟨d, rfl⟩ := Nat.exists_eq_add_of_le (Nat.le_of_not_lt hk)
        have hdiv : (share + d) / share = d / share + 1 := by
          rw [Nat.add_div_left d hshare]
        rw [if_neg hk, ih, Nat.add_sub_cancel_left, hlen, hdiv, Nat.add_min_add_right,
          List.getElem?_cons_succ]
        exact if_congr (by omega) rfl rfl

/-- A full share is not empty as long as there are not more nodes than slots. -/
lemma share_pos {max : ℕ} {l : List Node} (hl : l ≠ []) (hmax : l.length ≤ max) :
    0 < max / l.length :=
  Nat.div_pos hmax (List.length_pos_iff.mpr hl)

/-- All shares but the last one leave room for another. -/
lemma pred_mul_share_le (max : ℕ) (l : List Node) : (l.length - 1) * (max / l.length) ≤ max :=
  (Nat.mul_le_mul_right _ (Nat.sub_le _ _)).trans (Nat.mul_div_le max l.length)

lemma divide_ne_nil {max : ℕ} {l : List Node} (hl : l ≠ []) : divide max l ≠ [] := by
  intro h
  have hlen := length_divideFrom max (max / l.length) 0 l
  rw [divide] at h
  rw [h, List.length_nil] at hlen
  exact hl (List.length_eq_zero_iff.mp hlen.symm)

/-- The owner of each slot: of `m` nodes the one at position `min (i / (max / m)) (m - 1)`. -/
lemma getElem?_owners {max : ℕ} {l : List Node} (hmax : l.length ≤ max) (i : ℕ) :
    (owners max (divide max l))[i]? =
      if i < max then some l[min (i / (max / l.length)) (l.length - 1)]? else none := by
  by_cases hl : l = []
  · subst hl
    simp [divide, divideFrom, owners, Array.getElem?_replicate]
  · have hempty : (divide max l).isEmpty = false := by simpa using divide_ne_nil hl
    rw [owners, hempty, if_neg (by simp), List.getElem?_toArray, divide,
      getElem?_slots hl (share_pos hl hmax) (by simpa using pred_mul_share_le max l) i,
      Nat.sub_zero]

lemma size_owners {max : ℕ} {l : List Node} (hmax : l.length ≤ max) :
    (owners max (divide max l)).size = max := by
  refine Nat.le_antisymm ?_ ?_
  · by_contra hlt
    have h := getElem?_owners hmax max
    rw [if_neg (lt_irrefl max), Array.getElem?_eq_none_iff] at h
    omega
  · by_contra hlt
    rw [Nat.not_le] at hlt
    have h := getElem?_owners hmax (owners max (divide max l)).size
    rw [if_pos hlt, Array.getElem?_size] at h
    exact absurd h (by simp)

end Run

/-! ### Rings whose parts agree -/

namespace Ring

/-- The runs and owners of a ring are those of its nodes, of which there are not more than slots. -/
structure Sound (r : Ring) : Prop where
  laidOut : r = layOut r.cluster r.max r.hash r.nodes
  fits : r.nodes.size ≤ r.max

lemma sound_layOut {cluster : String} {max : ℕ} {hash : HashFunction} {nodes : NodeSet}
    (h : nodes.size ≤ max) : (layOut cluster max hash nodes).Sound :=
  ⟨rfl, h⟩

lemma sound_empty (cluster : String) (max : ℕ) (hash : HashFunction) :
    (empty cluster max hash).Sound :=
  sound_layOut (Nat.zero_le max)

/-! ### Changes -/

lemma add_eq_ok_iff {r r' : Ring} {n : Node} :
    r.add n = .ok r' ↔ r.nodes.size ≠ r.max ∧ r.nodes.contains n.name = false ∧
      r' = r.withNodes (r.nodes.insert n) := by
  rw [add]
  split
  next hfull => simp [hfull]
  next hfull =>
    split
    next hdup => simp [hdup]
    next hdup => simp [hfull, hdup, eq_comm]

lemma remove_eq_ok_iff {r r' : Ring} {n : Node} :
    r.remove n = .ok r' ↔ r.nodes.contains n.name = true ∧
      r' = r.withNodes (r.nodes.erase n.name) := by
  rw [remove]
  split
  next h => simp [h, eq_comm]
  next h => simp [h]

@[simp] lemma withNodes_nodes (r : Ring) (nodes : NodeSet) :
    (r.withNodes nodes).nodes = nodes := rfl

@[simp] lemma withNodes_cluster (r : Ring) (nodes : NodeSet) :
    (r.withNodes nodes).cluster = r.cluster := rfl

@[simp] lemma withNodes_max (r : Ring) (nodes : NodeSet) : (r.withNodes nodes).max = r.max := rfl

@[simp] lemma withNodes_hash (r : Ring) (nodes : NodeSet) : (r.withNodes nodes).hash = r.hash := rfl

lemma Sound.add {r r' : Ring} {n : Node} (h : r.Sound) (hadd : r.add n = .ok r') : r'.Sound := by
  obtain ⟨hfull, hnew, rfl⟩ := add_eq_ok_iff.mp hadd
  refine sound_layOut ?_
  have hfits := h.fits
  rw [Keyed.size_insert hnew]
  omega

lemma Sound.remove {r r' : Ring} {n : Node} (h : r.Sound) (hrem : r.remove n = .ok r') :
    r'.Sound := by
  obtain ⟨-, rfl⟩ := remove_eq_ok_iff.mp hrem
  exact sound_layOut ((Keyed.size_erase_le r.nodes n.name).trans h.fits)

lemma sound_clear (r : Ring) : r.clear.Sound := sound_layOut (Nat.zero_le r.max)

/-! ### Owners and runs -/

lemma Sound.owners_eq {r : Ring} (h : r.Sound) :
    r.owners = Run.owners r.max (Run.divide r.max r.nodes.toList) := by
  conv_lhs => rw [h.laidOut]
  rfl

lemma Sound.runs_eq {r : Ring} (h : r.Sound) : r.runs = Run.divide r.max r.nodes.toList := by
  conv_lhs => rw [h.laidOut]
  rfl

lemma Sound.getElem?_owners {r : Ring} (h : r.Sound) (i : ℕ) :
    r.owners[i]? = if i < r.max then
      some r.nodes.toList[min (i / (r.max / r.nodes.size)) (r.nodes.size - 1)]? else none := by
  rw [h.owners_eq]
  exact Run.getElem?_owners h.fits i

/-- The owner of the slot of a lookup, in closed form. A ring without nodes has no owners. -/
theorem Sound.nodeFor_eq {r : Ring} (h : r.Sound) (l : Lookup) :
    r.nodeFor l = r.nodes.toList[min (r.hash.slot l.text r.max / (r.max / r.nodes.size))
      (r.nodes.size - 1)]? := by
  rw [nodeFor, h.getElem?_owners]
  split
  next => rfl
  next hslot =>
    have hmax : r.max = 0 := by
      by_contra hne
      exact hslot (r.hash.slot_lt l.text r.max (Nat.pos_of_ne_zero hne))
    have hnil : r.nodes.toList = [] := List.length_eq_zero_iff.mp (by
      have := h.fits
      rw [Keyed.size] at this
      omega)
    simp [hnil]

/-! ### Apportioned rings -/

/-- What a ring looks like from outside. Without nodes all slots are vacant. Otherwise the nodes own
one run of slots each, which follow one another in the order of names from the first slot to the
last, and the slots that are told for a node are those that it owns. -/
structure Apportioned (r : Ring) : Prop where
  size_eq : r.owners.size = r.max
  ordered : r.nodes.keys.Pairwise (· < ·)
  vacant : r.nodes.toList = [] → ∀ i < r.max, r.owners[i]? = some none
  owned : r.nodes.toList ≠ [] → ∀ i < r.max, ∃ n ∈ r.nodes.toList, r.owners[i]? = some (some n)
  /-- The runs are given by their borders `b`: none is empty, the last one takes what is left over,
  and all others have the same size. -/
  runs : r.nodes.toList ≠ [] → ∃ b : ℕ → ℕ, b 0 = 0 ∧ b r.nodes.size = r.max ∧
    (∀ j < r.nodes.size, b j < b (j + 1)) ∧
    (∀ j, j + 1 < r.nodes.size → b (j + 1) = b j + r.max / r.nodes.size) ∧
    b r.nodes.size = b (r.nodes.size - 1) + (r.max / r.nodes.size + r.max % r.nodes.size) ∧
    ∀ j n, r.nodes.toList[j]? = some n → ∀ i, r.owners[i]? = some (some n) ↔ b j ≤ i ∧ i < b (j + 1)
  slotsOf_eq : ∀ n, r.slotsOf n = (List.range r.max).filter fun i =>
    (r.owners[i]?).join.any fun m => m.name = n.name

/-- The border before the run at position `j` of `m` runs. -/
def border (max m j : ℕ) : ℕ := if j < m then j * (max / m) else max

/-- A slot below `max` is in the run at position `j` exactly if it lies between its borders. -/
lemma border_le_iff {max m j i : ℕ} (hj : j < m) (hm : m ≤ max) :
    border max m j ≤ i ∧ i < border max m (j + 1) ↔ i < max ∧ min (i / (max / m)) (m - 1) = j := by
  have hshare : 0 < max / m := Nat.div_pos hm (by omega)
  have hall : m * (max / m) ≤ max := Nat.mul_div_le max m
  rw [border, border, if_pos hj, ← Nat.le_div_iff_mul_le hshare]
  by_cases hlast : j + 1 < m
  · have hstep : (j + 1) * (max / m) ≤ m * (max / m) := Nat.mul_le_mul_right _ hlast.le
    rw [if_pos hlast, ← Nat.div_lt_iff_lt_mul hshare]
    constructor
    · rintro ⟨hle, hlt⟩
      have hi := (Nat.div_lt_iff_lt_mul hshare).mp hlt
      omega
    · rintro ⟨-, hmin⟩
      omega
  · rw [if_neg hlast]
    omega

lemma border_lt_succ {max m j : ℕ} (hj : j < m) (hm : m ≤ max) :
    border max m j < border max m (j + 1) := by
  have hshare : 0 < max / m := Nat.div_pos hm (by omega)
  have hmem := (border_le_iff (i := j * (max / m)) hj hm).mpr ⟨?_, ?_⟩
  · omega
  · calc j * (max / m) < m * (max / m) := Nat.mul_lt_mul_of_pos_right hj hshare
      _ ≤ max := Nat.mul_div_le max m
  · rw [Nat.mul_div_cancel _ hshare]
    omega

lemma border_le (max m j : ℕ) : border max m j ≤ max := by
  rw [border]
  split
  next hj => exact (Nat.mul_le_mul_right _ hj.le).trans (Nat.mul_div_le max m)
  next => exact le_rfl

/-- The border after a run, from where the run begins and how long it is. -/
lemma border_succ_eq {max m j : ℕ} (hj : j < m) :
    border max m (j + 1) =
      j * (max / m) + if j + 1 = m then max - j * (max / m) else max / m := by
  rw [border]
  by_cases hlast : j + 1 = m
  · have hle := border_le max m j
    rw [border, if_pos hj] at hle
    rw [if_neg (by omega), if_pos hlast]
    omega
  · rw [if_pos (by omega), if_neg hlast]
    ring

lemma border_last {max m : ℕ} (hm : 0 < m) :
    border max m m = border max m (m - 1) + (max / m + max % m) := by
  rw [border, border, if_neg (lt_irrefl m), if_pos (by omega)]
  have hdiv := Nat.div_add_mod max m
  have hpred : m * (max / m) = (m - 1) * (max / m) + max / m := by
    conv_lhs => rw [show m = m - 1 + 1 by omega]
    rw [Nat.add_mul, Nat.one_mul, Nat.sub_add_cancel hm]
  omega

lemma filter_range_eq_range' {max first len : ℕ} {p : ℕ → Bool} (hle : first + len ≤ max)
    (hp : ∀ i < max, p i = true ↔ first ≤ i ∧ i < first + len) :
    (List.range max).filter p = List.range' first len := by
  have hleft : ((List.range max).filter p).Pairwise (· < ·) := List.pairwise_lt_range.filter p
  have hright : (List.range' first len).Pairwise (· < ·) := List.pairwise_lt_range' 1
  refine List.Perm.eq_of_pairwise (fun a b _ _ hab hba => ?_) hleft hright ?_
  · omega
  · refine (List.perm_ext_iff_of_nodup (List.nodup_range.filter p) List.nodup_range').mpr ?_
    intro i
    rw [List.mem_filter, List.mem_range, List.mem_range'_1]
    constructor
    · rintro ⟨hi, h⟩
      exact (hp i hi).mp h
    · intro h
      exact ⟨by omega, (hp i (by omega)).mpr h⟩

variable {r : Ring}

/-- Positions of the nodes are told apart by the nodes' names. -/
lemma position_eq {j k : ℕ} {n m : Node} (hj : r.nodes.toList[j]? = some n)
    (hk : r.nodes.toList[k]? = some m) (h : n.name = m.name) : j = k := by
  have hlt : j < r.nodes.keys.length := by
    rw [Keyed.keys, List.length_map]
    exact (List.getElem?_eq_some_iff.mp hj).1
  refine (List.getElem?_inj hlt r.nodes.nodup_keys).mp ?_
  rw [Keyed.keys, List.getElem?_map, List.getElem?_map, hj, hk, Option.map_some, Option.map_some, h]

lemma Sound.owner_iff (h : r.Sound) {j : ℕ} {n : Node} (hj : r.nodes.toList[j]? = some n) (i : ℕ) :
    r.owners[i]? = some (some n) ↔
      border r.max r.nodes.size j ≤ i ∧ i < border r.max r.nodes.size (j + 1) := by
  have hlt : j < r.nodes.size := (List.getElem?_eq_some_iff.mp hj).1
  rw [h.getElem?_owners, border_le_iff hlt h.fits]
  split
  next hi =>
    rw [Option.some_inj]
    refine ⟨fun he => ⟨hi, position_eq he hj rfl⟩, fun he => ?_⟩
    rw [he.2, hj]
  next hi => simp [hi]

lemma Sound.exists_owner (h : r.Sound) (hne : r.nodes.toList ≠ []) {i : ℕ} (hi : i < r.max) :
    ∃ n ∈ r.nodes.toList, r.owners[i]? = some (some n) := by
  have hpos : 0 < r.nodes.size := List.length_pos_iff.mpr hne
  have hlt : min (i / (r.max / r.nodes.size)) (r.nodes.size - 1) < r.nodes.toList.length := by
    rw [← Keyed.size]
    omega
  refine ⟨_, List.getElem_mem hlt, ?_⟩
  rw [h.getElem?_owners, if_pos hi, List.getElem?_eq_getElem hlt]

lemma Sound.slotsOf_eq (h : r.Sound) (n : Node) :
    r.slotsOf n = (List.range r.max).filter fun i =>
      (r.owners[i]?).join.any fun m => m.name = n.name := by
  rw [slotsOf]
  split
  next hnone =>
    -- nobody has the name, so no slot is owned by it
    symm
    rw [List.filter_eq_nil_iff]
    intro i hi hany
    obtain ⟨m, hm, hname⟩ := (Option.any_eq_true _ _).mp hany
    rw [h.getElem?_owners, if_pos (List.mem_range.mp hi), Option.join_some] at hm
    rw [List.find?_eq_none, h.runs_eq] at hnone
    have hrun := Run.getElem?_divide r.max r.nodes.toList
      (min (i / (r.max / r.nodes.size)) (r.nodes.size - 1))
    rw [hm, Option.map_some] at hrun
    exact hnone _ (List.mem_of_getElem? hrun) hname
  next run hsome =>
    obtain ⟨j, hj⟩ := List.mem_iff_getElem?.mp (List.mem_of_find?_eq_some hsome)
    rw [h.runs_eq, Run.getElem?_divide, Option.map_eq_some_iff] at hj
    obtain ⟨m, hm, rfl⟩ := hj
    have hname : m.name = n.name := by simpa using List.find?_some hsome
    have hlt : j < r.nodes.size := (List.getElem?_eq_some_iff.mp hm).1
    have hmem : m ∈ r.nodes.toList := List.mem_of_getElem? hm
    have hfirst : border r.max r.nodes.size j = j * (r.max / r.nodes.size) := if_pos hlt
    have hend : border r.max r.nodes.size (j + 1) = _ := border_succ_eq hlt
    symm
    refine filter_range_eq_range' (hend ▸ border_le _ _ _) fun i hi => ?_
    obtain ⟨o, ho, howner⟩ := h.exists_owner (List.ne_nil_of_mem hmem) hi
    rw [howner, Option.join_some, Option.any_some, decide_eq_true_iff, ← hname]
    calc o.name = m.name ↔ o = m := ⟨Keyed.eq_of_key_eq ho hmem, fun he => he ▸ rfl⟩
      _ ↔ r.owners[i]? = some (some m) := by rw [howner, Option.some_inj, Option.some_inj]
      _ ↔ _ := by rw [h.owner_iff hm, hfirst, hend]; rfl

/-- A ring whose parts agree is apportioned among its nodes. -/
theorem Sound.apportioned (h : r.Sound) : r.Apportioned where
  size_eq := by
    rw [h.owners_eq]
    exact Run.size_owners h.fits
  ordered := r.nodes.pairwise_keys_lt
  vacant := fun hnil i hi => by
    rw [h.getElem?_owners, if_pos hi, hnil, List.getElem?_nil]
  owned := fun hne _ hi => h.exists_owner hne hi
  runs := fun hne => by
    have hpos : 0 < r.nodes.size := List.length_pos_iff.mpr hne
    refine ⟨border r.max r.nodes.size, ?_, ?_, fun j hj => border_lt_succ hj h.fits, fun j hj => ?_,
      border_last hpos, fun j n hj => h.owner_iff hj⟩
    · rw [border, if_pos hpos, Nat.zero_mul]
    · rw [border, if_neg (lt_irrefl _)]
    · rw [border, border, if_pos hj, if_pos (by omega)]
      ring
  slotsOf_eq := h.slotsOf_eq

end Ring

end Federation
