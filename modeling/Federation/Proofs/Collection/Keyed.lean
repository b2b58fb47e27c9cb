import Mathlib.Tactic
import Federation.Collection.Keyed

/-!
What a collection holds after a change.

* `Keyed.find?_eq_some_iff`, `Keyed.contains_iff`: look-ups in terms of membership. A key singles
  out its item (`Keyed.eq_of_key_eq`).
* `Keyed.mem_insert`, `Keyed.mem_erase`: the items after a change, and `Keyed.find?_insert`,
  `Keyed.find?_erase`, `Keyed.find?_insertIfNew`, `Keyed.find?_map`, `Keyed.find?_union` the same
  for look-ups.
* `Keyed.empty_union`, `Keyed.union_self`, `Keyed.union_union`: unions that add nothing.
* `Keyed.ofList_toList`, `Keyed.foldl_insert_toList`: a collection is made of its items.
* `Keyed.size_insert`, `Keyed.size_erase_le`: how the number of items changes.
* `Keyed.ext_mem`, `Keyed.ext_find?`, `Assoc.ext_get?`: collections with the same items are equal,
  and so are finite functions with the same values. `Assoc.get?_insert`, `Assoc.get?_erase`,
  `Assoc.get?_map`: the values after a change.
* `ValueSet.mem_difference`, `ValueSet.mem_ofList`, `ValueSet.mem_foldl_erase`,
  `ValueSet.mem_foldl_insertIfNew`: the values of a difference and of a set to which a list was
  added, or from which it was removed.
-/

namespace Federation

open Std

namespace Keyed

variable {α κ : Type} [Ord κ] {key : α → κ}

lemma ext_toList : ∀ {s t : Keyed key}, s.toList = t.toList → s = t
  | ⟨_, _⟩, ⟨_, _⟩, rfl => rfl

@[simp] lemma toList_empty : (∅ : Keyed key).toList = [] := rfl

@[simp] lemma toList_filter (p : α → Bool) (s : Keyed key) :
    (s.filter p).toList = s.toList.filter p := rfl

@[simp] lemma toList_map (f : α → α) (hf : ∀ a, key (f a) = key a) (s : Keyed key) :
    (s.map f hf).toList = s.toList.map f := rfl

/-! ### Look-ups -/

section Lookup

variable [DecidableEq κ]

lemma find?_eq_none_iff {s : Keyed key} {k : κ} :
    s.find? k = none ↔ ∀ a ∈ s.toList, key a ≠ k := by
  rw [find?, List.find?_eq_none]
  simp

lemma contains_iff {s : Keyed key} {k : κ} : s.contains k = true ↔ ∃ a ∈ s.toList, key a = k := by
  rw [contains, List.any_eq_true]
  simp

lemma mem_keys_iff {s : Keyed key} {k : κ} : k ∈ s.keys ↔ s.contains k = true := by
  rw [keys, List.mem_map, contains_iff]

lemma contains_eq_false_iff {s : Keyed key} {k : κ} :
    s.contains k = false ↔ ∀ a ∈ s.toList, key a ≠ k := by
  rw [← Bool.not_eq_true, contains_iff]
  simp

lemma contains_eq_isSome {s : Keyed key} {k : κ} : s.contains k = (s.find? k).isSome := by
  rw [contains, find?, List.isSome_find?]

lemma contains_of_find? {s : Keyed key} {k : κ} {a : α} (h : s.find? k = some a) :
    s.contains k = true := by
  rw [contains_eq_isSome, h, Option.isSome_some]

lemma contains_eq_false_of_find? {s : Keyed key} {k : κ} (h : s.find? k = none) :
    s.contains k = false := by
  rw [contains_eq_isSome, h, Option.isSome_none]

@[simp] lemma find?_empty (k : κ) : (∅ : Keyed key).find? k = none := rfl

lemma mem_erase {s : Keyed key} {k : κ} {a : α} :
    a ∈ (s.erase k).toList ↔ a ∈ s.toList ∧ key a ≠ k := by
  simp [erase]

lemma find?_erase {s : Keyed key} {k k' : κ} :
    (s.erase k).find? k' = if k' = k then none else s.find? k' := by
  rw [find?, erase, toList_filter, List.find?_filter]
  split
  next h =>
    subst h
    simp
  next h =>
    refine congrArg (s.toList.find? ·) (funext fun a => ?_)
    by_cases ha : key a = k' <;> simp [ha, h]

lemma find?_map {f : α → α} {hf : ∀ a, key (f a) = key a} {s : Keyed key} {k : κ} :
    (s.map f hf).find? k = (s.find? k).map f := by
  rw [find?, find?, toList_map, List.find?_map]
  simp only [Function.comp_def, hf]

lemma size_erase_le (s : Keyed key) (k : κ) : (s.erase k).size ≤ s.size :=
  List.length_filter_le _ _

end Lookup

/-! ### Keys -/

section Keys

variable [LawfulEqOrd κ]

lemma ne_of_compare_lt {k k' : κ} (h : compare k k' = .lt) : k ≠ k' := by
  rintro rfl
  have hself : compare k k = .eq := ReflCmp.compare_self
  rw [hself] at h
  exact absurd h (by decide)

/-- The keys of a collection differ from one another. -/
lemma nodup_keys (s : Keyed key) : s.keys.Nodup := by
  rw [keys, List.nodup_iff_pairwise_ne, List.pairwise_map]
  exact s.ascending.imp ne_of_compare_lt

/-- A key singles out its item. -/
lemma eq_of_key_eq {s : Keyed key} {a b : α} (ha : a ∈ s.toList) (hb : b ∈ s.toList)
    (h : key a = key b) : a = b :=
  List.inj_on_of_nodup_map s.nodup_keys ha hb h

/-- Keys that are texts come in the order of texts. -/
lemma pairwise_keys_lt {key : α → String} (s : Keyed key) : s.keys.Pairwise (· < ·) := by
  rw [keys, List.pairwise_map]
  exact s.ascending.imp compareOfLessAndEq_eq_lt.mp

lemma length_place {a : α} {l : List α} (h : ∀ b ∈ l, key b ≠ key a) :
    (place key a l).length = l.length + 1 := by
  induction l with
  | nil => rfl
  | cons b l ih =>
      rw [place]
      split
      next => simp
      next heq =>
        rw [LawfulEqCmp.compare_eq_iff_eq] at heq
        exact absurd heq.symm (h b List.mem_cons_self)
      next => simp [ih fun c hc => h c (List.mem_cons_of_mem b hc)]

variable [DecidableEq κ]

lemma find?_eq_some_iff {s : Keyed key} {k : κ} {a : α} :
    s.find? k = some a ↔ a ∈ s.toList ∧ key a = k := by
  constructor
  · intro h
    exact ⟨List.mem_of_find?_eq_some h, by simpa using List.find?_some h⟩
  · rintro ⟨ha, rfl⟩
    cases hf : s.find? (key a) with
    | none => exact absurd rfl (find?_eq_none_iff.mp hf a ha)
    | some b =>
        have hb := List.mem_of_find?_eq_some hf
        have hk : key b = key a := by simpa using List.find?_some hf
        rw [eq_of_key_eq hb ha hk]

lemma mem_iff_find? {s : Keyed key} {a : α} : a ∈ s.toList ↔ s.find? (key a) = some a :=
  ⟨fun ha => find?_eq_some_iff.mpr ⟨ha, rfl⟩, fun ha => (find?_eq_some_iff.mp ha).1⟩

end Keys

/-! ### Equal collections -/

variable [TransOrd κ] [LawfulEqOrd κ]

/-- Collections with the same items are equal. -/
lemma ext_mem {s t : Keyed key} (h : ∀ a, a ∈ s.toList ↔ a ∈ t.toList) : s = t := by
  have hs : s.toList.Nodup := s.nodup_keys.of_map
  have ht : t.toList.Nodup := t.nodup_keys.of_map
  refine ext_toList (List.Perm.eq_of_pairwise (fun a b _ _ hab hba => ?_) s.ascending t.ascending
    ((List.perm_ext_iff_of_nodup hs ht).mpr h))
  have hswap : compare (key a) (key b) = (compare (key b) (key a)).swap := OrientedCmp.eq_swap
  rw [hswap, hba] at hab
  exact absurd hab (by decide)

variable [DecidableEq κ]

/-- Collections in which the same items are found are equal. -/
lemma ext_find? {s t : Keyed key} (h : ∀ k, s.find? k = t.find? k) : s = t :=
  ext_mem fun a => by rw [mem_iff_find?, mem_iff_find?, h]

lemma erase_of_not_contains {s : Keyed key} {k : κ} (h : s.contains k = false) :
    s.erase k = s := by
  refine ext_mem fun a => ?_
  rw [mem_erase]
  exact ⟨fun ha => ha.1, fun ha => ⟨ha, contains_eq_false_iff.mp h a ha⟩⟩

/-! ### Adding items -/

omit [DecidableEq κ] in
lemma mem_place {a x : α} {l : List α} (h : l.Pairwise fun a b => compare (key a) (key b) = .lt) :
    x ∈ place key a l ↔ x = a ∨ (x ∈ l ∧ key x ≠ key a) := by
  induction l with
  | nil => simp [place]
  | cons b l ih =>
      have hb := (List.pairwise_cons.mp h).1
      have ih := ih (List.pairwise_cons.mp h).2
      rw [place]
      split
      next hlt =>
        -- `a` lies below all of the list
        have hall : ∀ y ∈ b :: l, key y ≠ key a := by
          intro y hy
          rcases List.mem_cons.mp hy with rfl | hy
          · exact (ne_of_compare_lt hlt).symm
          · exact (ne_of_compare_lt (TransCmp.lt_trans hlt (hb y hy))).symm
        rw [List.mem_cons]
        exact or_congr_right ⟨fun hx => ⟨hx, hall x hx⟩, fun hx => hx.1⟩
      next heq =>
        rw [LawfulEqCmp.compare_eq_iff_eq] at heq
        rw [List.mem_cons, List.mem_cons]
        refine or_congr_right ⟨fun hx => ⟨Or.inr hx, ?_⟩, ?_⟩
        · rw [heq]
          exact (ne_of_compare_lt (hb x hx)).symm
        · rintro ⟨rfl | hx, hk⟩
          · exact absurd heq.symm hk
          · exact hx
      next hgt =>
        have hba : compare (key b) (key a) = .lt := by
          rw [← OrientedCmp.gt_iff_lt]; exact hgt
        rw [List.mem_cons, ih, List.mem_cons]
        constructor
        · rintro (rfl | rfl | ⟨hx, hk⟩)
          · exact Or.inr ⟨Or.inl rfl, ne_of_compare_lt hba⟩
          · exact Or.inl rfl
          · exact Or.inr ⟨Or.inr hx, hk⟩
        · rintro (rfl | ⟨rfl | hx, hk⟩)
          · exact Or.inr (Or.inl rfl)
          · exact Or.inl rfl
          · exact Or.inr (Or.inr ⟨hx, hk⟩)

omit [DecidableEq κ] in
lemma mem_insert {s : Keyed key} {a x : α} :
    x ∈ (s.insert a).toList ↔ x = a ∨ (x ∈ s.toList ∧ key x ≠ key a) :=
  mem_place s.ascending

omit [DecidableEq κ] in
/-- Items with different keys are all added. -/
lemma mem_foldl_insert {l : List α} {s : Keyed key} {x : α} (hl : (l.map key).Nodup) :
    x ∈ (l.foldl insert s).toList ↔ x ∈ l ∨ (x ∈ s.toList ∧ key x ∉ l.map key) := by
  induction l generalizing s with
  | nil => simp
  | cons a l ih =>
      obtain ⟨ha, hl⟩ := List.nodup_cons.mp hl
      rw [List.foldl_cons, ih hl, mem_insert, List.mem_cons, List.map_cons, List.mem_cons, not_or]
      constructor
      · rintro (hx | ⟨rfl | ⟨hs, hne⟩, hnot⟩)
        · exact Or.inl (Or.inr hx)
        · exact Or.inl (Or.inl rfl)
        · exact Or.inr ⟨hs, hne, hnot⟩
      · rintro ((rfl | hx) | ⟨hs, hne, hnot⟩)
        · exact Or.inr ⟨Or.inl rfl, ha⟩
        · exact Or.inl hx
        · exact Or.inr ⟨Or.inr ⟨hs, hne⟩, hnot⟩

lemma find?_insert {s : Keyed key} {a : α} {k : κ} :
    (s.insert a).find? k = if key a = k then some a else s.find? k := by
  split
  next h => exact find?_eq_some_iff.mpr ⟨mem_insert.mpr (Or.inl rfl), h⟩
  next h =>
    cases hf : s.find? k with
    | none =>
        rw [find?_eq_none_iff] at hf ⊢
        intro x hx
        rcases mem_insert.mp hx with rfl | hx
        · exact h
        · exact hf x hx.1
    | some b =>
        obtain ⟨hb, rfl⟩ := find?_eq_some_iff.mp hf
        exact find?_eq_some_iff.mpr ⟨mem_insert.mpr (Or.inr ⟨hb, fun he => h he.symm⟩), rfl⟩

/-- An item that is there stays in the place of a new one with its key. -/
lemma find?_insertIfNew {s : Keyed key} {a : α} {k : κ} :
    (s.insertIfNew a).find? k = (s.find? k).or (if key a = k then some a else none) := by
  rw [insertIfNew]
  split
  next h =>
    by_cases hk : key a = k
    · subst hk
      rw [contains_eq_isSome] at h
      obtain ⟨b, hb⟩ := Option.isSome_iff_exists.mp h
      rw [hb, Option.some_or]
    · rw [if_neg hk, Option.or_none]
  next h =>
    rw [find?_insert]
    by_cases hk : key a = k
    · subst hk
      rw [contains_eq_isSome, Bool.not_eq_true, Option.isSome_eq_false_iff,
        Option.isNone_iff_eq_none] at h
      rw [h, if_pos rfl, Option.none_or]
    · rw [if_neg hk, if_neg hk, Option.or_none]

lemma find?_foldl_insertIfNew {l : List α} {s : Keyed key} {k : κ} :
    (l.foldl insertIfNew s).find? k = (s.find? k).or (l.find? fun a => key a = k) := by
  induction l generalizing s with
  | nil => simp
  | cons a l ih =>
      rw [List.foldl_cons, ih, find?_insertIfNew, Option.or_assoc, List.find?_cons]
      by_cases hk : key a = k <;> simp [hk]

lemma find?_ofList {l : List α} {k : κ} :
    (ofList l : Keyed key).find? k = l.find? fun a => key a = k := by
  rw [ofList, find?_foldl_insertIfNew, find?_empty, Option.none_or]

/-- A union keeps the items of its first part. -/
lemma find?_union {s t : Keyed key} {k : κ} :
    (s.union t).find? k = (s.find? k).or (t.find? k) :=
  find?_foldl_insertIfNew

lemma empty_union (s : Keyed key) : (∅ : Keyed key).union s = s :=
  ext_find? fun k => by rw [find?_union, find?_empty, Option.none_or]

lemma ofList_toList (s : Keyed key) : ofList s.toList = s := empty_union s

omit [DecidableEq κ] in
/-- A collection is made of its items, one after the other. -/
lemma foldl_insert_toList (s : Keyed key) : s.toList.foldl insert ∅ = s :=
  ext_mem fun x => by simp [mem_foldl_insert (nodup_keys s)]

lemma union_self (s : Keyed key) : s.union s = s :=
  ext_find? fun k => by rw [find?_union, Option.or_self]

/-- What was added to a collection is not added again. -/
lemma union_union (s t : Keyed key) : (s.union t).union t = s.union t :=
  ext_find? fun k => by rw [find?_union, find?_union, Option.or_assoc, Option.or_self]

lemma find?_union_singleton {s : Keyed key} {a : α} {k : κ} :
    (s.union (ofList [a])).find? k = (s.find? k).or (if key a = k then some a else none) := by
  rw [find?_union, find?_ofList, List.find?_singleton]
  simp only [decide_eq_true_eq]

/-- An item whose key is there already is not added. -/
lemma union_singleton_of_contains {s : Keyed key} {a : α} (h : s.contains (key a) = true) :
    s.union (ofList [a]) = s := by
  refine ext_find? fun k => ?_
  rw [find?_union_singleton]
  split
  next hk =>
    subst hk
    rw [contains_eq_isSome] at h
    exact Option.or_eq_left_of_isSome h
  next => exact Option.or_none

lemma size_insert {s : Keyed key} {a : α} (h : s.contains (key a) = false) :
    (s.insert a).size = s.size + 1 :=
  length_place (contains_eq_false_iff.mp h)

end Keyed

/-! ### Finite functions -/

namespace Assoc

variable {κ α : Type} [Ord κ] [TransOrd κ] [LawfulEqOrd κ] [DecidableEq κ] {m m' : Assoc κ α}

omit [TransOrd κ] in
lemma get?_eq_some_iff {k : κ} {a : α} : m.get? k = some a ↔ (k, a) ∈ m.toList := by
  rw [get?, Option.map_eq_some_iff]
  constructor
  · rintro ⟨⟨k', a'⟩, h, rfl⟩
    obtain ⟨hmem, rfl⟩ := Keyed.find?_eq_some_iff.mp h
    exact hmem
  · exact fun h => ⟨_, Keyed.find?_eq_some_iff.mpr ⟨h, rfl⟩, rfl⟩

/-- Finite functions with the same values are equal. -/
lemma ext_get? (h : ∀ k, m.get? k = m'.get? k) : m = m' :=
  Keyed.ext_mem fun e => by rw [← get?_eq_some_iff, ← get?_eq_some_iff, h]

lemma get?_insert {k k' : κ} {a : α} :
    get? (m.insert (k, a)) k' = if k = k' then some a else m.get? k' := by
  rw [get?, Keyed.find?_insert]
  split <;> rfl

omit [TransOrd κ] [LawfulEqOrd κ] in
lemma get?_erase {k k' : κ} : get? (m.erase k) k' = if k' = k then none else m.get? k' := by
  rw [get?, Keyed.find?_erase]
  split <;> rfl

omit [TransOrd κ] [LawfulEqOrd κ] in
lemma get?_map {f : κ × α → κ × α} {hf : ∀ e, (f e).1 = e.1} {k : κ} :
    get? (m.map f hf) k = (m.get? k).map fun a => (f (k, a)).2 := by
  rw [get?, Keyed.find?_map, get?, Option.map_map, Option.map_map]
  refine Option.map_congr fun e he => ?_
  have hk : e.1 = k := by simpa using List.find?_some he
  rw [Function.comp, Function.comp, ← hk]

end Assoc

/-! ### Finite sets of values -/

namespace ValueSet

variable {α : Type} [Ord α] [DecidableEq α] {s t : ValueSet α} {a b : α} {l : List α}

lemma mem_difference : a ∈ s.difference t ↔ a ∈ s.toList ∧ a ∉ t.toList := by
  rw [difference, Keyed.toList_filter, List.mem_filter, Bool.not_eq_true',
    Keyed.contains_eq_false_iff]
  exact and_congr_right fun _ => ⟨fun h hm => h a hm rfl, fun h b hb he => h (he ▸ hb)⟩

lemma mem_foldl_erase : b ∈ (l.foldl Keyed.erase s).toList ↔ b ∈ s.toList ∧ b ∉ l := by
  induction l generalizing s with
  | nil => simp
  | cons a l ih => rw [List.foldl_cons, ih, Keyed.mem_erase, List.mem_cons, not_or, and_assoc]

variable [TransOrd α] [LawfulEqOrd α]

lemma mem_insertIfNew : b ∈ (s.insertIfNew a).toList ↔ b ∈ s.toList ∨ b = a := by
  rw [Keyed.insertIfNew]
  split
  next h =>
    obtain ⟨c, hc, rfl⟩ := Keyed.contains_iff.mp h
    exact (or_iff_left_of_imp fun he => he ▸ hc).symm
  next h =>
    rw [Keyed.mem_insert, or_comm]
    refine or_congr_left (and_iff_left_of_imp fun hb he => h ?_)
    exact Keyed.contains_iff.mpr ⟨b, hb, he⟩

lemma mem_foldl_insertIfNew :
    b ∈ (l.foldl Keyed.insertIfNew s).toList ↔ b ∈ s.toList ∨ b ∈ l := by
  induction l generalizing s with
  | nil => simp
  | cons a l ih => rw [List.foldl_cons, ih, mem_insertIfNew, List.mem_cons, or_assoc]

/-- A set of values holds those of the list from which it is made. -/
lemma mem_ofList : b ∈ (Keyed.ofList l : ValueSet α).toList ↔ b ∈ l := by
  rw [Keyed.ofList, mem_foldl_insertIfNew]
  simp

end ValueSet

end Federation
