/-!
Collections that tell their items apart by a key.

* `Keyed key`: finitely many items in ascending order of `key`, at most one item for each key. The
  order is a field of the structure, so a collection is determined by its items and two
  collections with the same items are equal.
* `Keyed.insert` replaces the item that has the key, `Keyed.insertIfNew` keeps it; the two differ
  exactly on items whose keys are equal although the items are not.
* `Keyed.erase`, `Keyed.filter` and `Keyed.map` keep the order, the last one because its function
  has to keep every key.

A set of values is a collection keyed by the values themselves (`ValueSet`), a finite function is a
collection of pairs keyed by their first components (`Assoc`).
-/

namespace Federation

open Std

/-- Finitely many items in ascending order of a key, no two of them with the same key. -/
structure Keyed {α κ : Type} [Ord κ] (key : α → κ) where
  toList : List α
  ascending : toList.Pairwise fun a b => compare (key a) (key b) = .lt

namespace Keyed

variable {α κ : Type} [Ord κ] {key : α → κ}

instance [DecidableEq α] : DecidableEq (Keyed key) := fun s t =>
  if h : s.toList = t.toList then
    isTrue (by cases s; cases t; simp_all)
  else
    isFalse (fun e => h (e ▸ rfl))

/-- The collection without items. -/
def empty : Keyed key := ⟨[], .nil⟩

instance : EmptyCollection (Keyed key) := ⟨empty⟩

instance : Inhabited (Keyed key) := ⟨empty⟩

/-- The number of items. -/
def size (s : Keyed key) : Nat := s.toList.length

/-- Whether there is no item. -/
def isEmpty (s : Keyed key) : Bool := s.toList.isEmpty

/-- The keys of all items, ascending. -/
def keys (s : Keyed key) : List κ := s.toList.map key

section Lookup

variable [DecidableEq κ]

/-- The item with key `k`. -/
def find? (s : Keyed key) (k : κ) : Option α := s.toList.find? fun a => key a = k

/-- Whether some item has key `k`. -/
def contains (s : Keyed key) (k : κ) : Bool := s.toList.any fun a => key a = k

end Lookup

/-! ### Removing and changing items -/

/-- The items that satisfy `p`. -/
def filter (p : α → Bool) (s : Keyed key) : Keyed key :=
  ⟨s.toList.filter p, s.ascending.filter p⟩

/-- Removes the item with key `k`, if there is one. -/
def erase [DecidableEq κ] (s : Keyed key) (k : κ) : Keyed key := s.filter fun a => key a ≠ k

/-- Changes every item by a function that keeps its key. -/
def map (f : α → α) (hf : ∀ a, key (f a) = key a) (s : Keyed key) : Keyed key :=
  ⟨s.toList.map f, by simpa only [List.pairwise_map, hf] using s.ascending⟩

/-! ### Adding items -/

/-- Puts `a` at its place in an ascending list, in the place of an item with the same key. -/
def place (key : α → κ) (a : α) : List α → List α
  | [] => [a]
  | b :: l =>
    match compare (key a) (key b) with
    | .lt => a :: b :: l
    | .eq => a :: l
    | .gt => b :: place key a l

theorem mem_of_mem_place {a x : α} {l : List α} (h : x ∈ place key a l) : x = a ∨ x ∈ l := by
  induction l with
  | nil => simpa [place] using h
  | cons b l ih =>
    rw [place] at h
    split at h
    · simpa using h
    · rcases List.mem_cons.1 h with h | h
      · exact Or.inl h
      · exact Or.inr (List.mem_cons_of_mem b h)
    · rcases List.mem_cons.1 h with h | h
      · exact Or.inr (h ▸ List.mem_cons_self)
      · exact (ih h).imp_right (List.mem_cons_of_mem b)

variable [TransOrd κ] [LawfulEqOrd κ]

theorem ascending_place (a : α) {l : List α}
    (h : l.Pairwise fun a b => compare (key a) (key b) = .lt) :
    (place key a l).Pairwise fun a b => compare (key a) (key b) = .lt := by
  induction l with
  | nil => simp [place]
  | cons b l ih =>
    have hb := (List.pairwise_cons.1 h).1
    have hl := (List.pairwise_cons.1 h).2
    rw [place]
    split
    next hlt =>
      refine List.pairwise_cons.2 ⟨fun x hx => ?_, h⟩
      rcases List.mem_cons.1 hx with rfl | hx
      · exact hlt
      · exact TransCmp.lt_trans hlt (hb x hx)
    next heq =>
      rw [LawfulEqCmp.compare_eq_iff_eq] at heq
      exact List.pairwise_cons.2 ⟨fun x hx => heq ▸ hb x hx, hl⟩
    next hgt =>
      have hba : compare (key b) (key a) = .lt := by
        rw [← OrientedCmp.gt_iff_lt]; exact hgt
      refine List.pairwise_cons.2 ⟨fun x hx => ?_, ih hl⟩
      rcases mem_of_mem_place hx with rfl | hx
      · exact hba
      · exact hb x hx

/-- Adds `a`, in the place of the item with the same key if there is one. -/
def insert (s : Keyed key) (a : α) : Keyed key :=
  ⟨place key a s.toList, ascending_place a s.ascending⟩

variable [DecidableEq κ]

/-- Adds `a` unless there is an item with the same key, which then stays. -/
def insertIfNew (s : Keyed key) (a : α) : Keyed key :=
  if s.contains (key a) then s else s.insert a

/-- The items of a list; of items with the same key the first one stays. -/
def ofList (l : List α) : Keyed key := l.foldl insertIfNew ∅

/-- Adds the items of `t` whose keys are not among those of `s`. -/
def union (s t : Keyed key) : Keyed key := t.toList.foldl insertIfNew s

end Keyed

/-- A finite set of values, in ascending order. -/
abbrev ValueSet (α : Type) [Ord α] := Keyed (fun a : α => a)

/-- A finite function, as the pairs of its arguments and values in ascending order of arguments. -/
abbrev Assoc (κ α : Type) [Ord κ] := Keyed (Prod.fst : κ × α → κ)

namespace Assoc

variable {κ α : Type} [Ord κ] [DecidableEq κ]

/-- The value at `k`. -/
def get? (m : Assoc κ α) (k : κ) : Option α := (m.find? k).map Prod.snd

end Assoc

namespace ValueSet

variable {α : Type} [Ord α] [DecidableEq α]

/-- The values of `s` that are not in `t`, in ascending order. -/
def difference (s t : ValueSet α) : List α := (s.filter fun a => !t.contains a).toList

end ValueSet

end Federation
