import Mathlib.Tactic
import Federation.Codec.Basic
import Federation.Proofs.Collection.Keyed
import Federation.Proofs.Json.RoundTrip

/-!
Codecs that read back what they write.

* `Codec.Faithful`: every value is read from what is written for it, which holds no number with a
  point. So are texts, truth values, numbers in the range of their type, lists and functions from
  texts.
* `Codec.required_eq_some`, `Codec.fieldOr_eq_some`: a field is read as it was written.
* `Codec.write`, `Codec.read?`: the compact text of a value, and the value that a text stands for.
* `Codec.RoundTrips`: values are read from their texts, and a text that can be read is rewritten
  into one that stays as it is.
* `Codec.Faithful.roundTrips`: this is so for every faithful codec.
-/

namespace Federation

/-! ### Fields of objects -/

namespace Json

variable {name k : String} {j : Json} {fields : List (String × Json)}

@[simp]
lemma field?_cons_self : (obj ((name, j) :: fields)).field? name = some j := by
  rw [field?, List.lookup_cons, beq_self_eq_true]

@[simp]
lemma field?_cons_of_ne (h : name ≠ k) :
    (obj ((k, j) :: fields)).field? name = (obj fields).field? name := by
  rw [field?, List.lookup_cons, beq_false_of_ne h, field?]

end Json

namespace Codec

variable {α : Type} [Codec α]

/-- Every value is read from what is written for it, which holds no number with a point. -/
class Faithful (α : Type) [Codec α] : Prop where
  decode?_encode (a : α) : decode? (encode a) = some a
  whole_encode (a : α) : (encode a).Whole

export Faithful (decode?_encode whole_encode)

attribute [simp] decode?_encode

/-! ### Texts, truth values, numbers -/

instance : Faithful String := ⟨fun _ => rfl, .str⟩

instance : Faithful Bool := ⟨fun _ => rfl, .bool⟩

instance : Faithful UInt64 where
  decode?_encode n := by
    change (if n.toNat < UInt64.size then some (UInt64.ofNat n.toNat) else none) = some n
    rw [if_pos n.toNat_lt_size, UInt64.ofNat_toNat]
  whole_encode _ := .int _

instance : Faithful UInt16 where
  decode?_encode n := by
    change (if n.toNat < UInt16.size then some (UInt16.ofNat n.toNat) else none) = some n
    rw [if_pos n.toNat_lt_size, UInt16.ofNat_toNat]
  whole_encode _ := .int _

/-! ### Lists, functions -/

section Collections

variable [Faithful α]

lemma decodeAll_map_encode (l : List α) : decodeAll (l.map encode) = some l := by
  induction l with
  | nil => rfl
  | cons a l ih => simp [decodeAll, ih]

lemma decodeFields_map_encode (l : List (String × α)) :
    decodeFields (l.map fun e => (e.1, encode e.2)) = some l := by
  induction l with
  | nil => rfl
  | cons e l ih => simp [decodeFields, ih]

instance : Faithful (List α) where
  decode?_encode := decodeAll_map_encode
  whole_encode _ := .arr (List.forall_mem_map.mpr fun a _ => whole_encode a)

instance : Faithful (Assoc String α) where
  decode?_encode m := by
    change (decodeFields (m.toList.map fun e => (e.1, encode e.2))).map _ = some m
    rw [decodeFields_map_encode, Option.map_some, Keyed.foldl_insert_toList]
  whole_encode m := .obj (List.forall_mem_map.mpr fun e _ => whole_encode e.2)

end Collections

/-! ### Fields -/

section Fields

variable [Faithful α] {a default : α} {j : Json} {name : String}

/-- A field is read as it was written. -/
lemma required_eq_some (h : j.field? name = some (encode a)) : required j name = some a := by
  rw [required, h, Option.bind_some, decode?_encode]

/-- A field is read as it was written, whatever its default. -/
lemma fieldOr_eq_some (h : j.field? name = some (encode a)) :
    fieldOr j name default = some a := by
  rw [fieldOr, h]
  exact decode?_encode a

end Fields

/-! ### Texts of values -/

/-- The compact text of a value. -/
def write (a : α) : String := (encode a).render

/-- The value that a text stands for. -/
def read? (t : String) : Option α := (Json.parse? t).bind decode?

/-- Values are read from their texts, and a text that can be read is rewritten into one that stays
as it is. -/
structure RoundTrips (α : Type) [Codec α] : Prop where
  read?_write (a : α) : read? (write a) = some a
  write_injective : Function.Injective (write : α → String)
  rewrite {t : String} {a : α} (h : read? t = some a) :
    read? (write a) = some a ∧ (read? (write a)).map (write : α → String) = some (write a)

/-- The texts of what a faithful codec writes are read as well. -/
theorem Faithful.roundTrips [Faithful α] : RoundTrips α := by
  have hread (a : α) : read? (write a) = some a := by
    rw [read?, write, Json.parse?_render (whole_encode a), Option.bind_some, decode?_encode]
  exact {
    read?_write := hread
    write_injective := fun a b h => Option.some.inj (by rw [← hread a, h, hread])
    rewrite := fun {_ a} _ => ⟨hread a, by rw [hread, Option.map_some]⟩ }

end Codec

end Federation
