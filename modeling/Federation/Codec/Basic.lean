import Federation.Collection.Keyed
import Federation.Json.Basic

/-!
Values as JSON.

* `Codec`: a type whose values are written as JSON values and read back from them.
* `required`, `optional`, `fieldOr`: a field of an object that has to be there, one that may be
  absent or null, and one with a default. Fields that nobody asks for are ignored.
* Codecs of texts, numbers in the range of their type, truth values, lists, and functions from
  texts.
-/

namespace Federation

/-- Types whose values are written as JSON. -/
class Codec (α : Type) where
  encode : α → Json
  decode? : Json → Option α

export Codec (encode decode?)

namespace Codec

/-- The value of a field that has to be there. -/
def required {α : Type} [Codec α] (j : Json) (name : String) : Option α :=
  (j.field? name).bind decode?

/-- The value of a field, or `default` if the object does not have it. -/
def fieldOr {α : Type} [Codec α] (j : Json) (name : String) (default : α) : Option α :=
  match j.field? name with
  | none => some default
  | some v => decode? v

/-- The value of a field that may be absent or null. -/
def optional {α : Type} [Codec α] (j : Json) (name : String) : Option (Option α) :=
  match j.field? name with
  | none | some .null => some none
  | some v => (decode? v).map some

/-- Every item read, if all of them can be. -/
def decodeAll {α : Type} [Codec α] : List Json → Option (List α)
  | [] => some []
  | j :: js => do return (← decode? j) :: (← decodeAll js)

/-- Every field read, if all of them can be. -/
def decodeFields {α : Type} [Codec α] : List (String × Json) → Option (List (String × α))
  | [] => some []
  | (k, j) :: fs => do return (k, ← decode? j) :: (← decodeFields fs)

instance : Codec String where
  encode := .str
  decode?
    | .str s => some s
    | _ => none

instance : Codec Bool where
  encode := .bool
  decode?
    | .bool b => some b
    | _ => none

instance : Codec Nat where
  encode n := .int n
  decode?
    | .int (.ofNat n) => some n
    | _ => none

instance : Codec Int where
  encode := .int
  decode?
    | .int n => some n
    | _ => none

instance : Codec UInt64 where
  encode n := .int n.toNat
  decode?
    | .int (.ofNat n) => if n < UInt64.size then some (.ofNat n) else none
    | _ => none

instance : Codec UInt16 where
  encode n := .int n.toNat
  decode?
    | .int (.ofNat n) => if n < UInt16.size then some (.ofNat n) else none
    | _ => none

instance {α : Type} [Codec α] : Codec (List α) where
  encode l := .arr (l.map encode)
  decode?
    | .arr js => decodeAll js
    | _ => none

instance {α : Type} [Codec α] : Codec (Assoc String α) where
  encode m := .obj (m.toList.map fun e => (e.1, encode e.2))
  decode?
    | .obj fs => (decodeFields fs).map fun l => l.foldl Keyed.insert ∅
    | _ => none

end Codec

end Federation
