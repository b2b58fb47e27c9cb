import Federation.Decimal.Basic

/-!
JSON values.

* `Json`: the values, where whole numbers and numbers written with a point or an exponent are kept
  apart, and an object is the list of its fields in the order in which they stand.
* `Json.field?`: the first field of an object with a given name.
-/

namespace Federation

/-- A JSON value. A zero with a minus sign is a `decimal`, however it is written. -/
inductive Json where
  | null
  | bool (b : Bool)
  | int (n : Int)
  | decimal (d : Decimal)
  | str (s : String)
  | arr (items : List Json)
  | obj (fields : List (String × Json))

namespace Json

/-- The value of the first field with a given name, if the value is an object that has one. -/
def field? (name : String) : Json → Option Json
  | obj fields => fields.lookup name
  | _ => none

end Json

end Federation
