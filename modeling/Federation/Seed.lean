import Federation.Address
import Federation.Fault

/-!
Seeds: the text through which a cluster is first reached.

* `Address.ofSeed`: the address that a seed denotes; any other text is refused with the text itself.
-/

namespace Federation

/-- The address that the text of a seed denotes. -/
def Address.ofSeed (seed : String) : Except Fault Address :=
  match Address.parse? seed with
  | some a => .ok a
  | none => .error (.invalidSeed seed)

end Federation
