/-!
Addresses and their text.

* `Address`: a host and a port, ordered by host and then by port.
* `Address.render`: the host, a colon and the port in decimal digits.
* `Address.parse?`: reads a non-empty host, a colon and a non-empty run of ASCII digits with a value
  below 65536. The split is at the last colon, so a host may hold colons itself, and leading zeros
  are allowed in any number.
-/

namespace Federation

open Std

/-- Where a node listens. -/
structure Address where
  host : String
  port : UInt16
deriving DecidableEq

namespace Address

instance : Ord Address where
  compare := compareLex (compareOn host) (compareOn port)

instance : TransOrd Address :=
  inferInstanceAs (TransCmp (compareLex (compareOn host) (compareOn port)))

theorem compare_eq_iff {a b : Address} : compare a b = .eq ↔ a = b := by
  change (compare a.host b.host).then (compare a.port b.port) = .eq ↔ a = b
  rw [Ordering.then_eq_eq, LawfulEqCmp.compare_eq_iff_eq, LawfulEqCmp.compare_eq_iff_eq]
  constructor
  · rintro ⟨hh, hp⟩
    cases a; cases b; simp_all
  · rintro rfl; simp

instance : LawfulEqOrd Address where
  eq_of_compare := compare_eq_iff.1
  compare_self := compare_eq_iff.2 rfl

/-- The text of an address. -/
def render (a : Address) : String := a.host ++ ":" ++ toString a.port.toNat

/-- The parts before and after the last colon, if there is a colon. -/
def splitAtLastColon : List Char → Option (List Char × List Char)
  | [] => none
  | c :: l =>
    match splitAtLastColon l with
    | some (before, after) => some (c :: before, after)
    | none => if c = ':' then some ([], l) else none

/-- The value of a run of decimal digits. -/
def digitsValue (l : List Char) : Nat := l.foldl (fun n c => 10 * n + (c.toNat - '0'.toNat)) 0

/-- The port that a non-empty run of ASCII digits denotes, if it is below 65536. -/
def readPort? (l : List Char) : Option UInt16 :=
  if l.isEmpty || !l.all Char.isDigit then none
  else if digitsValue l < 65536 then some (UInt16.ofNat (digitsValue l))
  else none

/-- The address that a text denotes. -/
def parse? (s : String) : Option Address :=
  match splitAtLastColon s.toList with
  | none => none
  | some (host, port) =>
    if host.isEmpty then none
    else (readPort? port).map fun p => ⟨String.ofList host, p⟩

end Address

end Federation
