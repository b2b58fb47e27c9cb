import Federation.Address
import Federation.Collection.Keyed

/-!
What a cluster says about its members.

* `Member`: a name at an address, ordered by name, then by host and port.
* `View`: a cluster and the set of its members. A view may list one name at two addresses: these
  are two members.
* `Changes`: the members that leave and those that join between two views.
* `View.changesSince`: the changes from an earlier view, both parts in the order of members; without
  an earlier view every member joins.
-/

namespace Federation

open Std

/-- A node as its cluster lists it. -/
structure Member where
  name : String
  address : Address
deriving DecidableEq

namespace Member

instance : Ord Member where
  compare := compareLex (compareOn name) (compareOn address)

instance : TransOrd Member :=
  inferInstanceAs (TransCmp (compareLex (compareOn name) (compareOn address)))

theorem compare_eq_iff {a b : Member} : compare a b = .eq ↔ a = b := by
  change (compare a.name b.name).then (compare a.address b.address) = .eq ↔ a = b
  rw [Ordering.then_eq_eq, LawfulEqCmp.compare_eq_iff_eq, LawfulEqCmp.compare_eq_iff_eq]
  constructor
  · rintro ⟨hn, ha⟩
    cases a; cases b; simp_all
  · rintro rfl; simp

instance : LawfulEqOrd Member where
  eq_of_compare := compare_eq_iff.1
  compare_self := compare_eq_iff.2 rfl

/-- The text of a member: its name and its address. -/
def render (m : Member) : String := m.name ++ "@" ++ m.address.render

end Member

/-- The membership of one cluster. -/
structure View where
  cluster : String
  members : ValueSet Member
deriving DecidableEq

/-- The difference between two views of a cluster: members of the earlier one only, and members of
the later one only. -/
structure Changes where
  leaving : List Member
  joining : List Member
deriving DecidableEq

/-- The number of members that leave or join. -/
def Changes.count (c : Changes) : Nat := c.leaving.length + c.joining.length

/-- Whether nobody leaves or joins. -/
def Changes.isEmpty (c : Changes) : Bool := c.count == 0

namespace View

/-- The view of a cluster with the members of a list. -/
def ofList (cluster : String) (members : List Member) : View := ⟨cluster, .ofList members⟩

/-- The changes that lead from an earlier view to `v`. -/
def changesSince (v : View) : Option View → Changes
  | none => ⟨[], v.members.toList⟩
  | some earlier => ⟨earlier.members.difference v.members, v.members.difference earlier.members⟩

/-- Whether some member listens at `a`. -/
def serves (v : View) (a : Address) : Bool := v.members.toList.any fun m => m.address = a

end View

end Federation
