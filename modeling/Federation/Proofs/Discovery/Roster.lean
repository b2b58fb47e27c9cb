import Federation.Node
import Federation.Proofs.Collection.Keyed

/-!
The nodes that a round leaves behind.

* `Roster`: the live nodes of a cluster, in the order in which rounds try them.
* `Roster.without`, `Roster.leave`: nodes of one name, or of several, leave.
* `Roster.enlist`: a member joins. A node of its name gives way.
* `Roster.reconciled`: what bringing a roster in line with a view makes of it.
* `Roster.reconciled_none`: without a baseline every node is made anew, so that the outcome does
  not depend on the roster.
* `Roster.listed_of_mem_reconciled`: every node is a member of the view if all nodes were members
  of the baseline.
* `Roster.reconciled_eq_members_iff`: with distinct names, the outcome is the view exactly if no
  member that the view has in common with the baseline was missing before.
-/

namespace Federation

/-- The member that a view lists for a node. -/
def Node.toMember (n : Node) : Member := ⟨n.name, n.address⟩

@[simp] lemma Node.name_ofMember (m : Member) : (Node.ofMember m).name = m.name := rfl

@[simp] lemma Node.toMember_ofMember (m : Member) : (Node.ofMember m).toMember = m := rfl

@[simp] lemma Node.ofMember_toMember (n : Node) : Node.ofMember n.toMember = n := rfl

namespace View

/-- The nodes for which the members stand. -/
def nodes (v : View) : List Node := v.members.toList.map Node.ofMember

/-- Whether some member has the name. -/
def lists (v : View) (name : String) : Bool := v.members.toList.any fun m => m.name = name

/-- No two members have one name. -/
def Distinct (v : View) : Prop := (v.members.toList.map Member.name).Nodup

variable {v : View}

@[simp] lemma mem_nodes {n : Node} : n ∈ v.nodes ↔ n.toMember ∈ v.members.toList := by
  rw [nodes, List.mem_map]
  exact ⟨fun ⟨m, hm, he⟩ => he ▸ hm, fun h => ⟨_, h, n.ofMember_toMember⟩⟩

lemma lists_iff {name : String} : v.lists name = true ↔ ∃ m ∈ v.members.toList, m.name = name := by
  rw [lists, List.any_eq_true]
  simp

lemma Distinct.eq_of_name_eq (h : v.Distinct) {m m' : Member} (hm : m ∈ v.members.toList)
    (hm' : m' ∈ v.members.toList) (he : m.name = m'.name) : m = m' :=
  List.inj_on_of_nodup_map h hm hm' he

end View

/-- The live nodes of a cluster, in the order in which rounds try them. -/
abbrev Roster := List Node

namespace Roster

variable {l : Roster} {n : Node} {m : Member} {ms : List Member} {names : List String} {v p : View}

/-! ### Leaving -/

/-- The nodes with other names. -/
def without (l : Roster) (name : String) : Roster := l.filter fun n => n.name ≠ name

/-- The nodes with none of the names. -/
def leave (l : Roster) (names : List String) : Roster := l.filter fun n => n.name ∉ names

@[simp] lemma mem_without {name : String} : n ∈ l.without name ↔ n ∈ l ∧ n.name ≠ name := by
  simp [without]

@[simp] lemma mem_leave : n ∈ l.leave names ↔ n ∈ l ∧ n.name ∉ names := by
  simp [leave]

@[simp] lemma leave_nil (l : Roster) : l.leave [] = l := by
  simp [leave]

lemma without_eq_self {name : String} (h : ∀ n ∈ l, n.name ≠ name) : l.without name = l :=
  List.filter_eq_self.mpr fun n hn => by simpa using h n hn

lemma leave_cons (l : Roster) (name : String) (names : List String) :
    l.leave (name :: names) = (l.without name).leave names := by
  simp [leave, without, List.filter_filter, not_or, Bool.and_comm]

lemma foldl_without (l : Roster) (names : List String) : names.foldl without l = l.leave names := by
  induction names generalizing l with
  | nil => simp
  | cons name names ih => rw [List.foldl_cons, ih, leave_cons]

/-- Those leave whose names a condition selects. -/
lemma leave_filter (l : Roster) (q : String → Bool) :
    l.leave ((l.map Node.name).filter q) = l.filter fun n => !q n.name := by
  refine List.filter_congr fun n hn => ?_
  have hmem : n.name ∈ l.map Node.name := List.mem_map_of_mem hn
  simp [List.mem_filter, hmem]

/-! ### Joining -/

/-- The node of a member comes last, and no other node keeps its name. -/
def enlist (l : Roster) (m : Member) : Roster := l.without m.name ++ [.ofMember m]

@[simp] lemma mem_enlist : n ∈ l.enlist m ↔ (n ∈ l ∧ n.name ≠ m.name) ∨ n = .ofMember m := by
  simp [enlist]

/-- The roster splits into the nodes that stay and those that join. -/
lemma foldl_enlist (l : Roster) (ms : List Member) :
    ms.foldl enlist l = l.leave (ms.map Member.name) ++ ms.foldl enlist [] := by
  induction ms generalizing l with
  | nil => simp
  | cons m ms ih =>
      calc (m :: ms).foldl enlist l
          = (l.enlist m).leave (ms.map Member.name) ++ ms.foldl enlist [] := ih _
        _ = l.leave ((m :: ms).map Member.name) ++
              (leave [Node.ofMember m] (ms.map Member.name) ++ ms.foldl enlist []) := by
            rw [enlist, leave, List.filter_append, List.append_assoc, List.map_cons, leave_cons]
            rfl
        _ = l.leave ((m :: ms).map Member.name) ++ (m :: ms).foldl enlist [] := by
            rw [List.foldl_cons, ih (enlist [] m)]
            rfl

/-- Everybody who joined is among the members. -/
lemma mem_of_mem_foldl_enlist_nil (h : n ∈ ms.foldl enlist []) : n.toMember ∈ ms := by
  induction ms with
  | nil => simp at h
  | cons m ms ih =>
      rw [List.foldl_cons, foldl_enlist, List.mem_append, mem_leave] at h
      rcases h with ⟨hn, -⟩ | h
      · obtain rfl : n = .ofMember m := by simpa using hn
        exact List.mem_cons_self
      · exact List.mem_cons_of_mem m (ih h)

/-- With distinct names all of the members join. -/
lemma foldl_enlist_nil_eq_map (h : (ms.map Member.name).Nodup) :
    ms.foldl enlist [] = ms.map Node.ofMember := by
  induction ms with
  | nil => rfl
  | cons m ms ih =>
      obtain ⟨hm, hms⟩ := List.nodup_cons.mp h
      have hstay : leave (enlist [] m) (ms.map Member.name) = [Node.ofMember m] :=
        List.filter_eq_self.mpr fun n hn => by
          obtain rfl : n = .ofMember m := by simpa using hn
          simpa using hm
      rw [List.foldl_cons, foldl_enlist, ih hms, hstay]
      rfl

/-! ### Names -/

/-- No two nodes have one name. -/
def Distinct (l : Roster) : Prop := (l.map Node.name).Nodup

lemma Distinct.filter (h : l.Distinct) (q : Node → Bool) : Roster.Distinct (l.filter q) :=
  (List.filter_sublist.map Node.name).nodup h

lemma Distinct.enlist (h : l.Distinct) (m : Member) : (l.enlist m).Distinct := by
  rw [Distinct, Roster.enlist, List.map_append, List.nodup_append]
  refine ⟨h.filter _, List.nodup_singleton _, fun a ha b hb => ?_⟩
  obtain ⟨n, hn, rfl⟩ := List.mem_map.mp ha
  obtain rfl : b = m.name := by simpa using hb
  exact (mem_without.mp hn).2

/-! ### Whole views -/

/-- The nodes that the view lists by name. -/
def listed (l : Roster) (v : View) : Roster := l.filter fun n => v.lists n.name

/-- What the leaving members, and the unlisted nodes where there is no baseline, leave behind. -/
def pruned (l : Roster) (baseline : Option View) (v : View) : Roster :=
  let left := l.leave ((v.changesSince baseline).leaving.map Member.name)
  if baseline.isNone then left.listed v else left

/-- The roster in line with the view. -/
def reconciled (l : Roster) (baseline : Option View) (v : View) : Roster :=
  (v.changesSince baseline).joining.foldl enlist (l.pruned baseline v)

lemma pruned_none (l : Roster) (v : View) : l.pruned none v = l.listed v := by
  simp [pruned, View.changesSince]

lemma pruned_some (l : Roster) (p v : View) :
    l.pruned (some p) v = l.leave ((p.members.difference v.members).map Member.name) := by
  simp [pruned, View.changesSince]

/-- Without a baseline every node is made anew. -/
lemma reconciled_none (l : Roster) (v : View) :
    l.reconciled none v = v.members.toList.foldl enlist [] := by
  have hgone : (l.listed v).leave (v.members.toList.map Member.name) = [] := by
    refine List.filter_eq_nil_iff.mpr fun n hn => ?_
    obtain ⟨m, hm, he⟩ := View.lists_iff.mp (List.mem_filter.mp hn).2
    simpa using ⟨m, hm, he⟩
  calc l.reconciled none v
      = v.members.toList.foldl enlist (l.listed v) := by
        rw [reconciled, pruned_none]
        rfl
    _ = (l.listed v).leave (v.members.toList.map Member.name) ++ v.members.toList.foldl enlist [] :=
        foldl_enlist _ _
    _ = v.members.toList.foldl enlist [] := by rw [hgone, List.nil_append]

/-- The nodes that are certainly routed when a round begins to bring a roster in line: all of them
if there is a baseline, and none otherwise. -/
def assured (l : Roster) (baseline : Option View) : Roster := if baseline.isSome then l else []

lemma mem_of_mem_assured {baseline : Option View} (h : n ∈ l.assured baseline) : n ∈ l := by
  cases baseline with
  | none => cases h
  | some p => exact h

lemma leave_assured (l : Roster) (baseline : Option View) (names : List String) :
    (l.assured baseline).leave names = (l.leave names).assured baseline := by
  cases baseline <;> rfl

/-- What is not known to be routed is made anew, so that in the end everything is known to be. -/
lemma reconciled_assured (l : Roster) (baseline : Option View) (v : View) :
    (l.assured baseline).reconciled baseline v = l.reconciled baseline v := by
  cases baseline with
  | none => rw [reconciled_none, reconciled_none]
  | some p => rfl

lemma reconciled_some (l : Roster) (p v : View) :
    l.reconciled (some p) v =
      (l.leave ((p.members.difference v.members).map Member.name)).leave
          ((v.members.difference p.members).map Member.name) ++
        (v.members.difference p.members).foldl enlist [] := by
  have hjoin : (v.changesSince (some p)).joining = v.members.difference p.members := rfl
  rw [reconciled, pruned_some, hjoin, foldl_enlist]

/-- A roster of members of the baseline becomes one of members of the view, even if a view lists one
name at two addresses. -/
lemma listed_of_mem_reconciled {baseline : Option View}
    (hl : ∀ p, baseline = some p → ∀ n ∈ l, n ∈ p.nodes) (hn : n ∈ l.reconciled baseline v) :
    n ∈ v.nodes := by
  rw [View.mem_nodes]
  cases baseline with
  | none =>
      rw [reconciled_none] at hn
      exact mem_of_mem_foldl_enlist_nil hn
  | some p =>
      rw [reconciled_some, List.mem_append, mem_leave, mem_leave] at hn
      rcases hn with ⟨⟨hmem, hstays⟩, -⟩ | hn
      · -- a member of the baseline that does not leave is in the view
        have hp := View.mem_nodes.mp (hl p rfl n hmem)
        by_contra hv
        exact hstays (List.mem_map.mpr ⟨_, ValueSet.mem_difference.mpr ⟨hp, hv⟩, rfl⟩)
      · exact (ValueSet.mem_difference.mp (mem_of_mem_foldl_enlist_nil hn)).1

/-- With distinct names, the outcome holds the newly listed members and those live nodes that the
view has in common with the baseline. -/
lemma mem_reconciled_some_iff (hv : v.Distinct) (hp : p.Distinct) (hl : ∀ n ∈ l, n ∈ p.nodes) :
    n ∈ l.reconciled (some p) v ↔ n ∈ v.nodes ∧ (n ∈ p.nodes → n ∈ l) := by
  have hnodup : ((v.members.difference p.members).map Member.name).Nodup :=
    (List.filter_sublist.map Member.name).nodup hv
  rw [reconciled_some, foldl_enlist_nil_eq_map hnodup, List.mem_append, mem_leave, mem_leave,
    View.mem_nodes, View.mem_nodes]
  constructor
  · rintro (⟨⟨hn, hstays⟩, -⟩ | hn)
    · have hpn := View.mem_nodes.mp (hl n hn)
      refine ⟨?_, fun _ => hn⟩
      by_contra hvn
      exact hstays (List.mem_map.mpr ⟨_, ValueSet.mem_difference.mpr ⟨hpn, hvn⟩, rfl⟩)
    · obtain ⟨m, hm, rfl⟩ := List.mem_map.mp hn
      obtain ⟨hmv, hmp⟩ := ValueSet.mem_difference.mp hm
      exact ⟨hmv, fun h => absurd h hmp⟩
  · rintro ⟨hnv, hcommon⟩
    by_cases hnp : n.toMember ∈ p.members.toList
    · -- nobody who leaves or joins has the name of a common member
      refine Or.inl ⟨⟨hcommon hnp, fun hmem => ?_⟩, fun hmem => ?_⟩
      · obtain ⟨m, hm, he⟩ := List.mem_map.mp hmem
        obtain ⟨hmp, hmv⟩ := ValueSet.mem_difference.mp hm
        exact hmv (hp.eq_of_name_eq hmp hnp he ▸ hnv)
      · obtain ⟨m, hm, he⟩ := List.mem_map.mp hmem
        obtain ⟨hmv, hmp⟩ := ValueSet.mem_difference.mp hm
        exact hmp (hv.eq_of_name_eq hmv hnv he ▸ hnp)
    · exact Or.inr (List.mem_map.mpr
        ⟨_, ValueSet.mem_difference.mpr ⟨hnv, hnp⟩, n.ofMember_toMember⟩)

/-- With distinct names, the outcome is the view exactly if no live node was missing of those that
the view has in common with the baseline. -/
theorem reconciled_eq_members_iff {baseline : Option View} (hv : v.Distinct)
    (hp : ∀ p, baseline = some p → p.Distinct ∧ ∀ n ∈ l, n ∈ p.nodes) :
    (∀ n, n ∈ l.reconciled baseline v ↔ n ∈ v.nodes) ↔
      ∀ p, baseline = some p → ∀ n ∈ p.nodes, n ∈ v.nodes → n ∈ l := by
  cases baseline with
  | none =>
      rw [reconciled_none, foldl_enlist_nil_eq_map hv]
      exact iff_of_true (fun n => Iff.rfl) fun p hnone => (Option.some_ne_none p hnone.symm).elim
  | some p =>
      obtain ⟨hdist, hl⟩ := hp p rfl
      constructor
      · rintro h p' hp' n hnp hnv
        obtain rfl := Option.some.inj hp'
        exact ((mem_reconciled_some_iff hv hdist hl).mp ((h n).mpr hnv)).2 hnp
      · intro h n
        rw [mem_reconciled_some_iff hv hdist hl]
        exact ⟨fun hn => hn.1, fun hn => ⟨hn, fun hnp => h p rfl n hnp hn⟩⟩

end Roster

end Federation
