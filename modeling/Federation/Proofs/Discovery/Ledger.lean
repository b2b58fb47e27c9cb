import Federation.Discovery.Enrolment
import Federation.Proofs.Discovery.Roster
import Federation.Proofs.Placement.Room
import Federation.Routing.Recorded

/-!
The ledger of a cluster: its live nodes with their connections, its routes, and the events.

* `Ledger.retire`, `Ledger.enlist`: a node leaves, and a member joins for which a handle is made. A
  node that is routed leaves an event behind, and so does one that joins.
* `Ledger.retireAll_eq`, `Ledger.enlistAll_eq`: the same in closed form for several nodes whose
  names differ.
* `Ledger.Tidy`: the live nodes have names of their own, and only live nodes are routed. This is
  kept by all changes.
* `Ledger.pruned`, `Ledger.reconciled`: what a view makes of a ledger.
* `Ledger.Roomy`: there is room for each of some members at the time when it joins.
-/

namespace Federation

/-- What there is to know of a cluster while a round for it goes on. -/
structure Ledger where
  cluster : String
  tracked : List Handle
  routed : NodeSet
  events : List RouteEvent
  built : ℕ

/-- The members up to the first one that is not up, which comes last. -/
def attempted (up : Member → Bool) : List Member → List Member
  | [] => []
  | m :: ms => if up m then m :: attempted up ms else [m]

lemma attempted_singleton (up : Member → Bool) (m : Member) : attempted up [m] = [m] :=
  ite_self _

/-- All of them if all are up. -/
lemma attempted_eq_self {up : Member → Bool} {ms : List Member} (h : ∀ m ∈ ms, up m = true) :
    attempted up ms = ms := by
  induction ms with
  | nil => rfl
  | cons m ms ih =>
      rw [attempted, if_pos (h m List.mem_cons_self),
        ih fun x hx => h x (List.mem_cons_of_mem m hx)]

/-- What is recorded when the nodes of some names leave, one after the other: one removal for each
that is routed. -/
def removals (cluster : String) (routed : NodeSet) (names : List String) : List RouteEvent :=
  (names.filter routed.contains).map (.removed cluster)

lemma removals_singleton (cluster : String) (routed : NodeSet) (name : String) :
    removals cluster routed [name] =
      if routed.contains name then [.removed cluster name] else [] := by
  rw [removals, List.filter_singleton]
  cases routed.contains name <;> rfl

lemma removals_congr {cluster : String} {routed routed' : NodeSet} {names : List String}
    (h : ∀ name ∈ names, routed'.contains name = routed.contains name) :
    removals cluster routed' names = removals cluster routed names :=
  congrArg (List.map _) (List.filter_congr h)

namespace Ledger

variable {l : Ledger} {name : String} {names : List String} {m : Member} {ms : List Member}
  {limit? : Option ℕ} {baseline : Option View} {p v : View}

/-! ### Single changes -/

/-- The node of a name leaves. -/
def retire (l : Ledger) (name : String) : Ledger :=
  { l with
    tracked := l.tracked.filter fun h => h.node.name ≠ name
    routed := l.routed.erase name
    events := l.events ++ removals l.cluster l.routed [name] }

/-- A handle is made for a member, routed, and added after all others. -/
def join (l : Ledger) (m : Member) : Ledger :=
  { l with
    tracked := l.tracked ++ [⟨l.cluster, l.built, .ofMember m⟩]
    routed := l.routed.insert (.ofMember m)
    events := l.events ++ [.added l.cluster m.name]
    built := l.built + 1 }

/-- A member joins. A node of its name gives way. -/
def enlist (l : Ledger) (m : Member) : Ledger := (l.retire m.name).join m

lemma mem_tracked_retire {h : Handle} :
    h ∈ (l.retire name).tracked ↔ h ∈ l.tracked ∧ h.node.name ≠ name := by
  simp [retire]

lemma mem_routed_retire {n : Node} :
    n ∈ (l.retire name).routed.toList ↔ n ∈ l.routed.toList ∧ n.name ≠ name :=
  Keyed.mem_erase

lemma mem_routed_enlist {n : Node} : n ∈ (l.enlist m).routed.toList ↔
    n = .ofMember m ∨ (n ∈ l.routed.toList ∧ n.name ≠ m.name) := by
  rw [enlist, join, Keyed.mem_insert, mem_routed_retire, Node.name_ofMember, and_assoc, and_self]

/-- The routes to other names stay. -/
lemma contains_retire {x : String} (hx : x ≠ name) :
    (l.retire name).routed.contains x = l.routed.contains x := by
  rw [Keyed.contains_eq_isSome, Keyed.contains_eq_isSome, retire, Keyed.find?_erase, if_neg hx]

lemma contains_enlist {x : String} (hx : x ≠ m.name) :
    (l.enlist m).routed.contains x = l.routed.contains x := by
  have hinsert : (l.enlist m).routed.find? x = (l.retire m.name).routed.find? x :=
    Keyed.find?_insert.trans (if_neg hx.symm)
  rw [Keyed.contains_eq_isSome, hinsert, ← Keyed.contains_eq_isSome, contains_retire hx]

/-! ### Tidy ledgers -/

/-- What holds of a ledger throughout. -/
structure Tidy (l : Ledger) : Prop where
  handles : ∀ h ∈ l.tracked, h.cluster = l.cluster
  distinct : (l.tracked.map fun h => h.node.name).Nodup
  within : ∀ n ∈ l.routed.toList, ∃ h ∈ l.tracked, h.node = n

lemma Tidy.retire (ht : l.Tidy) (name : String) : (l.retire name).Tidy := by
  refine ⟨fun h hh => ht.handles h (mem_tracked_retire.mp hh).1, ?_, fun n hn => ?_⟩
  · exact (List.filter_sublist.map _).nodup ht.distinct
  · obtain ⟨hn, hname⟩ := mem_routed_retire.mp hn
    obtain ⟨h, hh, rfl⟩ := ht.within n hn
    exact ⟨h, mem_tracked_retire.mpr ⟨hh, hname⟩, rfl⟩

lemma Tidy.enlist (ht : l.Tidy) (m : Member) : (l.enlist m).Tidy := by
  have hr := ht.retire m.name
  refine ⟨fun h hh => ?_, ?_, fun n hn => ?_⟩
  · rcases List.mem_append.mp hh with hh | hh
    · exact hr.handles h hh
    · rw [List.mem_singleton.mp hh]
      rfl
  · rw [Ledger.enlist, join, List.map_append, List.nodup_append]
    refine ⟨hr.distinct, List.nodup_singleton _, fun a ha b hb => ?_⟩
    obtain ⟨h, hh, rfl⟩ := List.mem_map.mp ha
    obtain rfl : b = m.name := by simpa using hb
    exact (mem_tracked_retire.mp hh).2
  · rcases mem_routed_enlist.mp hn with rfl | ⟨hn, hname⟩
    · exact ⟨_, List.mem_append_right _ List.mem_cons_self, rfl⟩
    · obtain ⟨h, hh, rfl⟩ := ht.within n hn
      exact ⟨h, List.mem_append_left _ (mem_tracked_retire.mpr ⟨hh, hname⟩), rfl⟩

/-- Nothing happens where nobody has the name. -/
lemma Tidy.retire_eq_self (ht : l.Tidy) (hname : ∀ h ∈ l.tracked, h.node.name ≠ name) :
    l.retire name = l := by
  have hfree : l.routed.contains name = false := by
    rw [Keyed.contains_eq_false_iff]
    intro n hn
    obtain ⟨h, hh, rfl⟩ := ht.within n hn
    exact hname h hh
  have htracked : l.tracked.filter (fun h => h.node.name ≠ name) = l.tracked :=
    List.filter_eq_self.mpr fun h hh => by simpa using hname h hh
  have hrecorded : removals l.cluster l.routed [name] = [] := by
    rw [removals_singleton, hfree, if_neg Bool.false_ne_true]
  rw [Ledger.retire, htracked, Keyed.erase_of_not_contains hfree, hrecorded, List.append_nil]

/-! ### Several nodes -/

/-- The nodes of some names leave, one after the other. -/
def retireAll (l : Ledger) (names : List String) : Ledger := names.foldl retire l

/-- Some members join, one after the other. -/
def enlistAll (l : Ledger) (ms : List Member) : Ledger := ms.foldl enlist l

lemma Tidy.retireAll (ht : l.Tidy) (names : List String) : (l.retireAll names).Tidy := by
  induction names generalizing l with
  | nil => exact ht
  | cons name names ih => exact ih (ht.retire name)

lemma Tidy.enlistAll (ht : l.Tidy) (ms : List Member) : (l.enlistAll ms).Tidy := by
  induction ms generalizing l with
  | nil => exact ht
  | cons m ms ih => exact ih (ht.enlist m)

lemma tracked_retireAll (l : Ledger) (names : List String) :
    (l.retireAll names).tracked = l.tracked.filter fun h => h.node.name ∉ names := by
  induction names generalizing l with
  | nil => simp [retireAll]
  | cons name names ih =>
      calc ((l.retire name).retireAll names).tracked
          = (l.tracked.filter fun h => h.node.name ≠ name).filter fun h => h.node.name ∉ names :=
            ih _
        _ = l.tracked.filter fun h => h.node.name ∉ name :: names := by
            simp [List.filter_filter, not_or, Bool.and_comm]

lemma mem_routed_retireAll {n : Node} : n ∈ (l.retireAll names).routed.toList ↔
    n ∈ l.routed.toList ∧ n.name ∉ names := by
  induction names generalizing l with
  | nil => simp [retireAll]
  | cons name names ih =>
      calc n ∈ ((l.retire name).retireAll names).routed.toList
          ↔ (n ∈ l.routed.toList ∧ n.name ≠ name) ∧ n.name ∉ names := by
            rw [ih, mem_routed_retire]
        _ ↔ n ∈ l.routed.toList ∧ n.name ∉ name :: names := by
            rw [List.mem_cons, not_or, and_assoc]

/-- Several nodes leave, in closed form. -/
lemma retireAll_eq (hn : names.Nodup) : l.retireAll names =
    { l with
      tracked := l.tracked.filter fun h => h.node.name ∉ names
      routed := l.routed.filter fun n => n.name ∉ names
      events := l.events ++ removals l.cluster l.routed names } := by
  have hrouted : (l.retireAll names).routed = l.routed.filter fun n => n.name ∉ names :=
    Keyed.ext_mem fun n => by
      rw [mem_routed_retireAll, Keyed.toList_filter, List.mem_filter, decide_eq_true_iff]
  have hrest : (l.retireAll names).cluster = l.cluster ∧ (l.retireAll names).built = l.built ∧
      (l.retireAll names).events = l.events ++ removals l.cluster l.routed names := by
    clear hrouted
    induction names generalizing l with
    | nil => simp [retireAll, removals]
    | cons name names ih =>
        obtain ⟨hname, hnames⟩ := List.nodup_cons.mp hn
        obtain ⟨hcluster, hbuilt, hevents⟩ := ih (l := l.retire name) hnames
        -- the routes to the other names are still there
        have hothers : names.filter (l.retire name).routed.contains =
            names.filter l.routed.contains := by
          exact List.filter_congr fun x hx => contains_retire fun he => hname (he ▸ hx)
        refine ⟨hcluster, hbuilt, hevents.trans ?_⟩
        rw [removals, hothers, Ledger.retire, removals, removals, List.append_assoc,
          ← List.map_append, ← List.filter_append, List.singleton_append]
  obtain ⟨hcluster, hbuilt, hevents⟩ := hrest
  calc l.retireAll names
      = ⟨(l.retireAll names).cluster, (l.retireAll names).tracked, (l.retireAll names).routed,
          (l.retireAll names).events, (l.retireAll names).built⟩ := rfl
    _ = _ := by rw [hcluster, tracked_retireAll, hrouted, hevents, hbuilt]

/-- Handles for some members, with consecutive serial numbers. -/
def handles (cluster : String) (built : ℕ) (ms : List Member) : List Handle :=
  ms.mapIdx fun i m => ⟨cluster, built + i, .ofMember m⟩

lemma handles_cons (cluster : String) (built : ℕ) (m : Member) (ms : List Member) :
    handles cluster built (m :: ms) =
      ⟨cluster, built, .ofMember m⟩ :: handles cluster (built + 1) ms := by
  rw [handles, handles, List.mapIdx_cons, Nat.add_zero]
  simp only [Nat.add_assoc, Nat.add_comm 1]

/-- The nodes of the handles are those of the members. -/
lemma map_node_handles (cluster : String) (built : ℕ) (ms : List Member) :
    (handles cluster built ms).map Handle.node = ms.map Node.ofMember := by
  induction ms generalizing built with
  | nil => rfl
  | cons m ms ih => rw [handles_cons, List.map_cons, ih, List.map_cons]

/-- What the joining of members adds to the events. -/
def joinEvents (l : Ledger) (ms : List Member) : List RouteEvent :=
  ms.flatMap fun m => removals l.cluster l.routed [m.name] ++ [.added l.cluster m.name]

/-- Several members join, in closed form. -/
lemma enlistAll_eq (hn : (ms.map Member.name).Nodup) :
    (l.enlistAll ms).tracked = (l.tracked.filter fun h => h.node.name ∉ ms.map Member.name) ++
        handles l.cluster l.built ms ∧
      (∀ n, n ∈ (l.enlistAll ms).routed.toList ↔
        (n ∈ l.routed.toList ∧ n.name ∉ ms.map Member.name) ∨ n.toMember ∈ ms) ∧
      (l.enlistAll ms).events = l.events ++ l.joinEvents ms := by
  induction ms generalizing l with
  | nil => simp [enlistAll, handles, joinEvents]
  | cons m ms ih =>
      obtain ⟨hm, hms⟩ := List.nodup_cons.mp hn
      obtain ⟨htracked, hrouted, hevents⟩ := ih (l := l.enlist m) hms
      refine ⟨htracked.trans ?_, fun n => (hrouted n).trans ?_, hevents.trans ?_⟩
      · have hstays : [(⟨l.cluster, l.built, .ofMember m⟩ : Handle)].filter
            (fun h => h.node.name ∉ ms.map Member.name) = [⟨l.cluster, l.built, .ofMember m⟩] :=
          List.filter_eq_self.mpr fun h hh => by
            rw [List.mem_singleton.mp hh]
            exact decide_eq_true hm
        rw [enlist, join, Ledger.retire, List.filter_append, hstays, List.filter_filter,
          handles_cons, List.append_assoc, List.singleton_append]
        refine congrArg (· ++ _) (List.filter_congr fun h _ => ?_)
        simp [not_or, Bool.and_comm]
      · rw [mem_routed_enlist, List.mem_cons, List.map_cons, List.mem_cons, not_or]
        constructor
        · rintro (⟨rfl | ⟨hmem, hname⟩, hothers⟩ | hmem)
          · exact Or.inr (Or.inl rfl)
          · exact Or.inl ⟨hmem, hname, hothers⟩
          · exact Or.inr (Or.inr hmem)
        · rintro (⟨hmem, hname, hothers⟩ | rfl | hmem)
          · exact Or.inl ⟨Or.inr ⟨hmem, hname⟩, hothers⟩
          · exact Or.inl ⟨Or.inl rfl, hm⟩
          · exact Or.inr hmem
      · -- nobody of the other names has joined or left meanwhile
        have hothers : (l.enlist m).joinEvents ms = l.joinEvents ms := by
          refine List.flatMap_congr fun x hx => ?_
          rw [removals_congr fun y hy => contains_enlist fun he => hm ?_]
          · rfl
          · rw [← he, List.mem_singleton.mp hy]
            exact List.mem_map_of_mem hx
        rw [hothers, enlist, join, Ledger.retire, joinEvents, joinEvents, List.flatMap_cons]
        simp only [List.append_assoc]

/-! ### Whole views -/

/-- The names of the live nodes that the view does not list by name. -/
def unlisted (l : Ledger) (v : View) : List String :=
  (l.tracked.filter fun h => !v.lists h.node.name).map fun h => h.node.name

/-- What the leaving members, and the unlisted nodes where there is no baseline, leave behind. -/
def pruned (l : Ledger) (baseline : Option View) (v : View) : Ledger :=
  let left := l.retireAll ((v.changesSince baseline).leaving.map Member.name)
  if baseline.isNone then left.retireAll (left.unlisted v) else left

/-- The ledger in line with the view. -/
def reconciled (l : Ledger) (baseline : Option View) (v : View) : Ledger :=
  (l.pruned baseline v).enlistAll (v.changesSince baseline).joining

lemma pruned_none (l : Ledger) (v : View) : l.pruned none v = l.retireAll (l.unlisted v) := rfl

lemma pruned_some (l : Ledger) (p v : View) : l.pruned (some p) v =
    l.retireAll ((p.members.difference v.members).map Member.name) := rfl

lemma Tidy.pruned (ht : l.Tidy) (baseline : Option View) (v : View) :
    (l.pruned baseline v).Tidy := by
  rw [Ledger.pruned]
  split
  next => exact (ht.retireAll _).retireAll _
  next => exact ht.retireAll _

/-- Only nodes stay that the view lists by name, if all nodes were members of the baseline. -/
lemma lists_of_mem_pruned (hl : ∀ p, baseline = some p → ∀ h ∈ l.tracked, h.node ∈ p.nodes)
    {h : Handle} (hh : h ∈ (l.pruned baseline v).tracked) : v.lists h.node.name = true := by
  cases baseline with
  | none =>
      rw [pruned_none, tracked_retireAll, List.mem_filter, decide_eq_true_iff] at hh
      by_contra hlists
      refine hh.2 (List.mem_map.mpr ⟨h, List.mem_filter.mpr ⟨hh.1, ?_⟩, rfl⟩)
      rw [Bool.eq_false_of_not_eq_true hlists]
      rfl
  | some p =>
      rw [pruned_some, tracked_retireAll, List.mem_filter, decide_eq_true_iff] at hh
      have hp := View.mem_nodes.mp (hl p rfl h hh.1)
      by_contra hlists
      refine hh.2 (List.mem_map.mpr ⟨h.node.toMember, ValueSet.mem_difference.mpr ⟨hp, ?_⟩, rfl⟩)
      exact fun hv => hlists (View.lists_iff.mpr ⟨_, hv, rfl⟩)

/-! ### Room -/

/-- There is room for each of the members at the time when it joins. -/
def Roomy (limit? : Option ℕ) (l : Ledger) : List Member → Prop
  | [] => True
  | m :: ms => NodePlacement.HasRoom limit? (l.retire m.name).routed (.ofMember m) ∧
      Roomy limit? (l.enlist m) ms

/-- There is room for all members of some kind if there is room for each one beside any others of
the kind. -/
lemma roomy_of {P : Node → Prop} (hl : ∀ n ∈ l.routed.toList, P n) (hms : ∀ m ∈ ms, P (.ofMember m))
    (hroom : ∀ m ∈ ms, ∀ s : NodeSet, (∀ n ∈ s.toList, P n ∧ n.name ≠ m.name) →
      NodePlacement.HasRoom limit? s (.ofMember m)) : l.Roomy limit? ms := by
  induction ms generalizing l with
  | nil => trivial
  | cons m ms ih =>
      refine ⟨hroom m List.mem_cons_self _ fun n hn => ?_, ih (fun n hn => ?_)
        (fun x hx => hms x (List.mem_cons_of_mem m hx))
        fun x hx => hroom x (List.mem_cons_of_mem m hx)⟩
      · obtain ⟨hn, hname⟩ := mem_routed_retire.mp hn
        exact ⟨hl n hn, hname⟩
      · rcases mem_routed_enlist.mp hn with rfl | ⟨hn, -⟩
        · exact hms m List.mem_cons_self
        · exact hl n hn

end Ledger

end Federation
