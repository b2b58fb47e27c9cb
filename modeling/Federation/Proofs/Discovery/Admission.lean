import Federation.Proofs.Discovery.Outset
import Federation.Proofs.Discovery.Setbacks

/-!
Members that join are not refused.

* `View.hasRoom`: beside nodes that a view lists by name there is room for one more of its members,
  as long as the view has no more names than there may be nodes.
* `World.Outset.roomy_cleared`: so there is room for all members that join, one after the other.
* `Course.update_admits`: a round that obtains a small enough view is refused no route, and it is
  successful unless a member that joins cannot be connected.
-/

namespace Federation

namespace View

variable {v : View} {m : Member} {s : NodeSet} {max : ℕ}

/-- The names of the members, each of them once. -/
def names (v : View) : List String := (v.members.toList.map Member.name).dedup

lemma mem_names {name : String} : name ∈ v.names ↔ v.lists name = true := by
  rw [names, List.mem_dedup, List.mem_map, lists_iff]

lemma name_mem_names (hm : m ∈ v.members.toList) : m.name ∈ v.names :=
  mem_names.mpr (lists_iff.mpr ⟨m, hm, rfl⟩)

/-- There are fewer nodes than names if the name of a member is missing among the nodes. -/
lemma size_lt_of_missing (hm : m ∈ v.members.toList)
    (hs : ∀ n ∈ s.toList, v.lists n.name = true ∧ n.name ≠ m.name) : s.size < v.names.length := by
  have hnodup : (m.name :: s.keys).Nodup := by
    refine List.nodup_cons.mpr ⟨fun hmem => ?_, s.nodup_keys⟩
    obtain ⟨n, hn, hname⟩ := List.mem_map.mp hmem
    exact (hs n hn).2 hname
  have hsub : m.name :: s.keys ⊆ v.names := by
    refine List.cons_subset.mpr ⟨name_mem_names hm, fun name hmem => ?_⟩
    obtain ⟨n, hn, rfl⟩ := List.mem_map.mp hmem
    exact mem_names.mpr (hs n hn).1
  have hlength := (hnodup.subperm hsub).length_le
  rw [List.length_cons, Keyed.keys, List.length_map] at hlength
  exact hlength

/-- There is room for a member if the view does not have too many names. -/
lemma hasRoom (hv : v.names.length ≤ max) (hm : m ∈ v.members.toList)
    (hs : ∀ n ∈ s.toList, v.lists n.name = true ∧ n.name ≠ m.name) :
    NodePlacement.HasRoom (some max) s (.ofMember m) := by
  refine ⟨Keyed.contains_eq_false_iff.mpr fun n hn => (hs n hn).2, ?_, ?_⟩
  · rintro limit hlimit
    obtain rfl := Option.some.inj hlimit
    exact (size_lt_of_missing hm hs).trans_le hv
  · intro hnone
    cases hnone

end View

namespace World

variable {w : World} {c : String} {v : View} {max : ℕ}

lemma mem_of_mem_joining {m : Member} (hm : m ∈ (w.changesTo c v).joining) :
    m ∈ v.members.toList := by
  rw [changesTo] at hm
  cases hb : w.baselineOf c with
  | none =>
      rw [hb] at hm
      exact hm
  | some p =>
      rw [hb] at hm
      exact (ValueSet.mem_difference.mp hm).1

/-- Whatever is still routed when the first member joins, there is room for all of them. -/
lemma Outset.roomy_cleared (hw : w.Outset c) (hv : v.names.length ≤ max) :
    (w.cleared c v).Roomy (some max) (w.changesTo c v).joining := by
  refine Ledger.roomy_of (P := fun n => v.lists n.name = true) (fun n hn => ?_) (fun m hm => ?_)
    fun m hm s hs => View.hasRoom hv (mem_of_mem_joining hm) hs
  · obtain ⟨h, hh, rfl⟩ := hw.tidy_cleared.within n hn
    exact hw.lists_of_mem_cleared hh
  · exact View.lists_iff.mpr ⟨m, mem_of_mem_joining hm, rfl⟩

/-- If there is room for all members that join, then one of them that cannot be reached is the only
reason for which a round may fail. -/
lemma update_eq_ok_or (hw : w.Outset c) (hsound : w.router.router.nodes.Sound)
    (ho : w.obtained c = some v)
    (hroomy : (w.cleared c v).Roomy w.router.router.limit? (w.changesTo c v).joining) :
    (w.update c).1 = .ok (w.changesTo c v) ∨ ∃ m ∈ (w.changesTo c v).joining,
      w.network.up m = false ∧ (w.update c).1 = .error (Network.unreachable (.ofMember m)) := by
  obtain ⟨hresult, -⟩ := update_roomy hw.ready hw.tidy hsound ho hroomy
  rw [hresult]
  cases hcontact : w.network.contactAll (w.changesTo c v).joining with
  | ok _ => exact Or.inl rfl
  | error x =>
      obtain ⟨m, hm, hdown, rfl⟩ := Network.exists_of_contactAll_eq_error hcontact
      exact Or.inr ⟨m, hm, hdown, rfl⟩

end World

namespace Course

variable {config : Config} {router : Router} {c : String} {moves : List Move} {v : View}

/-- Where nodes are placed by hashing, a round that obtains a view with no more names than there may
be nodes is successful if all connections that it makes are. No route is refused on its way, and if
it fails, then because of a member that joins and cannot be reached. -/
theorem update_admits {p : HashedNodes} (hp : router.nodes = .hashed p) (hs : p.Sound)
    (hr : router.Free c) (hm : ∀ m ∈ moves, m.Spares c)
    (hj : (ofMoves config router moves).world.enrolments.contains c = true)
    (hrest : (ofMoves config router moves).resting c = true)
    (ho : (ofMoves config router moves).world.obtained c = some v)
    (hv : v.names.length ≤ p.max) :
    ((ofMoves config router moves).world.Connects c →
      ((ofMoves config router moves).world.update c).1 =
        .ok ((ofMoves config router moves).world.changesTo c v)) ∧
    (∀ h x, ⟨.route h, .error x⟩ ∉
      (Round.update c).run.exchanges World.answer (ofMoves config router moves).world) ∧
    ∀ x, ((ofMoves config router moves).world.update c).1 = .error x →
      ∃ m ∈ ((ofMoves config router moves).world.changesTo c v).joining,
        (ofMoves config router moves).world.network.up m = false ∧
          x = Network.unreachable (.ofMember m) := by
  have hw : (ofMoves config router moves).world.Outset c := outset_ofMoves hr hm hj hrest
  have hrouter : router.nodes.Sound := by
    rw [hp]
    exact hs
  obtain ⟨hsound, hlimit⟩ := sound_ofMoves config hrouter moves
  have hmax : router.limit? = some p.max := by
    rw [Router.limit?, hp]
    rfl
  have hroomy := hw.roomy_cleared hv
  rw [← hmax, ← hlimit] at hroomy
  rcases World.update_eq_ok_or hw hsound ho hroomy with hok | ⟨m, hm, hdown, herror⟩
  · refine ⟨fun _ => hok, fun h x hx => ?_, fun x hx => ?_⟩
    · cases hok.symm.trans (World.update_eq_of_refused hx)
    · cases hok.symm.trans hx
  · refine ⟨fun hconnects => ?_, fun h x hx => ?_, fun x hx => ⟨m, hm, hdown, ?_⟩⟩
    · exact absurd herror (World.update_ne_communication hconnects _ _)
    · obtain rfl := Except.error.inj (herror.symm.trans (World.update_eq_of_refused hx))
      cases World.refusal_of_mem_exchanges hx
    · exact Except.error.inj (hx.symm.trans herror)

/-- At most two nodes for a cluster. -/
def crowdedRouter : Router :=
  .ofPlacements (.hashed (.ofLimit 2 (.ofCode String.length))) (.ofHash (.ofCode String.length))

/-- Another node has joined in the place of `b`, and it is listed at two addresses. -/
def crowdedView : View :=
  .ofList "asia" [⟨"a", ⟨"host", 1⟩⟩, ⟨"c", ⟨"host", 3⟩⟩, ⟨"c", ⟨"host", 4⟩⟩]

/-- As many nodes are routed as there may be when the other view is published. -/
def crowding : List Move :=
  [.publish pairView, .start] ++ pairRound ++ [.publish crowdedView]

/-- The table is full before the round, and the view lists one name at two addresses. The round is
successful all the same. -/
theorem update_admits_crowded :
    ((ofMoves pairConfig crowdedRouter crowding).world.update "asia").1 =
      .ok ⟨[⟨"b", ⟨"host", 2⟩⟩], [⟨"c", ⟨"host", 3⟩⟩, ⟨"c", ⟨"host", 4⟩⟩]⟩ := by
  have hchanges : (ofMoves pairConfig crowdedRouter crowding).world.changesTo "asia" crowdedView =
      ⟨[⟨"b", ⟨"host", 2⟩⟩], [⟨"c", ⟨"host", 3⟩⟩, ⟨"c", ⟨"host", 4⟩⟩]⟩ := by decide +kernel
  have hadmits := @update_admits pairConfig crowdedRouter "asia" crowding crowdedView _ rfl
    (HashedNodes.sound_ofLimit _ _) ⟨rfl, fun k hk => by cases hk⟩
    (by simp [crowding, pairRound, Move.Spares]) (by decide +kernel) (by decide +kernel)
    (by decide +kernel) (by decide +kernel)
  rw [← hchanges]
  exact hadmits.1 (by decide +kernel)

end Course

end Federation
