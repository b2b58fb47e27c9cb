import Federation.Proofs.Discovery.Outset

/-!
The exact effect of a successful round.

* `Ledger.Settled`: all live nodes are routed.
* `Ledger.reconciled_none_eq`, `Ledger.reconciled_some_eq`: the ledger in line with a view whose
  names differ, in closed form.
* `World.Rebuilt`, `World.Amended`: what a round does that compares the view with nothing, and what
  one does that compares it with the stored view.
* `Course.update_exact`: every successful round does one of the two, and the routed nodes are the
  live ones after it.
-/

namespace Federation

/-! ### Ledgers in line with a view -/

namespace Ledger

variable {l : Ledger} {name : String} {names : List String} {m : Member} {ms : List Member}
  {p v : View}

/-- All live nodes are routed. -/
def Settled (l : Ledger) : Prop := ∀ h ∈ l.tracked, h.node ∈ l.routed.toList

/-- Then the routed nodes are the live ones. -/
lemma Settled.mem_routed_iff (hs : l.Settled) (ht : l.Tidy) {n : Node} :
    n ∈ l.routed.toList ↔ ∃ h ∈ l.tracked, h.node = n := by
  constructor
  · exact ht.within n
  · rintro ⟨h, hh, rfl⟩
    exact hs h hh

lemma Settled.retireAll (hs : l.Settled) (names : List String) : (l.retireAll names).Settled := by
  intro h hh
  rw [tracked_retireAll, List.mem_filter, decide_eq_true_iff] at hh
  exact mem_routed_retireAll.mpr ⟨hs h hh.1, hh.2⟩

lemma Settled.enlist (hs : l.Settled) (m : Member) : (l.enlist m).Settled := by
  intro h hh
  rw [mem_routed_enlist]
  rcases List.mem_append.mp hh with hh | hh
  · obtain ⟨hh, hname⟩ := mem_tracked_retire.mp hh
    exact Or.inr ⟨hs h hh, hname⟩
  · rw [List.mem_singleton.mp hh]
    exact Or.inl rfl

lemma Settled.enlistAll (hs : l.Settled) (ms : List Member) : (l.enlistAll ms).Settled := by
  induction ms generalizing l with
  | nil => exact hs
  | cons m ms ih => exact ih (hs.enlist m)

/-- The routes to other names stay. -/
lemma contains_retireAll (hname : name ∉ names) :
    (l.retireAll names).routed.contains name = l.routed.contains name := by
  induction names generalizing l with
  | nil => rfl
  | cons x names ih =>
      rw [List.mem_cons, not_or] at hname
      exact (ih hname.2).trans (contains_retire hname.1)

/-- Members whose names are new to the routes only add events of their own. -/
lemma joinEvents_of_new (h : ∀ m ∈ ms, ∀ n ∈ l.routed.toList, n.name ≠ m.name) :
    l.joinEvents ms = ms.map fun m => .added l.cluster m.name := by
  rw [joinEvents, List.map_eq_flatMap]
  refine List.flatMap_congr fun m hm => ?_
  rw [removals_singleton, Keyed.contains_eq_false_iff.mpr (h m hm), if_neg Bool.false_ne_true,
    List.nil_append]

/-! ### Without a baseline -/

lemma Tidy.nodup_unlisted (ht : l.Tidy) (v : View) : (l.unlisted v).Nodup :=
  (List.filter_sublist.map _).nodup ht.distinct

/-- A name that the view lists is not among the unlisted ones. -/
lemma not_mem_unlisted (hm : m ∈ v.members.toList) : m.name ∉ l.unlisted v := by
  intro hmem
  obtain ⟨h, hh, hname⟩ := List.mem_map.mp hmem
  have hlists : v.lists h.node.name = true := View.lists_iff.mpr ⟨m, hm, hname.symm⟩
  simp [hlists] at hh

/-- The members are listed, so that the unlisted nodes do not matter to them. -/
lemma joinEvents_pruned_none (ht : l.Tidy) :
    (l.pruned none v).joinEvents v.members.toList = l.joinEvents v.members.toList := by
  have hcluster : (l.pruned none v).cluster = l.cluster := by
    rw [pruned_none, retireAll_eq (ht.nodup_unlisted v)]
  refine List.flatMap_congr fun m hm => ?_
  rw [hcluster, pruned_none, removals_congr fun name hname => contains_retireAll ?_]
  rw [List.mem_singleton.mp hname]
  exact not_mem_unlisted hm

/-- There is one new node for each member, and the others are gone. -/
theorem reconciled_none_eq (ht : l.Tidy) (hv : v.Distinct) :
    (l.reconciled none v).tracked = handles l.cluster l.built v.members.toList ∧
      (l.reconciled none v).Settled ∧
      (l.reconciled none v).events =
        l.events ++ removals l.cluster l.routed (l.unlisted v) ++ l.joinEvents v.members.toList := by
  have hpruned := (pruned_none l v).trans (retireAll_eq (ht.nodup_unlisted v))
  obtain ⟨htracked, hrouted, hevents⟩ := enlistAll_eq (l := l.pruned none v) hv
  -- whoever stays gives way to the member of the same name
  have hgone : (l.pruned none v).tracked.filter
      (fun h => h.node.name ∉ v.members.toList.map Member.name) = [] := by
    refine List.filter_eq_nil_iff.mpr fun h hh => ?_
    have hnone : ∀ p : View, none = some p → ∀ h ∈ l.tracked, h.node ∈ p.nodes :=
      fun p hp => (Option.some_ne_none p hp.symm).elim
    obtain ⟨m, hm, hname⟩ := View.lists_iff.mp (lists_of_mem_pruned hnone hh)
    simpa using ⟨m, hm, hname⟩
  have hmade : (l.reconciled none v).tracked = handles l.cluster l.built v.members.toList :=
    htracked.trans (by rw [hgone, List.nil_append, hpruned])
  refine ⟨hmade, fun h hh => (hrouted h.node).mpr (Or.inr ?_), hevents.trans ?_⟩
  · have hnode : h.node ∈ (handles l.cluster l.built v.members.toList).map Handle.node :=
      List.mem_map_of_mem (hmade ▸ hh)
    rw [map_node_handles] at hnode
    exact View.mem_nodes.mp hnode
  · rw [joinEvents_pruned_none ht, hpruned]

/-! ### With a baseline -/

section Baseline

variable (ht : l.Tidy) (hs : l.Settled) (hv : v.Distinct) (hp : p.Distinct)
  (hl : ∀ h ∈ l.tracked, h.node ∈ p.nodes)

include hp hl

/-- The name of a live node tells which member of the baseline it is. -/
lemma eq_toMember {h : Handle} (hh : h ∈ l.tracked) (hm : m ∈ p.members.toList)
    (he : m.name = h.node.name) : m = h.node.toMember :=
  hp.eq_of_name_eq hm (View.mem_nodes.mp (hl h hh)) he

lemma tracked_pruned_some : (l.pruned (some p) v).tracked =
    l.tracked.filter fun h => h.node.toMember ∉ p.members.difference v.members := by
  rw [pruned_some, tracked_retireAll]
  refine List.filter_congr fun h hh => decide_eq_decide.mpr (not_congr ⟨fun hmem => ?_, fun hmem =>
    List.mem_map.mpr ⟨_, hmem, rfl⟩⟩)
  obtain ⟨m, hm, hname⟩ := List.mem_map.mp hmem
  exact eq_toMember hp hl hh (ValueSet.mem_difference.mp hm).1 hname ▸ hm

include ht hs in
/-- Those members leave an event behind that are live nodes. -/
lemma removals_leaving : removals l.cluster l.routed
    ((p.members.difference v.members).map Member.name) =
      ((p.members.difference v.members).filter fun m =>
        .ofMember m ∈ l.tracked.map Handle.node).map fun m => .removed l.cluster m.name := by
  rw [removals, List.filter_map, List.map_map]
  refine congrArg _ (List.filter_congr fun m hm => ?_)
  rw [Function.comp_apply, Bool.eq_iff_iff, Keyed.contains_iff, decide_eq_true_iff, List.mem_map]
  constructor
  · rintro ⟨n, hn, hname⟩
    obtain ⟨h, hh, rfl⟩ := ht.within n hn
    refine ⟨h, hh, ?_⟩
    rw [eq_toMember hp hl hh (ValueSet.mem_difference.mp hm).1 hname.symm, Node.ofMember_toMember]
  · rintro ⟨h, hh, hnode⟩
    exact ⟨h.node, hs h hh, by rw [hnode, Node.name_ofMember]⟩

include hv in
/-- Whoever stays is a member of both views, and so has no name of those who join. -/
lemma name_ne_of_stays {h : Handle} (hh : h ∈ (l.pruned (some p) v).tracked)
    (hm : m ∈ v.members.difference p.members) : h.node.name ≠ m.name := by
  intro hname
  rw [tracked_pruned_some hp hl] at hh
  obtain ⟨hh, hstays⟩ := List.mem_filter.mp hh
  obtain ⟨hmv, hmp⟩ := ValueSet.mem_difference.mp hm
  have hhp := View.mem_nodes.mp (hl h hh)
  have hhv : h.node.toMember ∈ v.members.toList := by
    by_contra hhv
    exact of_decide_eq_true hstays (ValueSet.mem_difference.mpr ⟨hhp, hhv⟩)
  exact hmp (hv.eq_of_name_eq hmv hhv hname.symm ▸ hhp)

include ht hs hv in
/-- The live nodes stay that are members of both views, and there is one new node for each member
that is new. -/
theorem reconciled_some_eq :
    (l.reconciled (some p) v).tracked =
        (l.tracked.filter fun h => h.node.toMember ∉ p.members.difference v.members) ++
          handles l.cluster l.built (v.members.difference p.members) ∧
      (l.reconciled (some p) v).Settled ∧
      (l.reconciled (some p) v).events = l.events ++
        ((p.members.difference v.members).filter fun m =>
          .ofMember m ∈ l.tracked.map Handle.node).map (fun m => .removed l.cluster m.name) ++
        (v.members.difference p.members).map fun m => .added l.cluster m.name := by
  have hleaving : ((p.members.difference v.members).map Member.name).Nodup :=
    (List.filter_sublist.map Member.name).nodup hp
  have hjoining : ((v.members.difference p.members).map Member.name).Nodup :=
    (List.filter_sublist.map Member.name).nodup hv
  have hpruned := (pruned_some l p v).trans (retireAll_eq hleaving)
  obtain ⟨htracked, -, hevents⟩ := enlistAll_eq (l := l.pruned (some p) v) hjoining
  refine ⟨htracked.trans ?_, (hs.retireAll _).enlistAll _, hevents.trans ?_⟩
  · have hstay : (l.pruned (some p) v).tracked.filter
        (fun h => h.node.name ∉ (v.members.difference p.members).map Member.name) =
          (l.pruned (some p) v).tracked := by
      refine List.filter_eq_self.mpr fun h hh => decide_eq_true fun hmem => ?_
      obtain ⟨m, hm, hname⟩ := List.mem_map.mp hmem
      exact name_ne_of_stays hv hp hl hh hm hname.symm
    rw [hstay, tracked_pruned_some hp hl, hpruned]
  · have hnew : ∀ m ∈ v.members.difference p.members,
        ∀ n ∈ (l.pruned (some p) v).routed.toList, n.name ≠ m.name := by
      intro m hm n hn
      obtain ⟨h, hh, rfl⟩ := (ht.pruned (some p) v).within n hn
      exact name_ne_of_stays hv hp hl hh hm
    rw [joinEvents_of_new hnew, hpruned, removals_leaving ht hs hp hl]

end Baseline

end Ledger

/-! ### Rounds -/

namespace World

variable {w w' : World} {c : String} {p v : View} {changes : Changes}

/-- The live nodes of a cluster without those that a round asks in vain. -/
def reached (w : World) (c : String) : List Handle := (w.trackedOf c).filter fun h => h ∉ w.failed c

/-- What a round does that compares the view with nothing. -/
structure Rebuilt (w : World) (c : String) (v : View) (changes : Changes) (w' : World) : Prop where
  fresh : changes = ⟨[], v.members.toList⟩
  tracked : w'.trackedOf c = Ledger.handles c (w.ledger c).built v.members.toList
  /-- The routes to the nodes that were asked in vain are removed first, and then those to the nodes
  that the view does not list. At last each member is routed, after the route to the node of its
  name is removed that may still be there. -/
  events : w'.router.events = w.router.events ++ removals c (w.routedOf c) (w.failedNames c) ++
    removals c (w.routedOf c)
      (((w.reached c).filter fun h => !v.lists h.node.name).map fun h => h.node.name) ++
    v.members.toList.flatMap fun m =>
      removals c (w.routedOf c) ([m.name].filter fun name => name ∉ w.failedNames c) ++
        [.added c m.name]

/-- What a round does that compares the view with the stored one. -/
structure Amended (w : World) (c : String) (p v : View) (changes : Changes) (w' : World) : Prop where
  difference : changes = ⟨p.members.difference v.members, v.members.difference p.members⟩
  /-- The live nodes stay that could be reached and do not leave, and there is one new node for each
  member that joins. -/
  tracked : w'.trackedOf c =
    ((w.reached c).filter fun h => h.node.toMember ∉ p.members.difference v.members) ++
      Ledger.handles c (w.ledger c).built (v.members.difference p.members)
  /-- The routes to the nodes that were asked in vain are removed first, and then those to the
  leaving members that are still live nodes. At last each joining member is routed. -/
  events : w'.router.events = w.router.events ++ (w.failed c).map (fun h => .removed c h.node.name) ++
    ((p.members.difference v.members).filter fun m =>
      .ofMember m ∈ (w.reached c).map Handle.node).map (fun m => .removed c m.name) ++
    (v.members.difference p.members).map fun m => .added c m.name

lemma not_mem_failedNames (ht : (w.ledger c).Tidy) {h : Handle} (hh : h ∈ w.reached c) :
    h.node.name ∉ w.failedNames c := by
  obtain ⟨hh, hreached⟩ := List.mem_filter.mp hh
  intro hmem
  obtain ⟨h', hh', hname⟩ := List.mem_map.mp hmem
  have hlive : h' ∈ w.trackedOf c := (List.takeWhile_sublist _).subset hh'
  exact of_decide_eq_true hreached (List.inj_on_of_nodup_map ht.distinct hlive hh hname ▸ hh')

/-- The ledger without the nodes that were asked in vain, in closed form. -/
lemma remaining_eq (ht : (w.ledger c).Tidy) : w.remaining c =
    { w.ledger c with
      tracked := w.reached c
      routed := (w.routedOf c).filter fun n => n.name ∉ w.failedNames c
      events := w.router.events ++ removals c (w.routedOf c) (w.failedNames c) } := by
  have hnodup : (w.failedNames c).Nodup :=
    ((List.takeWhile_sublist _).map _).nodup ht.distinct
  have hreached : (w.trackedOf c).filter (fun h => h.node.name ∉ w.failedNames c) =
      w.reached c := by
    refine List.filter_congr fun h hh => decide_eq_decide.mpr
      ⟨fun hname hmem => hname (List.mem_map_of_mem hmem), fun hmem => ?_⟩
    exact not_mem_failedNames ht (List.mem_filter.mpr ⟨hh, decide_eq_true hmem⟩)
  rw [remaining, Ledger.retireAll_eq hnodup, ← hreached]
  rfl

/-- The routes that matter to a name that was not asked in vain are those from before. -/
lemma removals_remaining {names : List String} (hn : ∀ name ∈ names, name ∉ w.failedNames c) :
    removals c (w.remaining c).routed names = removals c (w.routedOf c) names :=
  removals_congr fun name hname => Ledger.contains_retireAll (hn name hname)

lemma removals_remaining_singleton (ht : (w.ledger c).Tidy) (name : String) :
    removals c (w.remaining c).routed [name] =
      removals c (w.routedOf c) ([name].filter fun name => name ∉ w.failedNames c) := by
  by_cases hname : name ∈ w.failedNames c
  · have hgone : (w.remaining c).routed.contains name = false := by
      rw [remaining_eq ht, Keyed.contains_eq_false_iff]
      rintro n hn rfl
      exact of_decide_eq_true (List.mem_filter.mp hn).2 hname
    rw [removals_singleton, hgone, if_neg Bool.false_ne_true,
      List.filter_singleton, decide_eq_false (not_not_intro hname)]
    rfl
  · rw [List.filter_singleton, decide_eq_true hname]
    refine removals_remaining fun x hx => ?_
    rw [List.mem_singleton.mp hx]
    exact hname

/-- Where there is a baseline all live nodes are routed. -/
lemma Outset.settled (hw : w.Outset c) (hb : w.baselineOf c = some p) : (w.ledger c).Settled := by
  intro h hh
  have hall : (w.rosterOf c).all (fun n => (w.routedOf c).contains n.name) = true := by
    by_contra hall
    rw [baselineOf, if_neg hall] at hb
    cases hb
  have hthere := List.all_eq_true.mp hall h.node (List.mem_map_of_mem hh)
  obtain ⟨n, hn, hname⟩ := Keyed.contains_iff.mp hthere
  obtain ⟨h', hh', rfl⟩ := hw.tidy.within n hn
  exact List.inj_on_of_nodup_map hw.tidy.distinct hh' hh hname ▸ hn

/-- Without a baseline a successful round makes everything anew. -/
lemma Outset.rebuilt (hw : w.Outset c) (hv : v.Distinct) (hb : w.baselineOf c = none)
    (hs : Since w c ((w.cleared c v).enlistAll (w.changesTo c v).joining) w') :
    w.Rebuilt c v (w.changesTo c v) w' ∧ (w'.ledger c).Settled := by
  have hledger : w'.ledger c = (w.remaining c).reconciled none v := by
    rw [hs.ledger, cleared, changesTo, hb]
    rfl
  obtain ⟨htracked, hsettled, hevents⟩ :
      ((w.remaining c).reconciled none v).tracked = _ ∧ _ ∧
        ((w.remaining c).reconciled none v).events = _ :=
    Ledger.reconciled_none_eq (hw.tidy.retireAll _) hv
  have hremaining := remaining_eq hw.tidy
  have hcluster : (w.remaining c).cluster = c := congrArg Ledger.cluster hremaining
  refine ⟨⟨?_, ?_, ?_⟩, hledger ▸ hsettled⟩
  · rw [changesTo, hb]
    rfl
  · refine (congrArg Ledger.tracked hledger).trans (htracked.trans ?_)
    rw [hremaining]
    rfl
  · have hunlisted : removals c (w.remaining c).routed ((w.remaining c).unlisted v) =
        removals c (w.routedOf c)
          (((w.reached c).filter fun h => !v.lists h.node.name).map fun h => h.node.name) := by
      rw [Ledger.unlisted, congrArg Ledger.tracked hremaining]
      refine removals_remaining fun name hname => ?_
      obtain ⟨h, hh, rfl⟩ := List.mem_map.mp hname
      exact not_mem_failedNames hw.tidy (List.mem_filter.mp hh).1
    have hjoin : (w.remaining c).joinEvents v.members.toList = v.members.toList.flatMap fun m =>
        removals c (w.routedOf c) ([m.name].filter fun name => name ∉ w.failedNames c) ++
          [.added c m.name] := by
      rw [Ledger.joinEvents, hcluster]
      exact List.flatMap_congr fun m _ => by rw [removals_remaining_singleton hw.tidy]
    refine (congrArg Ledger.events hledger).trans (hevents.trans ?_)
    rw [hcluster, hunlisted, hjoin, congrArg Ledger.events hremaining]

/-- With a baseline a successful round makes those changes that the views differ by. -/
lemma Outset.amended (hw : w.Outset c) (hv : v.Distinct) (hp : p.Distinct)
    (hb : w.baselineOf c = some p)
    (hs : Since w c ((w.cleared c v).enlistAll (w.changesTo c v).joining) w') :
    w.Amended c p v (w.changesTo c v) w' ∧ (w'.ledger c).Settled := by
  have hledger : w'.ledger c = (w.remaining c).reconciled (some p) v := by
    rw [hs.ledger, cleared, changesTo, hb]
    rfl
  have hremaining := remaining_eq hw.tidy
  have hcluster : (w.remaining c).cluster = c := congrArg Ledger.cluster hremaining
  have htracked := congrArg Ledger.tracked hremaining
  have hsettled := hw.settled hb
  have hlisted : ∀ h ∈ (w.remaining c).tracked, h.node ∈ p.nodes := by
    rw [htracked]
    exact fun h hh => (hw.listed p (viewOf_of_baselineOf hb)).2 h (List.mem_filter.mp hh).1
  obtain ⟨hafter, hsettled', hevents⟩ := Ledger.reconciled_some_eq
    (show (w.remaining c).Tidy from hw.tidy.retireAll _) (hsettled.retireAll _) hv hp hlisted
  refine ⟨⟨?_, ?_, ?_⟩, hledger ▸ hsettled'⟩
  · rw [changesTo, hb]
    rfl
  · refine (congrArg Ledger.tracked hledger).trans (hafter.trans ?_)
    rw [htracked, hcluster, congrArg Ledger.built hremaining]
  · -- all of the nodes that were asked in vain were routed
    have hfailed : removals c (w.routedOf c) (w.failedNames c) =
        (w.failed c).map fun h => .removed c h.node.name := by
      have hall : (w.failedNames c).filter (w.routedOf c).contains = w.failedNames c := by
        refine List.filter_eq_self.mpr fun name hname => ?_
        obtain ⟨h, hh, rfl⟩ := List.mem_map.mp hname
        have hlive : h ∈ w.trackedOf c := (List.takeWhile_sublist _).subset hh
        exact Keyed.contains_iff.mpr ⟨h.node, hsettled h hlive, rfl⟩
      rw [removals, hall, failedNames, List.map_map]
      rfl
    refine (congrArg Ledger.events hledger).trans (hevents.trans ?_)
    rw [htracked, hcluster, congrArg Ledger.events hremaining, hfailed]

end World

namespace Course

variable {config : Config} {router : Router} {c : String} {moves : List Move} {changes : Changes}
  {ms : ℕ} {w : World}

/-- What a successful round has done if no name is listed twice. It has stored the view that it has
obtained, and the routed nodes are the live ones. Without a baseline everything was made anew, and
with a baseline those changes were made that the views differ by. -/
theorem update_exact (hr : router.Free c) (hm : ∀ m ∈ moves, m.Spares c)
    (hj : (ofMoves config router moves).world.enrolments.contains c = true)
    (hrest : (ofMoves config router moves).resting c = true)
    (hu : (ofMoves config router moves).world.update c = (.ok changes, ms, w)) :
    ∃ v, (ofMoves config router moves).world.obtained c = some v ∧ w.viewOf c = some v ∧
      (v.Distinct → (∀ p, (ofMoves config router moves).world.viewOf c = some p → p.Distinct) →
        (∀ n, n ∈ (w.routedOf c).toList ↔ ∃ h ∈ w.trackedOf c, h.node = n) ∧
        ((ofMoves config router moves).world.baselineOf c = none →
          (ofMoves config router moves).world.Rebuilt c v changes w) ∧
        ∀ p, (ofMoves config router moves).world.baselineOf c = some p →
          (ofMoves config router moves).world.Amended c p v changes w) := by
  have hw : (ofMoves config router moves).world.Outset c := outset_ofMoves hr hm hj hrest
  have hresult : ((ofMoves config router moves).world.update c).1 = .ok changes := by rw [hu]
  obtain ⟨v, ho, rfl, hs, hview⟩ := World.update_eq_ok hw.ready hw.tidy hresult
  rw [hu] at hs hview
  refine ⟨v, ho, hview, fun hv hp => ?_⟩
  have htidy : (w.ledger c).Tidy := by
    rw [hs.ledger]
    exact hw.tidy_cleared.enlistAll _
  cases hb : (ofMoves config router moves).world.baselineOf c with
  | none =>
      obtain ⟨hrebuilt, hsettled⟩ := hw.rebuilt hv hb hs
      exact ⟨fun n => hsettled.mem_routed_iff htidy, fun _ => hrebuilt,
        fun p hnone => (Option.some_ne_none p hnone.symm).elim⟩
  | some p =>
      obtain ⟨hamended, hsettled⟩ :=
        hw.amended hv (hp p (World.viewOf_of_baselineOf hb)) hb hs
      refine ⟨fun n => hsettled.mem_routed_iff htidy,
        fun hnone => (Option.some_ne_none p hnone).elim, fun p' hp' => ?_⟩
      obtain rfl := Option.some.inj hp'
      exact hamended

/-- Three nodes of `asia`. -/
def trioView : View :=
  .ofList "asia" [⟨"a", ⟨"host", 1⟩⟩, ⟨"b", ⟨"host", 2⟩⟩, ⟨"d", ⟨"host", 4⟩⟩]

/-- Only one of them is left, and another one has joined. -/
def successorView : View := .ofList "asia" [⟨"b", ⟨"host", 2⟩⟩, ⟨"c", ⟨"host", 3⟩⟩]

/-- Three nodes are routed when the other view is published. -/
def succession : List Move :=
  [.publish trioView, .start] ++ pairRound ++ [.publish successorView]

/-- The first node cannot answer any more, another one leaves, and one joins. -/
theorem update_exact_succession : ∃ ms w,
    (ofMoves pairConfig pairRouter succession).world.update "asia" =
        (.ok ⟨[⟨"a", ⟨"host", 1⟩⟩, ⟨"d", ⟨"host", 4⟩⟩], [⟨"c", ⟨"host", 3⟩⟩]⟩, ms, w) ∧
      (ofMoves pairConfig pairRouter succession).world.Amended "asia" trioView successorView
        ⟨[⟨"a", ⟨"host", 1⟩⟩, ⟨"d", ⟨"host", 4⟩⟩], [⟨"c", ⟨"host", 3⟩⟩]⟩ w ∧
      (ofMoves pairConfig pairRouter succession).world.failedNames "asia" = ["a"] := by
  have hu : ∃ ms w, (ofMoves pairConfig pairRouter succession).world.update "asia" =
      (.ok ⟨[⟨"a", ⟨"host", 1⟩⟩, ⟨"d", ⟨"host", 4⟩⟩], [⟨"c", ⟨"host", 3⟩⟩]⟩, ms, w) :=
    ⟨_, _, Prod.ext (by decide +kernel) rfl⟩
  obtain ⟨ms, w, hu⟩ := hu
  obtain ⟨v, ho, -, hexact⟩ := update_exact free_pairRouter
    (by simp [succession, pairRound, Move.Spares]) (by decide +kernel) (by decide +kernel) hu
  have hobtained : (ofMoves pairConfig pairRouter succession).world.obtained "asia" =
      some successorView := by decide +kernel
  obtain rfl := Option.some.inj (ho.symm.trans hobtained)
  have hstored : (ofMoves pairConfig pairRouter succession).world.viewOf "asia" =
      some trioView := by decide +kernel
  have hdistinct : View.Distinct trioView := by rw [View.Distinct]; decide +kernel
  obtain ⟨-, -, hamended⟩ := hexact (by rw [View.Distinct]; decide +kernel) fun p hp =>
    Option.some.inj (hstored.symm.trans hp) ▸ hdistinct
  exact ⟨ms, w, hu, hamended trioView (by decide +kernel), by decide +kernel⟩

end Course

end Federation
