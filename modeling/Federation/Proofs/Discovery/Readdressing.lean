import Federation.Proofs.Discovery.Outage
import Federation.Proofs.Routing.Directory

/-!
Members at addresses that other live nodes still hold.

* `NodePlacement.hasRoom_iff`: there is room for a node exactly if a directory would not refuse it.
* `Ledger.admission`: how the joining of members ends, as the ledger and the nodes that are up tell.
  `World.update_admission`: so ends a round that obtains a view.
* `World.InTheWay`: a live node is routed at the address of a member that joins before the node is
  replaced.
* `Ledger.admission_cases`, `World.Outset.update_of_no_baseline`: without a limit nothing else stands
  in the way of a member that is up.
* `Course.update_readdresses_iff`: where nodes are placed by a strategy, a round that compares a view
  with nothing is refused a route exactly if some node is in the way.
-/

namespace Federation

/-! ### Refused routes -/

namespace NodePlacement

variable {limit? : Option ℕ} {nodes : NodeSet} {n : Node}

/-- There is room for a node exactly if a directory would not refuse it. -/
lemma hasRoom_iff (limit? : Option ℕ) (cluster : String) (nodes : NodeSet) (n : Node) :
    HasRoom limit? nodes n ↔ Directory.refusal? limit? cluster nodes n = none := by
  have hparts : HasRoom limit? nodes n ↔ nodes.contains n.name = false ∧
      (∀ max, limit? = some max → nodes.size < max) ∧
        (limit? = none → ∀ m ∈ nodes.toList, m.address ≠ n.address) :=
    ⟨fun h => ⟨h.new, h.space, h.site⟩, fun ⟨hnew, hspace, hsite⟩ => ⟨hnew, hspace, hsite⟩⟩
  rw [hparts]
  cases limit? with
  | none => simp [Directory.refusal?]
  | some max =>
      simp only [Directory.refusal?, Option.some_inj, forall_eq', reduceCtorEq, false_implies,
        and_true]
      by_cases hspace : max ≤ nodes.size
      · simp [hspace]
      · simp [hspace, Nat.lt_of_not_le hspace]

end NodePlacement

/-- A route is refused for the reasons that a directory has. -/
lemma World.Since.route_eq {w w₀ : World} {c : String} {l : Ledger} {h : Handle}
    (hs : Since w₀ c l w) (hc : h.cluster = c) (hsound : w₀.router.router.nodes.Sound) :
    (w.answer (.route h)).1 =
      (Directory.refusal? w₀.router.router.limit? c l.routed h.node).elim (.ok ()) .error := by
  obtain rfl := hs.ledger
  subst hc
  rw [← hs.steady.limit hsound]
  have hadd : ∀ x, w.router.router.nodes.add h.cluster h.node = .error x ↔ Directory.refusal?
      w.router.router.limit? h.cluster (w.router.router.nodes.nodesOf h.cluster) h.node = some x :=
    fun x => (hs.steady.sound hsound).add_eq_error_iff
  have hregistered : w.router.router.clusters.contains h.cluster = true := hs.isReady.registered
  change (w.route h).1 = (Directory.refusal? _ _ (w.router.router.nodes.nodesOf h.cluster) _).elim _ _
  obtain ⟨x, hx, hw⟩ | ⟨p, hp, hw⟩ := route_cases w h
  · rw [Router.addRoute_eq, if_pos hregistered] at hx
    rw [hw, (hadd x).mp (map_eq_error_iff.mp hx)]
    rfl
  · rw [hw]
    cases hrefusal : Directory.refusal? w.router.router.limit? h.cluster
        (w.router.router.nodes.nodesOf h.cluster) h.node with
    | none => rfl
    | some x => cases hp.symm.trans ((hadd x).mpr hrefusal)

/-! ### How members join -/

/-- How the joining of some members ends. -/
def Ledger.admission (limit? : Option ℕ) (up : Member → Bool) (l : Ledger) :
    List Member → Except Fault Unit
  | [] => .ok ()
  | m :: ms =>
    match Directory.refusal? limit? l.cluster (l.retire m.name).routed (.ofMember m) with
    | some x => .error x
    | none =>
      if up m then (l.enlist m).admission limit? up ms
      else .error (Network.unreachable (.ofMember m))

namespace Round

open World

variable {w w₀ : World} {c : String} {l : Ledger} {m : Member}

/-- A member whose route is refused does not join. -/
lemma alone_enlist_of_refused (hs : Since w₀ c l w) (ht : l.Tidy)
    (hsound : w₀.router.router.nodes.Sound) {x : Fault}
    (hx : Directory.refusal? w₀.router.router.limit? c (l.retire m.name).routed (.ofMember m) =
      some x) : ∃ w', (enlist c m).alone w = (.error x, w') := by
  obtain ⟨w₂, hs₂, hrun⟩ := alone_enlist_eq hs ht m
  have hroute := hs₂.route_eq (h := ⟨c, l.built, .ofMember m⟩) rfl hsound
  rw [hx, Option.elim_some] at hroute
  rw [hrun, enter, alone_query_bind, hroute]
  exact ⟨_, alone_bind_error (alone_require _ _)⟩

/-- Members join one after the other until one is refused or cannot be reached. -/
lemma alone_enlistAll_admission (hs : Since w₀ c l w) (ht : l.Tidy)
    (hsound : w₀.router.router.nodes.Sound) (ms : List Member) :
    ((ms.forM (enlist c)).alone w).1 =
      l.admission w₀.router.router.limit? w₀.network.up ms := by
  induction ms generalizing l w with
  | nil => rfl
  | cons m ms ih =>
      have hcons : (m :: ms).forM (enlist c) = enlist c m >>= fun _ => ms.forM (enlist c) := rfl
      rw [hcons, Ledger.admission, hs.cluster]
      cases hrefusal : Directory.refusal? w₀.router.router.limit? c (l.retire m.name).routed
          (.ofMember m) with
      | some x =>
          obtain ⟨w', hrun⟩ := alone_enlist_of_refused hs ht hsound hrefusal
          rw [alone_bind_error hrun]
      | none =>
          have hroomy : l.Roomy w₀.router.router.limit? [m] :=
            ⟨(NodePlacement.hasRoom_iff _ c _ _).mpr hrefusal, trivial⟩
          obtain ⟨r, w', hrun, hj⟩ := alone_enlist hs ht m
          obtain ⟨rfl, hs'⟩ := hj.of_roomy hsound hroomy
          rw [attempted_singleton] at hs'
          by_cases hup : w₀.network.up m = true
          · have hm : w₀.network.contactAll [m] = .ok () := if_pos hup
            rw [hm] at hrun
            rw [alone_bind_ok hrun, if_pos hup]
            exact ih hs' (ht.enlist m)
          · have hm : w₀.network.contactAll [m] = .error (Network.unreachable (.ofMember m)) :=
              if_neg hup
            rw [hm] at hrun
            rw [alone_bind_error hrun, if_neg hup]

end Round

namespace World

variable {w : World} {c : String} {v : View}

/-- A round that obtains a view ends as the joining of the members does. -/
theorem update_admission (hw : w.Ready c) (ht : (w.ledger c).Tidy)
    (hsound : w.router.router.nodes.Sound) (ho : w.obtained c = some v) :
    (w.update c).1 = ((w.cleared c v).admission w.router.router.limit? w.network.up
      (w.changesTo c v).joining).map fun _ => w.changesTo c v := by
  obtain ⟨w₁, r, w₂, hs, hr, hresult, -⟩ := update_joining hw ht ho
  have hadmission := Round.alone_enlistAll_admission hs ((ht.retireAll _).pruned _ _) hsound
    (w.changesTo c v).joining
  rw [hr] at hadmission
  rw [hresult, ← hadmission]

end World

/-! ### Nodes in the way -/

/-- The members of a view come in the order of their names, if these differ. -/
lemma View.Distinct.pairwise_name_lt {v : View} (hv : v.Distinct) :
    v.members.toList.Pairwise fun a b => a.name < b.name := by
  have hne : v.members.toList.Pairwise fun a b => a.name ≠ b.name := List.pairwise_map.mp hv
  refine (v.members.ascending.and hne).imp fun {a b} ⟨hlt, hne⟩ => ?_
  have hlt : (compare a.name b.name).then (compare a.address b.address) = .lt := hlt
  rw [Ordering.then_eq_lt] at hlt
  rcases hlt with hlt | ⟨heq, -⟩
  · exact compareOfLessAndEq_eq_lt.mp hlt
  · exact absurd (Std.LawfulEqCmp.compare_eq_iff_eq.mp heq) hne

namespace Ledger

variable {l : Ledger} {m m' : Member} {ms : List Member} {n : Node}

/-- A routed node is at the address of a member, and its name is later than that of the member. -/
structure Blocks (l : Ledger) (m : Member) (n : Node) : Prop where
  routed : n ∈ l.routed.toList
  later : m.name < n.name
  address : n.address = m.address

/-- Every routed node gives way to some of the members, or it is at another address than all of
them. -/
def Yields (l : Ledger) (ms : List Member) : Prop :=
  ∀ n ∈ l.routed.toList, n.name ∈ ms.map Member.name ∨ n.address ∉ ms.map Member.address

lemma Yields.enlist (hl : l.Yields (m :: ms)) (hsite : m.address ∉ ms.map Member.address) :
    (l.enlist m).Yields ms := by
  intro n hn
  rcases mem_routed_enlist.mp hn with rfl | ⟨hn, hname⟩
  · exact Or.inr hsite
  · refine (hl n hn).imp (fun h => ?_) fun h h' => h (List.mem_cons_of_mem _ h')
    exact (List.mem_cons.mp h).resolve_left hname

/-- A later member meets the same nodes before and after another one has joined. -/
lemma blocks_enlist_iff (h : m.name < m'.name) : (l.enlist m).Blocks m' n ↔ l.Blocks m' n := by
  have hroute : m'.name < n.name → (n ∈ (l.enlist m).routed.toList ↔ n ∈ l.routed.toList) := by
    intro hlater
    have hbefore := String.lt_trans h hlater
    rw [mem_routed_enlist]
    constructor
    · rintro (rfl | ⟨hn, -⟩)
      · exact absurd hbefore (String.lt_irrefl _)
      · exact hn
    · exact fun hn => Or.inr ⟨hn, (String.ne_of_lt hbefore).symm⟩
  exact ⟨fun ⟨hn, hlater, he⟩ => ⟨(hroute hlater).mp hn, hlater, he⟩,
    fun ⟨hn, hlater, he⟩ => ⟨(hroute hlater).mpr hn, hlater, he⟩⟩

/-- The first one of the members is refused a route if some node blocks it. -/
lemma refusal_of_blocks (h : l.Blocks m n) :
    Directory.refusal? none l.cluster (l.retire m.name).routed (.ofMember m) =
      some (.duplicateNode l.cluster m.name) := by
  have htaken : ∃ x ∈ (l.retire m.name).routed.toList, x.address = m.address :=
    ⟨n, mem_routed_retire.mpr ⟨h.routed, (String.ne_of_lt h.later).symm⟩, h.address⟩
  exact if_pos (Or.inr htaken)

/-- Otherwise there is room for it. -/
lemma Yields.hasRoom (hl : l.Yields (m :: ms)) (hlater : ∀ m' ∈ ms, m.name < m'.name)
    (hfree : ∀ n, ¬l.Blocks m n) :
    NodePlacement.HasRoom none (l.retire m.name).routed (.ofMember m) := by
  refine ⟨?_, fun _ h => absurd h (Option.some_ne_none _).symm, fun _ n hn haddress => ?_⟩
  · exact Keyed.contains_eq_false_iff.mpr fun n hn => (mem_routed_retire.mp hn).2
  · obtain ⟨hn, hname⟩ := mem_routed_retire.mp hn
    rcases hl n hn with hlisted | hother
    · obtain ⟨m', hm', he⟩ := List.mem_map.mp hlisted
      rcases List.mem_cons.mp hm' with rfl | hm'
      · exact hname he.symm
      · exact hfree n ⟨hn, he ▸ hlater m' hm', haddress⟩
    · exact hother (haddress ▸ List.mem_cons_self)

/-- Members in the order of their names join unless one of them cannot be reached or is blocked. -/
lemma admission_cases (up : Member → Bool) (hnames : ms.Pairwise fun a b => a.name < b.name)
    (haddresses : (ms.map Member.address).Nodup) (hl : l.Yields ms) :
    (l.admission none up ms = .ok () ∧ ∀ m ∈ ms, ∀ n, ¬l.Blocks m n) ∨
    (∃ m ∈ ms, l.admission none up ms = .error (Network.unreachable (.ofMember m))) ∨
    ∃ m ∈ ms, ∃ n, l.Blocks m n ∧
      l.admission none up ms = .error (.duplicateNode l.cluster m.name) := by
  induction ms generalizing l with
  | nil => exact Or.inl ⟨rfl, fun m hm => absurd hm List.not_mem_nil⟩
  | cons m ms ih =>
      obtain ⟨hm, hms⟩ := List.pairwise_cons.mp hnames
      obtain ⟨hsite, hsites⟩ := List.nodup_cons.mp haddresses
      by_cases hblocked : ∃ n, l.Blocks m n
      · obtain ⟨n, hn⟩ := hblocked
        refine Or.inr (Or.inr ⟨m, List.mem_cons_self, n, hn, ?_⟩)
        rw [admission, refusal_of_blocks hn]
      · have hfree := not_exists.mp hblocked
        have hroom := hl.hasRoom hm hfree
        rw [admission, (NodePlacement.hasRoom_iff none l.cluster _ _).mp hroom]
        by_cases hup : up m = true
        · simp only [if_pos hup]
          rcases ih hms hsites (hl.enlist hsite) with ⟨hok, hothers⟩ | ⟨m', hm', hx⟩ |
            ⟨m', hm', n, hn, hx⟩
          · refine Or.inl ⟨hok, fun m' hm' n hn => ?_⟩
            rcases List.mem_cons.mp hm' with rfl | hm'
            · exact hfree n hn
            · exact hothers m' hm' n ((blocks_enlist_iff (hm m' hm')).mpr hn)
          · exact Or.inr (Or.inl ⟨m', List.mem_cons_of_mem m hm', hx⟩)
          · exact Or.inr (Or.inr ⟨m', List.mem_cons_of_mem m hm', n,
              (blocks_enlist_iff (hm m' hm')).mp hn, hx⟩)
        · simp only [if_neg hup]
          exact Or.inr (Or.inl ⟨m, List.mem_cons_self, rfl⟩)

/-- Where there is no baseline, the routed nodes stay whose names the view lists. -/
lemma Tidy.mem_routed_pruned_none {v : View} (ht : l.Tidy) :
    n ∈ (l.pruned none v).routed.toList ↔ n ∈ l.routed.toList ∧ v.lists n.name = true := by
  rw [pruned_none, mem_routed_retireAll]
  refine and_congr_right fun hn => ?_
  obtain ⟨h, hh, rfl⟩ := ht.within n hn
  constructor
  · intro hkept
    by_contra hlists
    refine hkept (List.mem_map.mpr ⟨h, List.mem_filter.mpr ⟨hh, ?_⟩, rfl⟩)
    rw [Bool.eq_false_of_not_eq_true hlists]
    rfl
  · intro hlists hgone
    obtain ⟨h', hh', hname⟩ := List.mem_map.mp hgone
    have hunlisted := (List.mem_filter.mp hh').2
    rw [hname, hlists] at hunlisted
    exact Bool.false_ne_true hunlisted

end Ledger

namespace World

variable {w : World} {c : String} {v : View} {m : Member} {n : Node}

/-- A node is in the way of a member of a view: it is routed at the address of the member, it was
not asked in vain, and the view lists its name after that of the member. -/
structure InTheWay (w : World) (c : String) (v : View) (m : Member) (n : Node) : Prop where
  routed : n ∈ (w.routedOf c).toList
  answered : n.name ∉ w.failedNames c
  listed : v.lists n.name = true
  later : m.name < n.name
  address : n.address = m.address

/-- The nodes in the way are those that are still routed when the members join. -/
lemma blocks_cleared_iff (ht : (w.ledger c).Tidy) (hbaseline : w.baselineOf c = none) :
    (w.cleared c v).Blocks m n ↔ w.InTheWay c v m n := by
  have htidy : (w.remaining c).Tidy := ht.retireAll _
  have hrouted : n ∈ (w.cleared c v).routed.toList ↔
      (n ∈ (w.routedOf c).toList ∧ n.name ∉ w.failedNames c) ∧ v.lists n.name = true := by
    rw [cleared, hbaseline, htidy.mem_routed_pruned_none, remaining, Ledger.mem_routed_retireAll]
    rfl
  constructor
  · rintro ⟨hn, hlater, haddress⟩
    obtain ⟨⟨hn, hanswered⟩, hlisted⟩ := hrouted.mp hn
    exact ⟨hn, hanswered, hlisted, hlater, haddress⟩
  · rintro ⟨hn, hanswered, hlisted, hlater, haddress⟩
    exact ⟨hrouted.mpr ⟨⟨hn, hanswered⟩, hlisted⟩, hlater, haddress⟩

/-- Beside the nodes that stay for a view after an earlier one there are no others than its own. -/
lemma Outset.mem_nodes_of_mem_cleared (hw : w.Outset c) {p : View}
    (hbaseline : w.baselineOf c = some p) (hn : n ∈ (w.cleared c v).routed.toList) :
    n ∈ v.nodes := by
  obtain ⟨h, hh, rfl⟩ := hw.tidy_cleared.within n hn
  rw [cleared, hbaseline, Ledger.pruned_some, Ledger.tracked_retireAll, List.mem_filter,
    decide_eq_true_iff, remaining, Ledger.tracked_retireAll, List.mem_filter] at hh
  obtain ⟨⟨hh, -⟩, hstays⟩ := hh
  have hearlier := View.mem_nodes.mp ((hw.listed p (viewOf_of_baselineOf hbaseline)).2 h hh)
  by_contra hgone
  refine hstays (List.mem_map.mpr ⟨h.node.toMember, ValueSet.mem_difference.mpr ⟨hearlier, ?_⟩, rfl⟩)
  exact fun hv => hgone (View.mem_nodes.mpr hv)

/-- After an earlier view nobody is refused a route. -/
lemma Outset.update_of_baseline (hw : w.Outset c) (hsound : w.router.router.nodes.Sound)
    (hlimit : w.router.router.limit? = none) (ho : w.obtained c = some v) (hnames : v.Distinct)
    (haddresses : (v.members.toList.map Member.address).Nodup) (hconnects : w.Connects c) {p : View}
    (hbaseline : w.baselineOf c = some p) : (w.update c).1 = .ok (w.changesTo c v) := by
  have hroomy : (w.cleared c v).Roomy w.router.router.limit? (w.changesTo c v).joining :=
    Ledger.roomy_of_members hnames haddresses
      (fun max hmax => absurd (hlimit.symm.trans hmax) (Option.some_ne_none max).symm)
      (fun n hn => hw.mem_nodes_of_mem_cleared hbaseline hn) fun m hm => mem_of_mem_joining hm
  rcases update_eq_ok_or hw hsound ho hroomy with hok | ⟨m, -, -, herror⟩
  · exact hok
  · exact absurd herror (update_ne_communication hconnects _ _)

/-- Where a view is compared with nothing, only a node in the way of a member keeps it from being
routed. -/
lemma Outset.update_of_no_baseline (hw : w.Outset c) (hsound : w.router.router.nodes.Sound)
    (hlimit : w.router.router.limit? = none) (ho : w.obtained c = some v) (hnames : v.Distinct)
    (haddresses : (v.members.toList.map Member.address).Nodup) (hconnects : w.Connects c)
    (hbaseline : w.baselineOf c = none) :
    ((w.update c).1 = .ok (w.changesTo c v) ∧
      ∀ m ∈ v.members.toList, ∀ n, ¬w.InTheWay c v m n) ∨
    ∃ m ∈ v.members.toList, ∃ n, w.InTheWay c v m n ∧
      (w.update c).1 = .error (.duplicateNode c m.name) := by
  obtain ⟨_, _, _, hsince, -⟩ := update_joining hw.ready hw.tidy ho
  have hjoining : (w.changesTo c v).joining = v.members.toList := by
    rw [changesTo, hbaseline]
    rfl
  have hyields : (w.cleared c v).Yields v.members.toList := by
    intro n hn
    obtain ⟨h, hh, rfl⟩ := hw.tidy_cleared.within n hn
    obtain ⟨m, hm, hname⟩ := View.lists_iff.mp (hw.lists_of_mem_cleared hh)
    exact Or.inl (List.mem_map.mpr ⟨m, hm, hname⟩)
  have hresult := update_admission hw.ready hw.tidy hsound ho
  rw [hlimit, hjoining] at hresult
  rcases Ledger.admission_cases w.network.up hnames.pairwise_name_lt haddresses hyields with
    ⟨hok, hfree⟩ | ⟨m, -, hx⟩ | ⟨m, hm, n, hn, hx⟩
  · rw [hok] at hresult
    exact Or.inl ⟨hresult, fun m hm n hn => hfree m hm n
      ((blocks_cleared_iff hw.tidy hbaseline).mpr hn)⟩
  · rw [hx] at hresult
    exact absurd hresult (update_ne_communication hconnects _ _)
  · rw [hx, hsince.cluster] at hresult
    exact Or.inr ⟨m, hm, n, (blocks_cleared_iff hw.tidy hbaseline).mp hn, hresult⟩

end World

namespace Course

variable {config : Config} {router : Router} {c : String} {moves : List Move} {v : View}

/-- Where nodes are placed by a strategy and every connection succeeds, a round that obtains a view
whose names and addresses differ is successful, unless it compares the view with nothing and some
node is in the way of a member. It is then refused the route of such a member. -/
theorem update_readdresses_iff {p : CustomNodes} (hp : router.nodes = .custom p) (hs : p.Sound)
    (hr : router.Free c) (hm : ∀ m ∈ moves, m.Spares c)
    (hj : (ofMoves config router moves).world.enrolments.contains c = true)
    (hrest : (ofMoves config router moves).resting c = true)
    (ho : (ofMoves config router moves).world.obtained c = some v) (hnames : v.Distinct)
    (haddresses : (v.members.toList.map Member.address).Nodup)
    (hconnects : (ofMoves config router moves).world.Connects c) :
    (((ofMoves config router moves).world.update c).1 =
        .ok ((ofMoves config router moves).world.changesTo c v) ↔
      ((ofMoves config router moves).world.baselineOf c = none →
        ∀ m ∈ v.members.toList, ∀ n, ¬(ofMoves config router moves).world.InTheWay c v m n)) ∧
    ∀ x, ((ofMoves config router moves).world.update c).1 = .error x →
      ∃ m ∈ v.members.toList, ∃ n, (ofMoves config router moves).world.InTheWay c v m n ∧
        x = .duplicateNode c m.name := by
  have hw : (ofMoves config router moves).world.Outset c := outset_ofMoves hr hm hj hrest
  have hrouter : router.nodes.Sound := by
    rw [hp]
    exact hs
  obtain ⟨hsound, hlimit⟩ := sound_ofMoves config hrouter moves
  have hnone : router.limit? = none := by
    rw [Router.limit?, hp]
    rfl
  have hlimit := hlimit.trans hnone
  cases hbaseline : (ofMoves config router moves).world.baselineOf c with
  | some p =>
      have hok := hw.update_of_baseline hsound hlimit ho hnames haddresses hconnects hbaseline
      refine ⟨iff_of_true hok fun h => absurd h (Option.some_ne_none p), fun x hx => ?_⟩
      cases hok.symm.trans hx
  | none =>
      rcases hw.update_of_no_baseline hsound hlimit ho hnames haddresses hconnects hbaseline with
        ⟨hok, hfree⟩ | ⟨m, hm, n, hn, herror⟩
      · refine ⟨iff_of_true hok fun _ => hfree, fun x hx => ?_⟩
        cases hok.symm.trans hx
      · refine ⟨iff_of_false (fun hok => ?_) fun h => h rfl m hm n hn, fun x hx => ?_⟩
        · cases herror.symm.trans hok
        · exact ⟨m, hm, n, hn, Except.error.inj (hx.symm.trans herror)⟩

/-- Nodes are placed by a strategy that knows none. -/
def strategyRouter : Router :=
  .ofPlacements (.custom (.ofStrategy fun _ _ => none)) (.ofHash (.ofCode String.length))

/-- The first node has moved, and the second one has taken over its address. -/
def shiftedView : View := .ofList "asia" [⟨"a", ⟨"host", 3⟩⟩, ⟨"b", ⟨"host", 1⟩⟩]

/-- Both nodes have exchanged their addresses. -/
def exchangedView : View := .ofList "asia" [⟨"a", ⟨"host", 2⟩⟩, ⟨"b", ⟨"host", 1⟩⟩]

/-- The second node is routed although it cannot be connected, so that the round fails. By the next
round it can be reached, and the cluster answers with another view. -/
def setback (next : View) : List Move :=
  [.publish pairView, .takeDown ⟨"host", 2⟩, .start] ++ pairRound ++
    [.bringUp ⟨"host", 2⟩, .publish next]

lemma free_strategyRouter : strategyRouter.Free "asia" := ⟨rfl, fun k hk => by cases hk⟩

lemma spares_setback (next : View) : ∀ m ∈ setback next, m.Spares "asia" := by
  simp [setback, pairRound, Move.Spares]

/-- An address may be taken over from a node that is replaced before. -/
theorem update_readdresses_iff_setback :
    ((ofMoves pairConfig strategyRouter (setback shiftedView)).world.update "asia").1 =
      .ok ⟨[], [⟨"a", ⟨"host", 3⟩⟩, ⟨"b", ⟨"host", 1⟩⟩]⟩ := by
  have hchanges : (ofMoves pairConfig strategyRouter (setback shiftedView)).world.changesTo "asia"
      shiftedView = ⟨[], [⟨"a", ⟨"host", 3⟩⟩, ⟨"b", ⟨"host", 1⟩⟩]⟩ := by decide +kernel
  have hrouted : ((ofMoves pairConfig strategyRouter (setback shiftedView)).world.routedOf
      "asia").toList = pairView.nodes := by decide +kernel
  have hfree : ∀ m ∈ shiftedView.members.toList, ∀ n ∈ pairView.nodes, m.name < n.name →
      n.address ≠ m.address := by decide +kernel
  have hiff := (@update_readdresses_iff pairConfig strategyRouter "asia" (setback shiftedView)
    shiftedView _ rfl
    (CustomNodes.sound_ofStrategy _) free_strategyRouter (spares_setback shiftedView)
    (by decide +kernel) (by decide +kernel) (by decide +kernel)
    (show List.Nodup _ by decide +kernel) (by decide +kernel) (by decide +kernel)).1
  rw [← hchanges]
  exact hiff.mpr fun _ m hm n hn => hfree m hm n (hrouted ▸ hn.routed) hn.later hn.address

/-- Nodes that exchange their addresses after a failed round are refused their routes. -/
theorem not_always_readdressed : ¬∀ (config : Config) (p : CustomNodes)
    (placement : ClusterPlacement) (c : String) (moves : List Move) (v : View), p.Sound →
    (Router.ofPlacements (.custom p) placement).Free c → (∀ m ∈ moves, m.Spares c) →
    (ofMoves config (.ofPlacements (.custom p) placement) moves).world.enrolments.contains c = true →
    (ofMoves config (.ofPlacements (.custom p) placement) moves).resting c = true →
    (ofMoves config (.ofPlacements (.custom p) placement) moves).world.obtained c = some v →
    v.Distinct → (v.members.toList.map Member.address).Nodup →
    (ofMoves config (.ofPlacements (.custom p) placement) moves).world.Connects c →
    ∃ changes, ((ofMoves config (.ofPlacements (.custom p) placement) moves).world.update c).1 =
      .ok changes := by
  intro hall
  obtain ⟨changes, hok⟩ := hall pairConfig _ _ "asia" (setback exchangedView) exchangedView
    (CustomNodes.sound_ofStrategy fun _ _ => none) free_strategyRouter
    (spares_setback exchangedView) (by decide +kernel) (by decide +kernel) (by decide +kernel)
    (show List.Nodup _ by decide +kernel) (by decide +kernel) (by decide +kernel)
  have herror : ((ofMoves pairConfig strategyRouter (setback exchangedView)).world.update "asia").1 =
      .error (.duplicateNode "asia" "a") := by decide +kernel
  cases herror.symm.trans hok

end Course

end Federation
