import Federation.Proofs.Discovery.Admission
import Federation.Proofs.Discovery.ExactEffect

/-!
Rounds while some members are down.

* `World.Seeded`: the node at the seed of a cluster can be reached and answers with the view, which
  is small enough to be routed as a whole.
* `World.Stage`: the live nodes are those of some members, and all of them are routed.
* `World.Stage.remake`, `World.Stage.keep`, `World.Stage.fall`: a round that compares the view with
  nothing routes the members up to the first one that is down. From then on rounds keep these, unless
  the very first member is down: in that case the next round drops it and has no node left.
* `Course.routed_iff_before_outage`: no member behind one that is down is ever routed.
-/

namespace Federation

/-! ### Members up to the first one that is down -/

section Attempted

variable {up : Member → Bool} {m : Member} {ms : List Member}

lemma attempted_sublist (up : Member → Bool) (ms : List Member) :
    (attempted up ms).Sublist ms := by
  induction ms with
  | nil => exact List.Sublist.refl _
  | cons m ms ih =>
      rw [attempted]
      split
      next => exact ih.cons_cons m
      next => exact (List.nil_sublist ms).cons_cons m

/-- All members that are up are among those exactly if none of them is behind one that is down. -/
lemma forall_mem_attempted_iff (hn : ms.Nodup) :
    (∀ m ∈ ms, up m = true → m ∈ attempted up ms) ↔
      ms.Pairwise fun a b => up b = true → up a = true := by
  induction ms with
  | nil => simp
  | cons m ms ih =>
      obtain ⟨hm, hms⟩ := List.nodup_cons.mp hn
      rw [List.pairwise_cons, ← ih hms, attempted]
      split
      next hup =>
        constructor
        · refine fun h => ⟨fun _ _ _ => hup, fun x hx hxup => ?_⟩
          rcases List.mem_cons.mp (h x (List.mem_cons_of_mem m hx) hxup) with rfl | hmem
          · exact absurd hx hm
          · exact hmem
        · rintro ⟨-, h⟩ x hx hxup
          rcases List.mem_cons.mp hx with rfl | hx
          · exact List.mem_cons_self
          · exact List.mem_cons_of_mem m (h x hx hxup)
      next hdown =>
        constructor
        · intro h
          have hnone : ∀ x ∈ ms, up x = true → False := by
            intro x hx hxup
            obtain rfl := List.mem_singleton.mp (h x (List.mem_cons_of_mem m hx) hxup)
            exact hm hx
          exact ⟨fun x hx hxup => (hnone x hx hxup).elim, fun x hx hxup => (hnone x hx hxup).elim⟩
        · rintro ⟨h, -⟩ x hx hxup
          rcases List.mem_cons.mp hx with rfl | hx
          · exact absurd hxup hdown
          · exact absurd (h x hx hxup) hdown

end Attempted

namespace Ledger

variable {l : Ledger} {v : View} {limit? : Option ℕ}

/-- Beside members of a view whose names and addresses differ there is room for all others. -/
lemma roomy_of_members {ms : List Member} (hnames : v.Distinct)
    (haddresses : (v.members.toList.map Member.address).Nodup)
    (hsmall : ∀ max, limit? = some max → v.members.size ≤ max)
    (hl : ∀ n ∈ l.routed.toList, n ∈ v.nodes) (hms : ∀ m ∈ ms, m ∈ v.members.toList) :
    l.Roomy limit? ms := by
  refine roomy_of (P := fun n => n ∈ v.nodes) hl (fun m hm => View.mem_nodes.mpr (hms m hm))
    fun m hm s hs => ⟨?_, fun max hmax => ?_, fun _ n hn he => ?_⟩
  · exact Keyed.contains_eq_false_iff.mpr fun n hn => (hs n hn).2
  · have hlists : ∀ n ∈ s.toList, v.lists n.name = true ∧ n.name ≠ m.name := fun n hn =>
      ⟨View.lists_iff.mpr ⟨_, View.mem_nodes.mp (hs n hn).1, rfl⟩, (hs n hn).2⟩
    have hcount : v.names.length = v.members.size := by
      rw [View.names, List.dedup_eq_self.mpr hnames, List.length_map]
      rfl
    exact (View.size_lt_of_missing (hms m hm) hlists).trans_le (hcount.trans_le (hsmall max hmax))
  · obtain ⟨hmem, hname⟩ := hs n hn
    have hmember : n.toMember = m :=
      List.inj_on_of_nodup_map haddresses (View.mem_nodes.mp hmem) (hms m hm) he
    exact hname (congrArg Member.name hmember)

end Ledger

namespace World

variable {w w' : World} {c : String} {v : View} {ms : List Member} {h : Handle} {m : Member}

/-! ### The situation -/

/-- The node at the seed of a cluster can be reached and answers with the view. There is room for
the whole of it. -/
structure Seeded (c : String) (v : View) (w : World) : Prop where
  ready : w.Ready c
  sound : w.router.router.nodes.Sound
  seed : ∃ h, (w.enrolments.find? c).map Enrolment.bootstrap = some h ∧
    w.network.viewAt? h.node.address = some v ∧ w.network.reaches h.node.address = true
  cluster : v.cluster = c
  names : v.Distinct
  addresses : (v.members.toList.map Member.address).Nodup
  small : ∀ max, w.router.router.limit? = some max → v.members.size ≤ max

lemma Seeded.of_steady (hw : w.Seeded c v) (hs : Steady w w') : w'.Seeded c v := by
  obtain ⟨journal, hnet⟩ := hs.network
  obtain ⟨h, hh, hanswer⟩ := hw.seed
  refine ⟨hw.ready.of_steady hs, hs.sound hw.sound, ⟨h, (hs.bootstrap c).trans hh, ?_⟩, hw.cluster,
    hw.names, hw.addresses, fun max hmax => hw.small max ((hs.limit hw.sound).symm.trans hmax)⟩
  rw [hnet]
  exact hanswer

lemma Seeded.mem_views (hw : w.Seeded c v) : v ∈ w.network.views.toList := by
  obtain ⟨h, -, hanswer, -⟩ := hw.seed
  exact List.mem_of_find?_eq_some hanswer

/-- The node at the seed is a member. -/
lemma Seeded.ne_nil (hw : w.Seeded c v) : v.members.toList ≠ [] := by
  obtain ⟨h, -, hanswer, -⟩ := hw.seed
  have hserves : v.serves h.node.address = true :=
    List.find?_some (p := fun u : View => u.serves h.node.address) hanswer
  obtain ⟨m, hm, -⟩ := List.any_eq_true.mp hserves
  exact List.ne_nil_of_mem hm

/-- Some node answers for a member, though its view may be that of another cluster. -/
lemma Seeded.viewAt? (hw : w.Seeded c v) (hm : m ∈ v.members.toList) :
    ∃ u ∈ w.network.views.toList, w.network.viewAt? m.address = some u := by
  cases hu : w.network.viewAt? m.address with
  | some u => exact ⟨u, List.mem_of_find?_eq_some hu, rfl⟩
  | none =>
      have hserves : v.serves m.address = true :=
        List.any_eq_true.mpr ⟨m, hm, decide_eq_true rfl⟩
      exact absurd hserves (List.find?_eq_none.mp hu v hw.mem_views)

/-- A member cannot be reached exactly if it is down. -/
lemma Seeded.fails_eq (hw : w.Seeded c v) (hm : m ∈ v.members.toList) (hh : h.node = .ofMember m) :
    w.network.fails h = !w.network.up m := by
  obtain ⟨u, -, hu⟩ := hw.viewAt? hm
  have haddress : h.node.address = m.address := by rw [hh]; rfl
  rw [Network.fails, Network.membership, haddress, hu, Network.up]
  cases w.network.reaches m.address <;> rfl

/-- A member answers with the view or not at all for its cluster. -/
lemma Seeded.viewFrom? (hw : w.Seeded c v) (hm : m ∈ v.members.toList) (hh : h.node = .ofMember m) :
    w.network.viewFrom? c h = none ∨ w.network.viewFrom? c h = some v := by
  obtain ⟨u, hviews, hu⟩ := hw.viewAt? hm
  have haddress : h.node.address = m.address := by rw [hh]; rfl
  rw [Network.viewFrom?, Network.membership, haddress, hu]
  cases w.network.reaches m.address with
  | false => exact Or.inl rfl
  | true =>
      by_cases hc : u.cluster = c
      · -- a cluster has only one view
        obtain rfl := Keyed.eq_of_key_eq hviews hw.mem_views (hc.trans hw.cluster.symm)
        exact Or.inr (Option.filter_eq_some_iff.mpr ⟨rfl, decide_eq_true hc⟩)
      · exact Or.inl (by simp [Except.toOption, Option.filter, hc])

/-! ### Stages -/

/-- The live nodes are those of some members, and all of them are routed. A view is stored only if
all of its members are up and routed. -/
structure Stage (c : String) (v : View) (ms : List Member) (w : World) : Prop where
  tidy : (w.ledger c).Tidy
  settled : (w.ledger c).Settled
  roster : w.rosterOf c = ms.map Node.ofMember
  view : ∀ p, w.viewOf c = some p → p = v ∧ ms = v.members.toList

lemma Stage.mem_routed_iff (hst : w.Stage c v ms) {n : Node} :
    n ∈ (w.routedOf c).toList ↔ n.toMember ∈ ms := by
  have hlive : n ∈ (w.routedOf c).toList ↔ n ∈ w.rosterOf c :=
    (hst.settled.mem_routed_iff hst.tidy).trans List.mem_map.symm
  rw [hlive, hst.roster, List.mem_map]
  exact ⟨fun ⟨m, hm, he⟩ => he ▸ hm, fun hm => ⟨_, hm, n.ofMember_toMember⟩⟩

/-- The nodes at a stage are members. -/
lemma Stage.exists_member (hst : w.Stage c v ms) (hh : h ∈ w.trackedOf c) :
    ∃ m ∈ ms, h.node = .ofMember m := by
  have hnode : h.node ∈ ms.map Node.ofMember := hst.roster ▸ List.mem_map_of_mem hh
  obtain ⟨m, hm, he⟩ := List.mem_map.mp hnode
  exact ⟨m, hm, he.symm⟩

/-- A stage lasts as long as the ledger does. -/
lemma Stage.of_ledger_eq (hst : w.Stage c v ms) (hledger : w'.ledger c = w.ledger c)
    (hview : ∀ p, w'.viewOf c = some p → p = v ∧ ms = v.members.toList) : w'.Stage c v ms := by
  obtain ⟨htidy, hsettled, hroster, -⟩ := hst
  have htracked : w'.trackedOf c = w.trackedOf c := congrArg Ledger.tracked hledger
  rw [← hledger] at htidy hsettled
  rw [rosterOf, ← htracked] at hroster
  exact ⟨htidy, hsettled, hroster, hview⟩

/-- All live nodes are members, so that nobody leaves if nobody is asked in vain. -/
lemma Stage.cleared_eq (hst : w.Stage c v ms) (hms : ms ⊆ v.members.toList)
    (hfailed : w.failed c = []) (hbaseline : w.baselineOf c = none) :
    w.cleared c v = w.ledger c := by
  have hunlisted : (w.ledger c).unlisted v = [] := by
    refine List.map_eq_nil_iff.mpr (List.filter_eq_nil_iff.mpr fun h hh => ?_)
    obtain ⟨m, hm, he⟩ := hst.exists_member hh
    have hlists : v.lists h.node.name = true :=
      View.lists_iff.mpr ⟨m, hms hm, by rw [he, Node.name_ofMember]⟩
    simp [hlists]
  have hremaining : w.remaining c = w.ledger c := by
    rw [remaining, failedNames, hfailed]
    rfl
  rw [cleared, hremaining, hbaseline, Ledger.pruned_none, hunlisted]
  rfl

/-- The live nodes give way to members of their names. -/
lemma Stage.rosterOf_enlistAll (hst : w.Stage c v ms) {joining : List Member} (hms : ms ⊆ joining)
    (hnames : (joining.map Member.name).Nodup)
    (hledger : w'.ledger c = (w.ledger c).enlistAll joining) :
    w'.rosterOf c = joining.map Node.ofMember := by
  obtain ⟨htracked, -⟩ := Ledger.enlistAll_eq (l := w.ledger c) hnames
  have hgone : (w.ledger c).tracked.filter (fun h => h.node.name ∉ joining.map Member.name) = [] := by
    refine List.filter_eq_nil_iff.mpr fun h hh => ?_
    obtain ⟨m, hm, he⟩ := hst.exists_member hh
    simpa [he] using ⟨m, hms hm, rfl⟩
  have hafter : w'.trackedOf c = _ := (congrArg Ledger.tracked hledger).trans htracked
  rw [rosterOf, hafter, hgone, List.nil_append, Ledger.map_node_handles]

/-- A round that compares the view with nothing, and that asks nobody in vain, routes the members up
to the first one that is down. -/
lemma Stage.remake (hw : w.Seeded c v) (hst : w.Stage c v ms)
    (hms : ms ⊆ attempted w.network.up v.members.toList) (hfailed : w.failed c = [])
    (ho : w.obtained c = some v) (hnone : w.viewOf c = none) :
    (w.update c).2.2.Stage c v (attempted w.network.up v.members.toList) := by
  have hbaseline : w.baselineOf c = none := by
    rw [baselineOf, hnone, ite_self]
  have hattempted := attempted_sublist w.network.up v.members.toList
  have hmembers : ms ⊆ v.members.toList := List.Subset.trans hms hattempted.subset
  have hcleared := hst.cleared_eq hmembers hfailed hbaseline
  have hjoining : (w.changesTo c v).joining = v.members.toList := by
    rw [changesTo, hbaseline]
    rfl
  have hroomy : (w.cleared c v).Roomy w.router.router.limit? (w.changesTo c v).joining := by
    rw [hcleared, hjoining]
    refine Ledger.roomy_of_members hw.names hw.addresses hw.small (fun n hn => ?_) fun m hm => hm
    exact View.mem_nodes.mpr (hmembers (hst.mem_routed_iff.mp hn))
  obtain ⟨-, hs, hview⟩ := update_roomy hw.ready hst.tidy hw.sound ho hroomy
  rw [hcleared, hjoining] at hs
  rw [hjoining] at hview
  refine ⟨?_, ?_, ?_, fun p hp => ?_⟩
  · rw [hs.ledger]
    exact hst.tidy.enlistAll _
  · rw [hs.ledger]
    exact hst.settled.enlistAll _
  · exact hst.rosterOf_enlistAll hms ((hattempted.map Member.name).nodup hw.names) hs.ledger
  · rw [hp] at hview
    cases hcontact : w.network.contactAll v.members.toList with
    | error x =>
        rw [hcontact] at hview
        cases hview
    | ok _ =>
        rw [hcontact] at hview
        exact ⟨Option.some.inj hview, attempted_eq_self (Network.contactAll_eq_ok_iff.mp hcontact)⟩

/-- The first round goes through the seed. -/
lemma Stage.first (hw : w.Seeded c v) (hst : w.Stage c v []) :
    (w.update c).2.2.Stage c v (attempted w.network.up v.members.toList) := by
  have htracked : w.trackedOf c = [] := List.map_eq_nil_iff.mp hst.roster
  obtain ⟨h, hh, hanswer, hreached⟩ := hw.seed
  have ho : w.obtained c = some v := by
    have hasked : w.asked c = some h := by
      rw [asked, htracked]
      exact hh
    rw [obtained, hasked, Option.bind_some, Network.viewFrom?, Network.membership, hanswer,
      hreached]
    exact Option.filter_eq_some_iff.mpr ⟨rfl, decide_eq_true hw.cluster⟩
  refine hst.remake hw (List.nil_subset _) ?_ ho ?_
  · rw [failed, htracked]
    rfl
  · cases hview : w.viewOf c with
    | none => rfl
    | some p => exact absurd (hst.view p hview).2.symm hw.ne_nil

/-- Once a view is stored and every live node is routed, a round has nothing to do for it. -/
lemma Stage.idle (hw : w.Seeded c v) (hst : w.Stage c v ms) (hfailed : w.failed c = [])
    (ho : w.obtained c = some v) (hview : w.viewOf c = some v) :
    (w.update c).2.2.Stage c v ms := by
  have hbaseline : w.baselineOf c = some v := by
    have hall : (w.rosterOf c).all (fun n => (w.routedOf c).contains n.name) = true := by
      refine List.all_eq_true.mpr fun n hn => Keyed.contains_iff.mpr ⟨n, ?_, rfl⟩
      obtain ⟨h, hh, rfl⟩ := List.mem_map.mp hn
      exact hst.settled h hh
    rw [baselineOf, if_pos hall, hview]
  have hsame : v.members.difference v.members = [] :=
    List.eq_nil_iff_forall_not_mem.mpr fun m hm =>
      (ValueSet.mem_difference.mp hm).2 (ValueSet.mem_difference.mp hm).1
  have hjoining : (w.changesTo c v).joining = [] := by
    rw [changesTo, hbaseline]
    exact hsame
  have hcleared : w.cleared c v = w.ledger c := by
    rw [cleared, remaining, failedNames, hfailed, hbaseline, Ledger.pruned_some, hsame]
    rfl
  obtain ⟨-, hs, hafter⟩ := update_roomy hw.ready hst.tidy hw.sound ho (hjoining ▸ trivial)
  rw [hcleared, hjoining] at hs
  rw [hjoining] at hafter
  refine hst.of_ledger_eq hs.ledger fun p hp => ?_
  obtain rfl := Option.some.inj (hafter.symm.trans hp)
  exact hst.view _ hview

/-- A round that obtains no view and asks nobody in vain leaves everything as it is. -/
lemma Stage.unanswered (hw : w.Seeded c v) (hst : w.Stage c v ms) (hfailed : w.failed c = [])
    (ho : w.obtained c = none) : (w.update c).2.2.Stage c v ms := by
  obtain ⟨-, hs, hview⟩ := update_unanswered hw.ready hst.tidy ho
  refine hst.of_ledger_eq ?_ fun p hp => ?_
  · rw [hs.ledger, remaining, failedNames, hfailed]
    rfl
  · rw [hview] at hp
    cases hp

/-- As long as the first member is up, rounds keep what there is. -/
lemma Stage.keep (hw : w.Seeded c v) {m : Member} {rest : List Member}
    (hmembers : v.members.toList = m :: rest) (hup : w.network.up m = true)
    (hst : w.Stage c v (attempted w.network.up v.members.toList)) :
    (w.update c).2.2.Stage c v (attempted w.network.up v.members.toList) := by
  have hroster := hst.roster
  rw [hmembers, attempted, if_pos hup, List.map_cons] at hroster
  obtain ⟨h, handles, htracked, hnode, -⟩ := List.map_eq_cons_iff.mp hroster
  have hm : m ∈ v.members.toList := hmembers ▸ List.mem_cons_self
  have hreached : w.network.fails h = false := by
    rw [hw.fails_eq hm hnode, hup]
    rfl
  have hfailed : w.failed c = [] := by
    rw [failed, htracked, List.takeWhile_cons_of_neg (by simp [hreached])]
  have hobtained : w.obtained c = w.network.viewFrom? c h := by
    rw [obtained, asked, htracked, List.find?_cons_of_pos (by simp [hreached])]
    rfl
  rcases hw.viewFrom? hm hnode with hnone | hanswer
  · exact hst.unanswered hw hfailed (hobtained.trans hnone)
  · cases hview : w.viewOf c with
    | none => exact hst.remake hw (List.Subset.refl _) hfailed (hobtained.trans hanswer) hview
    | some p =>
        obtain rfl := (hst.view p hview).1
        exact hst.idle hw hfailed (hobtained.trans hanswer) hview

/-- If the first member is down, then it is the only live node, and the next round drops it. -/
lemma Stage.fall (hw : w.Seeded c v) {m : Member} {rest : List Member}
    (hmembers : v.members.toList = m :: rest) (hdown : w.network.up m = false)
    (hst : w.Stage c v (attempted w.network.up v.members.toList)) :
    (w.update c).2.2.Stage c v [] := by
  have hroster := hst.roster
  rw [hmembers, attempted, if_neg (by simp [hdown])] at hroster
  obtain ⟨h, handles, htracked, hnode, hrest⟩ := List.map_eq_cons_iff.mp hroster
  obtain rfl := List.map_eq_nil_iff.mp hrest
  have hm : m ∈ v.members.toList := hmembers ▸ List.mem_cons_self
  have hfails : w.network.fails h = true := by
    rw [hw.fails_eq hm hnode, hdown]
    rfl
  have ho : w.obtained c = none := by
    rw [obtained, asked, htracked, List.find?_cons_of_neg (by simp [hfails])]
    rfl
  obtain ⟨-, hs, hview⟩ := update_unanswered hw.ready hst.tidy ho
  have hgone : (w.update c).2.2.trackedOf c = [] := by
    refine (congrArg Ledger.tracked hs.ledger).trans ?_
    rw [remaining, Ledger.tracked_retireAll, failedNames, failed, htracked]
    refine List.filter_eq_nil_iff.mpr fun x hx => ?_
    have hx : x ∈ w.trackedOf c := hx
    rw [htracked] at hx
    obtain rfl := List.mem_singleton.mp hx
    simp [List.takeWhile_cons_of_pos hfails]
  refine ⟨?_, ?_, ?_, fun p hp => ?_⟩
  · rw [hs.ledger]
    exact hst.tidy.retireAll _
  · rw [hs.ledger]
    exact hst.settled.retireAll _
  · rw [rosterOf, hgone]
    rfl
  · rw [hview] at hp
    cases hp

/-! ### Many rounds -/

/-- The world after some rounds for a cluster in a row. -/
def afterRounds (w : World) (c : String) (n : ℕ) : World := (fun w => (w.update c).2.2)^[n] w

lemma steady_afterRounds (w : World) (c : String) (n : ℕ) : Steady w (w.afterRounds c n) := by
  induction n with
  | zero => exact Steady.refl w
  | succ n ih =>
      rw [afterRounds, Function.iterate_succ_apply']
      exact ih.trans (steady_update _ c)

/-- The nodes that can be reached stay the same. -/
lemma Steady.up (hs : Steady w w') (m : Member) : w'.network.up m = w.network.up m := by
  obtain ⟨journal, hnet⟩ := hs.network
  rw [hnet]
  rfl

/-- After every odd number of rounds the members up to the first one that is down are routed. -/
theorem Stage.afterRounds (hw : w.Seeded c v) (hst : w.Stage c v []) (k : ℕ) :
    (w.afterRounds c (2 * k + 1)).Stage c v (attempted w.network.up v.members.toList) := by
  induction k with
  | zero => exact hst.first hw
  | succ k ih =>
      obtain ⟨m, rest, hmembers⟩ := List.exists_cons_of_ne_nil hw.ne_nil
      set u := w.afterRounds c (2 * k + 1)
      have hsteady : Steady w u := steady_afterRounds w c _
      have hup : u.network.up = w.network.up := funext hsteady.up
      have hu : u.Seeded c v := hw.of_steady hsteady
      have hu' : (u.update c).2.2.Seeded c v := hu.of_steady (steady_update u c)
      have hup' : (u.update c).2.2.network.up = w.network.up :=
        (funext (steady_update u c).up).trans hup
      have htwice : w.afterRounds c (2 * (k + 1) + 1) = ((u.update c).2.2.update c).2.2 := by
        rw [World.afterRounds, show 2 * (k + 1) + 1 = (2 * k + 1) + 1 + 1 by omega,
          Function.iterate_succ_apply', Function.iterate_succ_apply']
        rfl
      rw [htwice, ← hup']
      rw [← hup] at ih
      cases hfirst : u.network.up m with
      | true =>
          have hst' := ih.keep hu hmembers hfirst
          rw [hup, ← hup'] at hst'
          refine hst'.keep hu' hmembers ?_
          rw [hup', ← hup]
          exact hfirst
      | false => exact (ih.fall hu hmembers hfirst).first hu'

end World

namespace Course

variable {config : Config} {router : Router} {c : String} {moves : List Move} {v : View}
  {h : Handle}

/-- Rounds for a cluster of which nothing is known yet route the members up to the first one that is
down. This is so after each round of an odd number, however many there are. So all members that are
up are routed exactly if none of them is behind one that is down. -/
theorem routed_iff_before_outage (hs : router.nodes.Sound) (hr : router.Free c)
    (hm : ∀ m ∈ moves, m.Spares c)
    (hj : (ofMoves config router moves).world.enrolments.contains c = true)
    (hrest : (ofMoves config router moves).resting c = true)
    (htracked : (ofMoves config router moves).world.trackedOf c = [])
    (hview : (ofMoves config router moves).world.viewOf c = none)
    (hseed : ((ofMoves config router moves).world.enrolments.find? c).map Enrolment.bootstrap =
      some h)
    (hanswer : (ofMoves config router moves).world.network.viewAt? h.node.address = some v)
    (hreached : (ofMoves config router moves).world.network.reaches h.node.address = true)
    (hcluster : v.cluster = c) (hnames : v.Distinct)
    (haddresses : (v.members.toList.map Member.address).Nodup)
    (hsmall : ∀ max, router.limit? = some max → v.members.size ≤ max) (k : ℕ) :
    (∀ n, n ∈ (((ofMoves config router moves).world.afterRounds c (2 * k + 1)).routedOf c).toList ↔
      n.toMember ∈ attempted (ofMoves config router moves).world.network.up v.members.toList) ∧
    ((∀ m ∈ v.members.toList, (ofMoves config router moves).world.network.up m = true →
        .ofMember m ∈
          (((ofMoves config router moves).world.afterRounds c (2 * k + 1)).routedOf c).toList) ↔
      v.members.toList.Pairwise fun a b =>
        (ofMoves config router moves).world.network.up b = true →
          (ofMoves config router moves).world.network.up a = true) := by
  have hw : (ofMoves config router moves).world.Outset c := outset_ofMoves hr hm hj hrest
  obtain ⟨hsound, hlimit⟩ := sound_ofMoves config hs moves
  have hseeded : (ofMoves config router moves).world.Seeded c v :=
    ⟨hw.ready, hsound, ⟨h, hseed, hanswer, hreached⟩, hcluster, hnames, haddresses,
      fun max hmax => hsmall max (hlimit.symm.trans hmax)⟩
  have hstage : (ofMoves config router moves).world.Stage c v [] := by
    refine ⟨hw.tidy, fun x hx => ?_, ?_, fun p hp => ?_⟩
    · have hx : x ∈ (ofMoves config router moves).world.trackedOf c := hx
      rw [htracked] at hx
      cases hx
    · rw [World.rosterOf, htracked]
      rfl
    · rw [hview] at hp
      cases hp
  have hrouted := fun n => (hstage.afterRounds hseeded k).mem_routed_iff (n := n)
  refine ⟨hrouted, ?_⟩
  simp only [hrouted, Node.toMember_ofMember]
  exact forall_mem_attempted_iff (hnames.of_map _)

/-- The process reaches `asia` through its second node. -/
def outageConfig : Config :=
  ⟨"europe", 1000, ["europe", "asia"], .ofList [("asia", "host:2")], .fixed⟩

/-- The first node of `asia` is down from the beginning. -/
def outage : List Move := [.publish pairView, .takeDown ⟨"host", 1⟩, .start]

/-- After three rounds the only routed node is the one that is down. -/
theorem routed_iff_before_outage_pair :
    (∀ n, n ∈ (((ofMoves outageConfig pairRouter outage).world.afterRounds "asia" 3).routedOf
      "asia").toList ↔ n = ⟨"a", ⟨"host", 1⟩⟩) ∧
    ¬∀ m ∈ pairView.members.toList,
      (ofMoves outageConfig pairRouter outage).world.network.up m = true →
        .ofMember m ∈ (((ofMoves outageConfig pairRouter outage).world.afterRounds "asia"
          3).routedOf "asia").toList := by
  obtain ⟨hrouted, hall⟩ := @routed_iff_before_outage outageConfig pairRouter "asia" outage pairView
    ⟨"asia", 0, ⟨"host:2", ⟨"host", 2⟩⟩⟩ (HashedNodes.sound_ofLimit _ _) free_pairRouter
    (by simp [outage, Move.Spares]) (by decide +kernel) (by decide +kernel) (by decide +kernel)
    (by decide +kernel) (by decide +kernel) (by decide +kernel) (by decide +kernel) rfl
    (by rw [View.Distinct]; decide +kernel) (by decide +kernel)
    (fun max hmax => by obtain rfl := Option.some.inj hmax; decide +kernel) 1
  have hattempted : attempted (ofMoves outageConfig pairRouter outage).world.network.up
      pairView.members.toList = [⟨"a", ⟨"host", 1⟩⟩] := by decide +kernel
  rw [hattempted] at hrouted
  refine ⟨fun n => (hrouted n).trans ?_, fun h => absurd (hall.mp h) (by decide +kernel)⟩
  rw [List.mem_singleton]
  exact ⟨fun hn => congrArg Node.ofMember hn, fun hn => congrArg Node.toMember hn⟩

/-- An unreachable member can keep those off the routes that are up: a member that is down and comes
first by name stops every round before the others. -/
theorem not_all_up_routed : ¬∀ (config : Config) (router : Router) (c : String) (moves : List Move)
    (v : View) (h : Handle), router.nodes.Sound → router.Free c → (∀ m ∈ moves, m.Spares c) →
    (ofMoves config router moves).world.enrolments.contains c = true →
    (ofMoves config router moves).resting c = true →
    (ofMoves config router moves).world.trackedOf c = [] →
    (ofMoves config router moves).world.viewOf c = none →
    ((ofMoves config router moves).world.enrolments.find? c).map Enrolment.bootstrap = some h →
    v ∈ (ofMoves config router moves).world.network.views.toList → v.cluster = c → v.Distinct →
    (v.members.toList.map Member.address).Nodup →
    (∀ max, router.limit? = some max → v.members.size ≤ max) →
    (∃ m ∈ v.members.toList, m.address = h.node.address ∧
      (ofMoves config router moves).world.network.up m = true) →
    ∀ m ∈ v.members.toList, (ofMoves config router moves).world.network.up m = true →
      .ofMember m ∈ (((ofMoves config router moves).world.afterRounds c 3).routedOf c).toList := by
  intro hall
  have hrouted := hall outageConfig pairRouter "asia" outage pairView
    ⟨"asia", 0, ⟨"host:2", ⟨"host", 2⟩⟩⟩ (HashedNodes.sound_ofLimit _ _) free_pairRouter
    (by simp [outage, Move.Spares]) (by decide +kernel) (by decide +kernel) (by decide +kernel)
    (by decide +kernel) (by decide +kernel) (by decide +kernel) rfl
    (by rw [View.Distinct]; decide +kernel) (by decide +kernel)
    (fun max hmax => by obtain rfl := Option.some.inj hmax; decide +kernel) (by decide +kernel)
    ⟨"b", ⟨"host", 2⟩⟩ (by decide +kernel) (by decide +kernel)
  exact absurd hrouted (by decide +kernel)

end Course

end Federation
