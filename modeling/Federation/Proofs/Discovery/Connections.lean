import Federation.Proofs.Discovery.Roster
import Federation.Proofs.Discovery.Wiring

/-!
What a round leaves connected.

* `Round.retire_wired`, `Round.askInTurn_wired`, `Round.enlist_wired`, `Round.reconcile_wired`: the
  parts of a round, in terms of its live nodes and of the names that are certainly connected.
* `Round.askBootstrap_wired`: the bootstrap node is connected only while it is asked.
* `Round.update_wired`: a round asks only questions for its cluster. It leaves nothing but live nodes
  connected, and if it has succeeded it has connected them all.
-/

namespace Federation

namespace Round

open World

variable {c : String} {b? : Option Handle} {L : List Handle} {K : Set String} {w : World}
  {h : Handle} {v : View}

/-! ### Asking for a view -/

/-- Asking a node for its view connects nothing and disconnects nothing. -/
lemma requestView_wired (hw : Wired c b? L K w) (hc : h.cluster = c) (hb : ∀ b ∈ b?, b = h)
    (hh : h ∈ L ∨ (L = [] ∧ h ∈ b?)) :
    (requestView c h).Ensures (wiring c) (fun _ w => Wired c b? L K w)
      (fun _ w => Wired c b? L K w) w := by
  refine ensures_query_bind fun w₁ h₁ => ?_
  have hw₁ := hw.of_others h₁
  refine ⟨⟨hc, hw₁.covered_partner rfl hb hh⟩, fun _ => ?_⟩
  refine ensures_pause_bind (ensures_query_bind fun w₂ h₂ => ?_)
  have hw₂ := hw₁.of_others h₂
  refine ⟨⟨hc, hw₂.covered_partner rfl hb hh⟩, fun _ => ?_⟩
  have hw₃ : Wired c b? L K (w₂.answer (.membership h)).2 := hw₂.of_inert trivial
  refine ensures_require_bind (fun v _ => ?_) fun _ _ w₄ h₄ => hw₃.of_others h₄
  rw [requireCluster]
  split
  next => exact ensures_pure fun w₄ h₄ => hw₃.of_others h₄
  next => exact ensures_throw fun w₄ h₄ => hw₃.of_others h₄

/-- The bootstrap node is connected only while it is asked, however that ends. -/
lemma askBootstrap_wired (hw : Wired c none [] K w) (hc : h.cluster = c) :
    (askBootstrap c h).Ensures (wiring c) (fun _ w => Wired c none [] K w)
      (fun _ w => Accounted c w) w := by
  refine ensures_query_bind fun w₁ h₁ => ?_
  have hw₁ := hw.of_others h₁
  refine ⟨⟨hc, hw₁.covered (by simp)⟩, fun _ => ?_⟩
  have hconnect := hw₁.connect_bootstrap hc
  have hanswer : ((wiring c).answer (.connect h) w₁).1 = (w₁.answer (.connect h)).1 := rfl
  rw [hanswer]
  cases hreached : (w₁.answer (.connect h)).1 with
  | error e =>
      rw [hreached] at hconnect
      exact ensures_throw fun w₂ h₂ => (Wired.of_others hconnect h₂).accounted
  | ok a =>
      rw [hreached] at hconnect
      have hopen : Wired c (some h) [] K (w₁.answer (.connect h)).2 := hconnect
      have hclose : ∀ {w₂ w₃ : World}, Wired c (some h) [] K w₂ → Aside c w₂ w₃ →
          Covered c (.disconnect h) w₃ ∧ Wired c none [] K (w₃.answer (.disconnect h)).2 := by
        intro w₂ w₃ hw₂ h₃
        have hw₃ := hw₂.of_others h₃
        exact ⟨hw₃.covered_partner rfl (by simp) (Or.inr ⟨rfl, rfl⟩), hw₃.disconnect_bootstrap⟩
      refine ensures_result_bind
        ((requestView_wired hopen hc (by simp) (Or.inr ⟨rfl, rfl⟩)).mono ?_ ?_)
      · intro v w₂ hw₂
        refine ensures_query_bind fun w₃ h₃ => ⟨⟨hc, (hclose hw₂ h₃).1⟩, fun _ => ?_⟩
        exact ensures_pure fun w₄ h₄ => (hclose hw₂ h₃).2.of_others h₄
      · intro e w₂ hw₂
        refine ensures_query_bind fun w₃ h₃ => ⟨⟨hc, (hclose hw₂ h₃).1⟩, fun _ => ?_⟩
        exact ensures_throw fun w₄ h₄ => ((hclose hw₂ h₃).2.of_others h₄).accounted

/-- A node that is the only live one of its name is disconnected before it is forgotten. -/
lemma retire_wired (hw : Wired c none L K w) (hc : h.cluster = c)
    (honly : ∀ x ∈ L, x.node.name = h.node.name → x = h) {fail : Fault → World → Prop} :
    (retire h).Ensures (wiring c)
      (fun _ w => Wired c none (L.filter fun x => x.node.name ≠ h.node.name) K w) fail w := by
  refine ensures_query_bind fun w₁ h₁ => ?_
  have hw₁ := hw.of_others h₁
  refine ⟨⟨hc, hw₁.covered (by simp)⟩, fun _ => ensures_query_bind fun w₂ h₂ => ?_⟩
  have hw₂ : Wired c none L K w₂ := (hw₁.of_inert (q := .unroute h) trivial).of_others h₂
  refine ⟨⟨hc, hw₂.covered (by simp)⟩, fun _ => ?_⟩
  obtain ⟨hw₃, hout⟩ := hw₂.disconnect (h := h)
  rw [← bind_pure (query _)]
  refine ensures_query_bind fun w₄ h₄ => ?_
  have hw₄ := hw₃.of_others h₄
  refine ⟨⟨hc, hw₄.covered (by simp)⟩, fun _ => ensures_pure fun w₅ h₅ => ?_⟩
  have hout₄ : h ∉ w₄.network.links := fun hl => hout ((Aside.links h₄ h hc).mp hl)
  exact (hw₄.untrack hc hout₄ honly).of_others h₅

/-- The nodes before the one that answers are disconnected. -/
lemma askInTurn_wired (hw : Wired c none L K w) :
    (askInTurn c L).Ensures (wiring c) (fun _ w => ∃ L', Wired c none L' K w)
      (fun _ w => Accounted c w) w := by
  induction L generalizing w with
  | nil => exact ensures_throw fun w₁ h₁ => (hw.of_others h₁).accounted
  | cons h rest ih =>
      have hc := hw.cluster_of_mem List.mem_cons_self
      refine ensures_result_bind
        ((requestView_wired hw hc (by simp) (Or.inl List.mem_cons_self)).mono ?_ ?_)
      · exact fun v w₁ hw₁ => ensures_pure fun w₂ h₂ => ⟨_, hw₁.of_others h₂⟩
      · intro e w₁ hw₁
        split
        next hok => cases hok
        next node reason _ =>
          -- nobody behind a node has its name
          obtain ⟨hname, -⟩ := List.nodup_cons.mp hw₁.distinct
          have hother : ∀ x ∈ rest, x.node.name ≠ h.node.name := fun x hx he =>
            hname (List.mem_map.mpr ⟨x, hx, he⟩)
          have honly : ∀ x ∈ h :: rest, x.node.name = h.node.name → x = h := by
            intro x hx he
            exact (List.mem_cons.mp hx).resolve_right fun hr => hother x hr he
          have hrest : (h :: rest).filter (fun x => x.node.name ≠ h.node.name) = rest := by
            rw [List.filter_cons_of_neg (by simp), List.filter_eq_self]
            exact fun x hx => by simpa using hother x hx
          refine ensures_bind ((retire_wired hw₁ hc honly).mono ?_ fun _ _ he => he)
          intro _ w₂ hw₂
          rw [hrest] at hw₂
          exact ih hw₂
        next => exact ensures_throw fun w₂ h₂ => (hw₁.of_others h₂).accounted

/-- Whoever answers with the view, in the end only live nodes are connected. -/
lemma askForView_wired {e : Enrolment} (hw : Wired c none e.tracked K w)
    (hb : e.bootstrap.cluster = c) :
    (askForView c e).Ensures (wiring c) (fun _ w => ∃ L', Wired c none L' K w)
      (fun _ w => Accounted c w) w := by
  rw [askForView]
  split
  next hempty =>
    rw [List.isEmpty_iff.mp hempty] at hw
    exact (askBootstrap_wired hw hb).mono (fun _ _ hw' => ⟨_, hw'⟩) fun _ _ he => he
  next => exact askInTurn_wired hw

/-! ### Applying a view -/

/-- The live node of a name is disconnected, if there is one. -/
lemma retireNamed_wired (hw : Wired c none L K w) (name : String) {fail : Fault → World → Prop} :
    (retireNamed c name).Ensures (wiring c)
      (fun _ w => Wired c none (L.filter fun x => x.node.name ≠ name) K w) fail w := by
  refine ensures_query_bind fun w₁ h₁ => ?_
  have hw₁ := hw.of_others h₁
  refine ⟨⟨rfl, hw₁.covered (by simp)⟩, fun _ => ?_⟩
  obtain ⟨e, he⟩ := hw₁.exists_enrolment
  have hlookup : ((wiring c).answer (.enrolment c) w₁).1.bind
      (fun e => e.findTracked? name) = L.find? fun h => h.node.name = name := by
    rw [← hw₁.tracked, trackedOf_of_find? he]
    exact congrArg (Option.bind · _) he
  simp only [hlookup]
  split
  next h hfound =>
    have hname : h.node.name = name := by simpa using List.find?_some hfound
    have hmem := List.mem_of_find?_eq_some hfound
    rw [← hname]
    exact retire_wired hw₁ (hw₁.cluster_of_mem hmem) fun x hx he =>
      List.inj_on_of_nodup_map hw₁.distinct hx hmem he
  next hnone =>
    have hself : L.filter (fun x => x.node.name ≠ name) = L :=
      List.filter_eq_self.mpr fun x hx => by simpa using List.find?_eq_none.mp hnone x hx
    rw [hself]
    exact ensures_pure fun w₂ h₂ => hw₁.of_others h₂

/-- Only nodes stay connected that the view lists. -/
lemma retireUnlisted_wired (hw : Wired c none L K w) (v : View) {fail : Fault → World → Prop} :
    (retireUnlisted c v).Ensures (wiring c) (fun _ w => ∃ L', Wired c none L' K w ∧
      ∀ x ∈ L', ∃ m ∈ v.members.toList, m.name = x.node.name) fail w := by
  refine ensures_query_bind fun w₁ h₁ => ?_
  have hw₁ := hw.of_others h₁
  refine ⟨⟨rfl, hw₁.covered (by simp)⟩, fun _ => ?_⟩
  obtain ⟨e, he⟩ := hw₁.exists_enrolment
  have hanswer : ((wiring c).answer (.enrolment c) w₁).1 = some e := he
  have hL : e.tracked = L := (trackedOf_of_find? he).symm.trans hw₁.tracked
  simp only [hanswer, hL]
  set unlisted := L.filter fun h => !v.members.toList.any fun m => m.name = h.node.name
    with hunlisted
  -- the account is kept of those that are gone
  let I : List Handle → World → Prop := fun gone w => ∃ L', Wired c none L' K w ∧
    ∀ x ∈ L', x ∈ L ∧ ∀ h ∈ gone, x.node.name ≠ h.node.name
  have hstep : ∀ h ∈ unlisted, ∀ gone w, I gone w →
      (retire h).Ensures (wiring c) (fun _ w => I (h :: gone) w) fail w := by
    rintro h hh gone w ⟨L', hw', hgone⟩
    have hmem := (List.mem_filter.mp hh).1
    refine (retire_wired hw' (hw₁.cluster_of_mem hmem) fun x hx hname => ?_).mono
      (fun _ w'' hw'' => ⟨_, hw'', fun x hx => ?_⟩) fun _ _ he => he
    · exact List.inj_on_of_nodup_map hw₁.distinct (hgone x hx).1 hmem hname
    · obtain ⟨hx, hname⟩ := List.mem_filter.mp hx
      exact ⟨(hgone x hx).1, List.forall_mem_cons.mpr ⟨by simpa using hname, (hgone x hx).2⟩⟩
  have hstable : ∀ gone w w', I gone w → (wiring c).others w w' → I gone w' :=
    fun _ _ _ ⟨L', hw', hgone⟩ hs => ⟨L', hw'.of_others hs, hgone⟩
  refine (ensures_forM hstep hstable [] ⟨L, hw₁, fun x hx => ⟨hx, by simp⟩⟩).mono ?_
    fun _ _ he => he
  rintro _ w₂ ⟨L', hw₂, hgone⟩
  refine ⟨L', hw₂, fun x hx => ?_⟩
  by_contra hnot
  obtain ⟨hxL, hnames⟩ := hgone x hx
  have hxu : x ∈ unlisted := List.mem_filter.mpr ⟨hxL, by simpa using hnot⟩
  exact hnames x (by simpa using hxu) rfl

/-- The handle that is made next is not a live node, and counts as built. -/
lemma build_wired (hw : Wired c none L K w) (n : Node) :
    let h := (w.answer (.build c n)).1
    h.cluster = c ∧ h.node = n ∧ h ∉ L ∧ h.serial < (w.answer (.build c n)).2.builtOf c := by
  obtain ⟨e, he⟩ := hw.exists_enrolment
  have hanswer : (w.answer (.build c n)).1 = e.nextHandle n := by
    rw [answer, World.build, he]
  have hfind := (find?_build n (w := w)).trans (if_pos (Eq.refl c))
  rw [he, Option.map_some] at hfind
  rw [hanswer, builtOf_of_find? hfind]
  refine ⟨(Keyed.find?_eq_some_iff.mp he).2, rfl, fun hmem => ?_, Nat.lt_succ_self e.built⟩
  have hserial := hw.serials _ hmem
  rw [builtOf_of_find? he] at hserial
  exact absurd hserial (lt_irrefl e.built)

/-- A member is connected in the place of the live node of its name. If that fails, it is a live
node all the same. -/
lemma enlist_wired (hw : Wired c none L K w) (m : Member) :
    (enlist c m).Ensures (wiring c) (fun _ w => ∃ L', Wired c none L' (insert m.name K) w ∧
      ∀ x ∈ L', x ∈ L ∨ x.node.name = m.name) (fun _ w => Accounted c w) w := by
  refine ensures_bind ((retireNamed_wired hw m.name).mono ?_ fun _ _ he => he)
  intro _ w₁ hw₁
  set M := L.filter fun x => x.node.name ≠ m.name with hM
  refine ensures_query_bind fun w₂ h₂ => ?_
  have hw₂ := hw₁.of_others h₂
  refine ⟨⟨rfl, hw₂.covered (by simp)⟩, fun _ => ?_⟩
  obtain ⟨hc, hnode, hnew, hserial⟩ := build_wired hw₂ (.ofMember m)
  have hw₃ : Wired c none M K (w₂.answer (.build c (.ofMember m))).2 := hw₂.of_inert trivial
  have hanswer : ((wiring c).answer (.build c (.ofMember m)) w₂).1 =
      (w₂.answer (.build c (.ofMember m))).1 := rfl
  rw [hanswer]
  set h := (w₂.answer (.build c (.ofMember m))).1
  have hname : h.node.name = m.name := by rw [hnode, Node.name_ofMember]
  refine ensures_query_bind fun w₄ h₄ => ?_
  have hw₄ := hw₃.of_others h₄
  refine ⟨⟨hc, hw₄.covered (by simp)⟩, fun _ => ?_⟩
  have hw₅ : Wired c none M K (w₄.answer (.route h)).2 := hw₄.of_inert trivial
  have hserial₅ : h.serial < (w₄.answer (.route h)).2.builtOf c :=
    hserial.trans_le ((Aside.built h₄).trans (aside_of_inert (q := .route h) trivial).built)
  refine ensures_require_bind (fun _ _ => ?_) fun _ _ w₆ h₆ => (hw₅.of_others h₆).accounted
  refine ensures_query_bind fun w₆ h₆ => ?_
  have hw₆ := hw₅.of_others h₆
  refine ⟨⟨hc, hw₆.covered (by simp)⟩, fun _ => ?_⟩
  have hfree : ∀ x ∈ M, x.node.name ≠ h.node.name := by
    intro x hx
    rw [hname]
    simpa using (List.mem_filter.mp hx).2
  have hw₇ := hw₆.track hc (hserial₅.trans_le (Aside.built h₆)) hfree
  -- only live nodes are connected, which the new one was not until now
  have hout : h ∉ w₆.network.links := fun hl =>
    hnew ((hw₆.links h hl hc).resolve_right (by simp))
  refine ensures_query_bind fun w₈ h₈ => ?_
  have hw₈ := hw₇.of_others h₈
  have hout₈ : h ∉ w₈.network.links := fun hl => hout ((Aside.links h₈ h hc).mp hl)
  refine ⟨⟨hc, hw₈.covered (by simp)⟩, fun _ => ?_⟩
  obtain ⟨hfailed, hreached⟩ := hw₈.connect (List.mem_append_right M List.mem_cons_self) hout₈
  rw [← bind_pure (require _)]
  refine ensures_require_bind (fun _ hr => ?_) fun _ _ w₉ h₉ => (hfailed.of_others h₉).accounted
  refine ensures_pure fun w₉ h₉ => ⟨_, ((hreached hr).of_others h₉).forget ?_, fun x hx => ?_⟩
  · rw [hname, Set.insert_sdiff_singleton]
  · rcases List.mem_append.mp hx with hx | hx
    · exact Or.inl (List.mem_filter.mp hx).1
    · obtain rfl := List.mem_singleton.mp hx
      exact Or.inr hname

lemma mem_foldl_insert {members : List Member} {name : String} :
    name ∈ members.foldl (fun K m => insert m.name K) K ↔
      name ∈ K ∨ ∃ m ∈ members, m.name = name := by
  induction members generalizing K with
  | nil => simp
  | cons m l ih => rw [List.foldl_cons, ih, Set.mem_insert_iff, List.exists_mem_cons_iff]; tauto

/-- Once every joining member is connected, all live nodes are, if the others were before. -/
lemma enlistAll_wired {members : List Member} (hw : Wired c none L K w)
    (hK : ∀ x ∈ L, x.node.name ∈ K ∨ ∃ m ∈ members, m.name = x.node.name) :
    (members.forM (enlist c)).Ensures (wiring c) (fun _ w => ∃ L', Wired c none L' Set.univ w)
      (fun _ w => Accounted c w) w := by
  let I : Set String → World → Prop := fun K w => ∃ L', Wired c none L' K w ∧
    ∀ x ∈ L', x.node.name ∈ K ∨ ∃ m ∈ members, m.name = x.node.name
  have hstep : ∀ m ∈ members, ∀ K w, I K w → (enlist c m).Ensures (wiring c)
      (fun _ w => I (insert m.name K) w) (fun _ w => Accounted c w) w := by
    rintro m hm K w ⟨L', hw', hL'⟩
    refine (enlist_wired hw' m).mono ?_ fun _ _ he => he
    rintro _ w' ⟨L'', hw'', hL''⟩
    refine ⟨L'', hw'', fun x hx => ?_⟩
    rcases hL'' x hx with hx | hx
    · exact (hL' x hx).imp_left (Set.mem_insert_of_mem _)
    · exact Or.inl (hx ▸ Set.mem_insert _ _)
  have hstable : ∀ K w w', I K w → (wiring c).others w w' → I K w' :=
    fun _ _ _ ⟨L', hw', hL'⟩ hs => ⟨L', hw'.of_others hs, hL'⟩
  refine (ensures_forM hstep hstable K ⟨L, hw, hK⟩).mono ?_ fun _ _ he => he
  rintro _ w' ⟨L', hw', hL'⟩
  refine ⟨L', hw'.all fun x hx => (hL' x hx).elim id fun hm => ?_⟩
  exact mem_foldl_insert.mpr (Or.inr hm)

/-- Bringing the routes in line with a view connects all live nodes, if those that it finds are
connected or there is no baseline. -/
lemma reconcile_wired {baseline : Option View} (hw : Wired c none L K w)
    (hK : baseline.isSome = true → K = Set.univ) :
    (reconcile c baseline v).Ensures (wiring c) (fun _ w => ∃ L', Wired c none L' Set.univ w)
      (fun _ w => Accounted c w) w := by
  have hjoin : ∀ {L : List Handle} {w : World}, Wired c none L K w →
      (∀ x ∈ L, x.node.name ∈ K ∨
        ∃ m ∈ (v.changesSince baseline).joining, m.name = x.node.name) →
      ((v.changesSince baseline).joining.forM (enlist c) >>= fun _ =>
        (pure (v.changesSince baseline) : Round Changes)).Ensures (wiring c)
          (fun _ w => ∃ L', Wired c none L' Set.univ w) (fun _ w => Accounted c w) w := by
    intro L w hw hL
    refine ensures_bind ((enlistAll_wired hw hL).mono ?_ fun _ _ he => he)
    rintro _ w' ⟨L', hw'⟩
    exact ensures_pure fun w'' h'' => ⟨L', hw'.of_others h''⟩
  have hleave : ((v.changesSince baseline).leaving.forM fun m => retireNamed c m.name).Ensures
      (wiring c) (fun _ w => ∃ L', Wired c none L' K w) (fun _ w => Accounted c w) w := by
    refine ensures_forM (g := fun (a : Unit) _ => a) (I := fun _ w => ∃ L', Wired c none L' K w)
      ?_ ?_ () ⟨L, hw⟩
    · rintro m - _ w ⟨L', hw'⟩
      exact (retireNamed_wired hw' m.name).mono (fun _ _ hw'' => ⟨_, hw''⟩) fun _ _ he => he
    · rintro _ w w' ⟨L', hw'⟩ hs
      exact ⟨L', hw'.of_others hs⟩
  refine ensures_bind (hleave.mono ?_ fun _ _ he => he)
  rintro _ w₁ ⟨L₁, hw₁⟩
  cases baseline with
  | none =>
      refine ensures_bind ((retireUnlisted_wired hw₁ v).mono ?_ fun _ _ he => he)
      rintro _ w₂ ⟨L₂, hw₂, hlisted⟩
      exact hjoin hw₂ fun x hx => Or.inr (hlisted x hx)
  | some p => exact hjoin hw₁ fun x _ => Or.inl (hK rfl ▸ Set.mem_univ x.node.name)

/-! ### Whole rounds -/

lemma once_wired (hw : Settled c w) :
    (once c).Ensures (wiring c) (fun _ w => Settled c w ∧ Linked c w)
      (fun _ w => Accounted c w) w := by
  refine ensures_query_bind fun w₁ h₁ => ?_
  have hw₁ := hw.of_others h₁
  refine ⟨⟨rfl, hw₁.toAccounted.covered (by simp)⟩, fun _ => ?_⟩
  have hanswer : ((wiring c).answer (.enrolment c) w₁).1 = w₁.enrolments.find? c := rfl
  rw [hanswer]
  cases he : w₁.enrolments.find? c with
  | none => exact ensures_throw fun w₂ h₂ => (Settled.of_others hw₁ h₂).toAccounted
  | some e =>
      have hwired := hw₁.wired he
      refine ensures_query_bind fun w₂ h₂ => ?_
      have hw₂ := hwired.of_others h₂
      refine ⟨⟨rfl, hw₂.covered (by simp)⟩, fun _ => ?_⟩
      refine ensures_bind ((askForView_wired hw₂ (hw₁.labelled e he)).mono ?_ fun _ _ he => he)
      rintro v w₃ ⟨L₃, hw₃⟩
      refine ensures_bind ((reconcile_wired hw₃ fun hsome => ?_).mono ?_ fun _ _ he => he)
      · -- a baseline is the stored view
        rw [Enrolment.baseline] at hsome
        split at hsome
        next => exact Set.eq_univ_of_forall fun _ => hsome
        next => cases hsome
      · rintro changes w₄ ⟨L₄, hw₄⟩
        refine ensures_query_bind fun w₅ h₅ => ?_
        have hw₅ := hw₄.of_others h₅
        refine ⟨⟨rfl, hw₅.covered (by simp)⟩, fun _ => ensures_pure fun w₆ h₆ => ?_⟩
        obtain ⟨hsettled, hlinked⟩ := hw₅.accounted.store_some hw₅.linked v
        exact ⟨hsettled.of_others h₆, hsettled.linked_of_others h₆ hlinked⟩

/-- A round asks only questions for its cluster, and while it does so nothing is connected but live
nodes and the node with which it deals. However it ends, only live nodes are connected; and if it
has succeeded, all of them are. -/
theorem update_wired (hw : Settled c w) :
    (update c).Ensures (wiring c) (fun _ w => Settled c w ∧ Linked c w)
      (fun _ w => Settled c w) w := by
  refine ensures_query_bind fun w₁ h₁ => ?_
  have hw₁ := hw.of_others h₁
  refine ⟨⟨trivial, hw₁.toAccounted.covered (by simp)⟩, fun _ => ?_⟩
  split
  next => exact ensures_throw fun w₂ h₂ => Settled.of_others hw₁ h₂
  next =>
    refine ensures_tryCatch ((once_wired hw₁).mono (fun _ _ hp => hp) fun e w₂ hw₂ => ?_)
    refine ensures_query_bind fun w₃ h₃ => ?_
    have hw₃ := hw₂.of_others h₃
    refine ⟨⟨rfl, hw₃.covered (by simp)⟩, fun _ => ?_⟩
    exact ensures_throw fun w₄ h₄ => hw₃.store_none.of_others h₄

end Round

end Federation
