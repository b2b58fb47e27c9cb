import Federation.Proofs.Discovery.Books

/-!
What a round does.

* `World.Balanced`: the books of a round between its parts: the nodes that may be routed are the
  live ones.
* `Round.retire_ensures`, `Round.askInTurn_ensures`, `Round.enlist_ensures`,
  `Round.reconcile_ensures`: the parts of a round, in terms of rosters.
* `World.Reconciled`: what a successful round leaves behind.
* `Round.update_ensures`: a round that ends leaves its cluster in order. If it has succeeded, the
  live nodes are those of the answered view as `World.Reconciled` tells; if it has failed, no view
  is stored.
-/

namespace Federation

namespace World

variable {t : Terms} {L S : Roster} {w w' : World}

/-- The books between the parts of a round: only live nodes may be routed, and their names are
distinct. -/
structure Balanced (t : Terms) (L S : Roster) (w : World) : Prop where
  books : Books t L L S w
  distinct : L.Distinct

lemma Balanced.of_others (hb : Balanced t L S w) (hs : t.surroundings.others w w') :
    Balanced t L S w' :=
  ⟨hb.books.of_others hs, hb.distinct⟩

/-- A round may end wherever its books are balanced. -/
lemma Balanced.orderly (hb : Balanced t L S w) : Orderly t w := by
  obtain ⟨hbooks, hdistinct⟩ := hb
  refine ⟨hbooks.founded, ?_, ?_⟩
  · rw [hbooks.roster]
    exact hdistinct
  · rw [hbooks.roster]
    exact hbooks.within

end World

namespace Round

open World

variable {t : Terms} {L S : Roster} {w : World} {h : Handle} {v : View}

/-! ### Asking for a view -/

/-- Nothing but the network notices that a node is asked for its view. If every contact succeeds,
only a view of another cluster is refused. -/
lemma requestView_ensures (hb : Balanced t L S w) :
    (requestView t.cluster h).Ensures t.surroundings
      (fun v w => Balanced t L S w ∧ v.cluster = t.cluster ∧ t.accepts v)
      (fun e w => Balanced t L S w ∧ (t.clean → ∃ n reason, e = .processing n reason)) w := by
  refine ensures_query_bind fun w₁ h₁ => ⟨trivial, fun _ => ?_⟩
  refine ensures_pause_bind (ensures_query_bind fun w₂ h₂ => ⟨trivial, fun ha => ?_⟩)
  have hb₂ : Balanced t L S (w₂.answer (.membership h)).2 :=
    ((hb.of_others h₁).of_others h₂).of_others (Spares.of_network _)
  obtain ⟨haccepts, hclean⟩ := ha
  refine ensures_require_bind (fun v hv => ?_) fun x hx w₃ h₃ => ?_
  · rw [requireCluster]
    split
    next hc => exact ensures_pure fun w₃ h₃ => ⟨hb₂.of_others h₃, hc, haccepts v hv⟩
    next => exact ensures_throw fun w₃ h₃ => ⟨hb₂.of_others h₃, fun _ => ⟨_, _, rfl⟩⟩
  · refine ⟨hb₂.of_others h₃, fun hcl => ?_⟩
    obtain ⟨v, hv⟩ := hclean hcl
    exact absurd (hx.symm.trans hv) (by simp)

/-- The bootstrap node is not in the books. -/
lemma askBootstrap_ensures (hb : Balanced t L S w) :
    (askBootstrap t.cluster h).Ensures t.surroundings
      (fun v w => Balanced t L S w ∧ v.cluster = t.cluster ∧ t.accepts v)
      (fun _ w => Orderly t w) w := by
  refine ensures_query_bind fun w₁ h₁ => ⟨trivial, fun _ => ?_⟩
  have hb₁ : Balanced t L S (w₁.answer (.connect h)).2 :=
    (hb.of_others h₁).of_others (Spares.of_network _)
  split
  next => exact ensures_throw fun w₂ h₂ => (hb₁.of_others h₂).orderly
  next =>
    refine ensures_result_bind ((requestView_ensures hb₁).mono ?_ ?_)
    · rintro v w₂ ⟨hb₂, hv⟩
      refine ensures_query_bind fun w₃ h₃ => ⟨trivial, fun _ => ensures_pure fun w₄ h₄ => ?_⟩
      exact ⟨((hb₂.of_others h₃).of_others (Spares.of_network _)).of_others h₄, hv⟩
    · rintro e w₂ ⟨hb₂, -⟩
      refine ensures_query_bind fun w₃ h₃ => ⟨trivial, fun _ => ensures_throw fun w₄ h₄ => ?_⟩
      exact (((hb₂.of_others h₃).of_others (Spares.of_network _)).of_others h₄).orderly

/-- The nodes of a name leave, first from the routes and then from the live nodes. -/
lemma retire_ensures (hc : h.cluster = t.cluster) (hb : Balanced t L S w)
    {fail : Fault → World → Prop} :
    (retire h).Ensures t.surroundings
      (fun _ w => Balanced t (L.without h.node.name) (S.without h.node.name) w) fail w := by
  refine ensures_query_bind fun w₁ h₁ => ⟨hc, fun _ => ?_⟩
  have hb₁ := (hb.books.of_others h₁).unroute hc
  refine ensures_query_bind fun w₂ h₂ => ⟨trivial, fun _ => ?_⟩
  have hb₂ := (hb₁.of_others h₂).of_network (w₂.network.disconnect h)
  rw [← bind_pure (query _)]
  refine ensures_query_bind fun w₃ h₃ => ⟨hc, fun _ => ensures_pure fun w₄ h₄ => ?_⟩
  exact ⟨((hb₂.of_others h₃).untrack hc).of_others h₄, hb.distinct.filter _⟩

/-- The nodes before the one that answers leave. There are none if every contact succeeds. -/
lemma askInTurn_ensures {handles : List Handle} (hc : ∀ h ∈ handles, h.cluster = t.cluster)
    (hb : Balanced t L S w) :
    (askInTurn t.cluster handles).Ensures t.surroundings
      (fun v w => ∃ gone, Balanced t (L.leave gone) (S.leave gone) w ∧ (t.clean → gone = []) ∧
        v.cluster = t.cluster ∧ t.accepts v)
      (fun _ w => Orderly t w) w := by
  induction handles generalizing L S w with
  | nil => exact ensures_throw fun w₁ h₁ => (hb.of_others h₁).orderly
  | cons h handles ih =>
      refine ensures_result_bind ((requestView_ensures hb).mono ?_ ?_)
      · rintro v w₁ ⟨hb₁, hv⟩
        refine ensures_pure fun w₂ h₂ => ⟨[], ?_, fun _ => rfl, hv⟩
        rw [Roster.leave_nil, Roster.leave_nil]
        exact hb₁.of_others h₂
      · rintro e w₁ ⟨hb₁, hclean⟩
        split
        next hok => cases hok
        next node reason hcomm =>
          obtain rfl := Except.error.inj hcomm
          refine ensures_bind ((retire_ensures (hc h List.mem_cons_self) hb₁).mono ?_
            fun _ _ he => he)
          intro _ w₂ hb₂
          refine (ih (fun x hx => hc x (List.mem_cons_of_mem h hx)) hb₂).mono ?_ fun _ _ he => he
          rintro v w₃ ⟨gone, hb₃, -, hv⟩
          refine ⟨h.node.name :: gone, ?_, fun hcl => ?_, hv⟩
          · rw [Roster.leave_cons, Roster.leave_cons]
            exact hb₃
          · -- a contact that succeeds is no failed communication
            obtain ⟨n, r, he⟩ := hclean hcl
            cases he
        next => exact ensures_throw fun w₂ h₂ => (hb₁.of_others h₂).orderly

/-- The view comes from a live node, or from the bootstrap node if there is none. -/
lemma askForView_ensures {e : Enrolment} (hc : ∀ h ∈ e.tracked, h.cluster = t.cluster)
    (hb : Balanced t L S w) :
    (askForView t.cluster e).Ensures t.surroundings
      (fun v w => ∃ gone, Balanced t (L.leave gone) (S.leave gone) w ∧ (t.clean → gone = []) ∧
        v.cluster = t.cluster ∧ t.accepts v)
      (fun _ w => Orderly t w) w := by
  rw [askForView]
  split
  next =>
    refine (askBootstrap_ensures hb).mono ?_ fun _ _ he => he
    rintro v w₁ ⟨hb₁, hv⟩
    refine ⟨[], ?_, fun _ => rfl, hv⟩
    rw [Roster.leave_nil, Roster.leave_nil]
    exact hb₁
  next => exact askInTurn_ensures hc hb

/-! ### Applying a view -/

/-- The live node of a name leaves, if there is one. -/
lemma retireNamed_ensures (name : String) (hb : Balanced t L S w) {fail : Fault → World → Prop} :
    (retireNamed t.cluster name).Ensures t.surroundings
      (fun _ w => Balanced t (L.without name) (S.without name) w) fail w := by
  refine ensures_query_bind fun w₁ h₁ => ⟨rfl, fun _ => ?_⟩
  have hb₁ : Balanced t L S w₁ := hb.of_others h₁
  obtain ⟨e, he⟩ := hb₁.books.exists_enrolment
  have hlookup : (t.surroundings.answer (.enrolment t.cluster) w₁).1.bind
      (fun e => e.findTracked? name) = e.findTracked? name := congrArg (Option.bind · _) he
  have htracked := trackedOf_of_find? he
  simp only [hlookup]
  split
  next h hfound =>
    have hname : h.node.name = name := by simpa using List.find?_some hfound
    have hmem : h ∈ w₁.trackedOf t.cluster := htracked ▸ List.mem_of_find?_eq_some hfound
    rw [← hname]
    exact retire_ensures (hb₁.books.cluster_of_mem hmem) hb₁
  next hnone =>
    -- nobody has the name, so that nobody has to leave
    have hfree : ∀ n ∈ L, n.name ≠ name := by
      intro n hn
      rw [← hb₁.books.roster, rosterOf, htracked] at hn
      obtain ⟨h, hh, rfl⟩ := List.mem_map.mp hn
      simpa using List.find?_eq_none.mp hnone h hh
    refine ensures_pure fun w₂ h₂ => ⟨?_, hb₁.distinct.filter _⟩
    rw [Roster.without_eq_self hfree]
    exact (hb₁.books.of_others h₂).forget fun n hn => (Roster.mem_without.mp hn).1

/-- Only live nodes stay that the view lists. -/
lemma retireUnlisted_ensures (v : View) (hb : Balanced t L [] w) {fail : Fault → World → Prop} :
    (retireUnlisted t.cluster v).Ensures t.surroundings
      (fun _ w => Balanced t (L.listed v) [] w) fail w := by
  refine ensures_query_bind fun w₁ h₁ => ⟨rfl, fun _ => ?_⟩
  have hb₁ : Balanced t L [] w₁ := hb.of_others h₁
  obtain ⟨e, he⟩ := hb₁.books.exists_enrolment
  have hanswer : (t.surroundings.answer (.enrolment t.cluster) w₁).1 = some e := he
  have htracked := trackedOf_of_find? he
  simp only [hanswer]
  -- the nodes leave one after the other, by their names
  set unlisted := e.tracked.filter fun h => !v.members.toList.any fun m => m.name = h.node.name
    with hunlisted
  have hstep : ∀ h ∈ unlisted, ∀ (l : Roster) (w : World), Balanced t l [] w →
      (retire h).Ensures t.surroundings
        (fun _ w => Balanced t (l.without h.node.name) [] w) fail w := by
    intro h hh l w hw
    have hmem : h ∈ w₁.trackedOf t.cluster := htracked ▸ (List.mem_filter.mp hh).1
    exact retire_ensures (hb₁.books.cluster_of_mem hmem) hw
  have hlisted : unlisted.foldl (fun l h => l.without h.node.name) L = L.listed v := by
    have hnames : unlisted.map (fun h => h.node.name) =
        (L.map Node.name).filter fun name => !v.lists name := by
      rw [← hb₁.books.roster, rosterOf, htracked, List.map_map, List.filter_map, hunlisted]
      rfl
    rw [← List.foldl_map (f := fun h : Handle => h.node.name) (g := Roster.without),
      Roster.foldl_without, hnames, Roster.leave_filter]
    simp [Roster.listed]
  rw [← hlisted]
  exact ensures_forM hstep (fun _ _ _ hw hs => hw.of_others hs) L hb₁

/-- A member joins, and the live node of its name gives way. -/
lemma enlist_ensures (m : Member) (hb : Balanced t L S w) :
    (enlist t.cluster m).Ensures t.surroundings
      (fun _ w => Balanced t (L.enlist m) (S.enlist m) w) (fun _ w => Orderly t w) w := by
  refine ensures_bind ((retireNamed_ensures m.name hb).mono ?_ fun _ _ he => he)
  intro _ w₁ hb₁
  refine ensures_query_bind fun w₂ h₂ => ⟨rfl, fun _ => ?_⟩
  obtain ⟨hb₂, hcluster, hnode⟩ := (hb₁.books.of_others h₂).build (.ofMember m)
  set h := (w₂.answer (.build t.cluster (.ofMember m))).1 with hh
  refine ensures_query_bind fun w₃ h₃ => ⟨hcluster, fun _ => ?_⟩
  have hb₃ := hb₂.of_others h₃
  refine ensures_require_bind (fun _ hr => ?_) fun x hx w₄ h₄ => ?_
  · have hb₄ := hb₃.route hcluster hr
    refine ensures_query_bind fun w₅ h₅ => ⟨hcluster, fun _ => ?_⟩
    have hb₅ := (hb₄.of_others h₅).track hcluster
    have hjoined : L.without m.name ++ [h.node] = L.enlist m := by rw [hnode, Roster.enlist]
    have hjoined' : S.without m.name ++ [h.node] = S.enlist m := by rw [hnode, Roster.enlist]
    rw [hjoined, hjoined'] at hb₅
    have hb₅ : Balanced t (L.enlist m) (S.enlist m) _ := ⟨hb₅, hb.distinct.enlist m⟩
    refine ensures_query_bind fun w₆ h₆ => ⟨trivial, fun _ => ?_⟩
    have hb₆ := (hb₅.of_others h₆).of_others (Spares.of_network (w₆.network.connect h).2)
    rw [← bind_pure (require _)]
    refine ensures_require_bind (fun _ _ => ?_) fun _ _ w₇ h₇ => (hb₆.of_others h₇).orderly
    exact ensures_pure fun w₇ h₇ => hb₆.of_others h₇
  · have hb₄ := (hb₃.route_of_error hx).of_others h₄
    exact Balanced.orderly ⟨hb₄, hb₁.distinct⟩

/-- A change of the roster is made on both sides of the books. -/
lemma balanced_forM {γ : Type} {f : γ → Round Unit} {g : Roster → γ → Roster} {l : List γ}
    (hf : ∀ x ∈ l, ∀ L S w, Balanced t L S w → (f x).Ensures t.surroundings
      (fun _ w => Balanced t (g L x) (g S x) w) (fun _ w => Orderly t w) w)
    (hb : Balanced t L S w) :
    (l.forM f).Ensures t.surroundings (fun _ w => Balanced t (l.foldl g L) (l.foldl g S) w)
      (fun _ w => Orderly t w) w := by
  have hfold : l.foldl (fun a x => (g a.1 x, g a.2 x)) (L, S) = (l.foldl g L, l.foldl g S) := by
    clear hf hb
    induction l generalizing L S with
    | nil => rfl
    | cons x l ih => exact ih
  let I : Roster × Roster → World → Prop := fun a w => Balanced t a.1 a.2 w
  have hstep : ∀ x ∈ l, ∀ a w, I a w → (f x).Ensures t.surroundings
      (fun _ w => I (g a.1 x, g a.2 x) w) (fun _ w => Orderly t w) w :=
    fun x hx a w hw => hf x hx a.1 a.2 w hw
  have hstable : ∀ a w w', I a w → t.surroundings.others w w' → I a w' :=
    fun _ _ _ hw hs => Balanced.of_others hw hs
  have hall := ensures_forM hstep hstable (L, S) hb
  rwa [hfold] at hall

/-- Bringing the routes in line with a view does to the live nodes what it does to a roster. In
the end all of them are routed. -/
lemma reconcile_ensures {baseline : Option View} (hb : Balanced t L (L.assured baseline) w) :
    (reconcile t.cluster baseline v).Ensures t.surroundings
      (fun changes w => Balanced t (L.reconciled baseline v) (L.reconciled baseline v) w ∧
        changes = v.changesSince baseline)
      (fun _ w => Orderly t w) w := by
  have hjoin : ∀ w, Balanced t (L.pruned baseline v) ((L.assured baseline).pruned baseline v) w →
      ((v.changesSince baseline).joining.forM (enlist t.cluster) >>= fun _ =>
        (pure (v.changesSince baseline) : Round Changes)).Ensures t.surroundings
        (fun changes w => Balanced t (L.reconciled baseline v) (L.reconciled baseline v) w ∧
          changes = v.changesSince baseline)
        (fun _ w => Orderly t w) w := by
    intro w hw
    refine ensures_bind ((balanced_forM (fun m _ L S w hw => enlist_ensures m hw) hw).mono ?_
      fun _ _ he => he)
    intro _ w₁ hb₁
    rw [← Roster.reconciled, ← Roster.reconciled, Roster.reconciled_assured] at hb₁
    exact ensures_pure fun w₂ h₂ => ⟨hb₁.of_others h₂, rfl⟩
  refine ensures_bind ((balanced_forM
    (fun m _ L S w hw => retireNamed_ensures m.name hw) hb).mono ?_ fun _ _ he => he)
  intro _ w₁ hb₁
  cases baseline with
  | none =>
      refine ensures_bind ((retireUnlisted_ensures v hb₁).mono ?_ fun _ _ he => he)
      intro _ w₂ hb₂
      refine hjoin w₂ ?_
      rw [Roster.pruned_none, Roster.pruned_none]
      exact hb₂
  | some p =>
      refine hjoin w₁ ?_
      rw [Roster.pruned_some, Roster.pruned_some, ← Roster.foldl_without, ← Roster.foldl_without,
        List.foldl_map, List.foldl_map]
      exact hb₁

end Round

/-! ### Whole rounds -/

namespace World

variable {t : Terms} {w₀ w w' : World} {gone : List String} {baseline : Option View} {v : View}

/-- The view with which a round that begins now compares, if nobody removes routes meanwhile. -/
def baselineOf (w : World) (cluster : String) : Option View :=
  if (w.rosterOf cluster).all fun n => (w.routedOf cluster).contains n.name then w.viewOf cluster
  else none

lemma viewOf_of_baselineOf {c : String} {p : View} (h : w.baselineOf c = some p) :
    w.viewOf c = some p := by
  rw [baselineOf] at h
  split at h
  next => exact h
  next => cases h

/-- What a successful round that began at `w₀` leaves behind. The nodes named `gone` could not be
reached. -/
structure Reconciled (t : Terms) (w₀ : World) (gone : List String) (baseline : Option View)
    (v : View) (w : World) : Prop where
  standing : Standing t w
  view : w.viewOf t.cluster = some v
  roster : w.rosterOf t.cluster =
    ((w₀.rosterOf t.cluster).leave gone).reconciled baseline v
  reached : t.clean → gone = []
  stored : ∀ p, baseline = some p → w₀.viewOf t.cluster = some p
  compared : t.own → t.still → baseline = w₀.baselineOf t.cluster
  routed : t.own → t.still → ∀ n ∈ w.rosterOf t.cluster, n ∈ (w.routedOf t.cluster).toList

lemma Reconciled.of_others (hw : Reconciled t w₀ gone baseline v w)
    (hs : t.surroundings.others w w') : Reconciled t w₀ gone baseline v w' := by
  have hroster := rosterOf_eq_of_spares hs
  refine ⟨hw.standing.of_others hs, ?_, ?_, hw.reached, hw.stored, hw.compared, fun ho hq => ?_⟩
  · rw [World.Spares.view hs]
    exact hw.view
  · rw [hroster]
    exact hw.roster
  · rw [hroster, World.Spares.routedOf_eq hs ho hq]
    exact hw.routed ho hq

/-- The routes of a live node are looked up by its name, which only one live node has. -/
lemma Standing.mem_routedOf (hw : Standing t w) (ho : t.own) {n : Node}
    (hn : n ∈ w.rosterOf t.cluster) (hname : (w.routedOf t.cluster).contains n.name = true) :
    n ∈ (w.routedOf t.cluster).toList := by
  obtain ⟨n', hn', he⟩ := Keyed.contains_iff.mp hname
  have hroster := hw.within ho n' hn'
  exact List.inj_on_of_nodup_map hw.distinct hroster hn he ▸ hn'

/-- The baseline of a round that has looked up its cluster and then the routes of the cluster. -/
structure Compared (t : Terms) (w₀ : World) (baseline : Option View) (w : World) : Prop where
  stored : ∀ p, baseline = some p → w₀.viewOf t.cluster = some p
  compared : t.own → t.still → baseline = w₀.baselineOf t.cluster
  balanced : Balanced t (w₀.rosterOf t.cluster) ((w₀.rosterOf t.cluster).assured baseline) w

/-- A round compares with the stored view or with nothing. -/
lemma Standing.compared {e : Enrolment} {w₁ w₂ : World} (hw : Standing t w₀)
    (h₁ : t.surroundings.others w₀ w₁) (he : w₁.enrolments.find? t.cluster = some e)
    (h₂ : t.surroundings.others w₁ w₂) :
    Compared t w₀ (e.baseline (w₂.router.router.clusterRoute (.ofRemote t.cluster))) w₂ := by
  have hw₂ : Standing t w₂ := (hw.of_others h₁).of_others h₂
  have hroster : w₂.rosterOf t.cluster = w₀.rosterOf t.cluster := by
    rw [rosterOf_eq_of_spares h₂, rosterOf_eq_of_spares h₁]
  have htracked : e.tracked.map Handle.node = w₀.rosterOf t.cluster := by
    rw [← trackedOf_of_find? he, ← rosterOf, rosterOf_eq_of_spares h₁]
  have hview : e.view = w₀.viewOf t.cluster := by
    rw [← viewOf_of_find? he, World.Spares.view h₁]
  have hjoined : w₂.enrolments.contains t.cluster = true :=
    World.Spares.joined h₂ (Keyed.contains_of_find? he)
  have hbaseline : ∀ routed : NodeSet, e.baseline routed =
      if (w₀.rosterOf t.cluster).all fun n => routed.contains n.name then w₀.viewOf t.cluster
      else none := by
    intro routed
    rw [Enrolment.baseline, hview, ← htracked, List.all_map]
    rfl
  have hbalanced : Balanced t (w₀.rosterOf t.cluster) [] w₂ := by
    refine ⟨⟨hw₂.founded, hjoined, hroster, ?_, fun _ _ n hn => ?_⟩, hw.distinct⟩
    · rw [← hroster]
      exact hw₂.within
    · cases hn
  rw [hbaseline]
  by_cases hall : (w₀.rosterOf t.cluster).all fun n =>
      (w₂.router.router.clusterRoute (.ofRemote t.cluster)).contains n.name
  · rw [if_pos hall]
    refine ⟨fun p hp => hp, fun ho hq => ?_, ?_⟩
    · rw [clusterRoute_ofRemote (hw₂.founded.remote ho)] at hall
      rw [baselineOf, ← (World.Spares.trans h₁ h₂).routedOf_eq ho hq, if_pos hall]
    · refine ⟨⟨hw₂.founded, hjoined, hroster, hbalanced.books.within, fun ho _ n hn => ?_⟩,
        hw.distinct⟩
      have hn : n ∈ w₀.rosterOf t.cluster := Roster.mem_of_mem_assured hn
      rw [clusterRoute_ofRemote (hw₂.founded.remote ho), List.all_eq_true] at hall
      exact hw₂.mem_routedOf ho (hroster ▸ hn) (hall n hn)
  · rw [if_neg hall]
    refine ⟨fun p hp => ?_, fun ho hq => ?_, hbalanced⟩
    · cases hp
    · rw [clusterRoute_ofRemote (hw₂.founded.remote ho)] at hall
      rw [baselineOf, ← (World.Spares.trans h₁ h₂).routedOf_eq ho hq, if_neg hall]

/-- A round succeeds by storing the answered view once its cluster is in line with it. -/
lemma Compared.reconciled {w₂ : World} (hw : Standing t w₀) (hc : Compared t w₀ baseline w₂)
    (hreached : t.clean → gone = []) (hcluster : v.cluster = t.cluster) (haccepts : t.accepts v)
    (hb : Balanced t (((w₀.rosterOf t.cluster).leave gone).reconciled baseline v)
      (((w₀.rosterOf t.cluster).leave gone).reconciled baseline v) w) :
    Reconciled t w₀ gone baseline v (w.answer (.store t.cluster (some v))).2 := by
  obtain ⟨hbooks, hview⟩ := hb.books.store (some v)
  refine ⟨⟨Balanced.orderly ⟨hbooks, hb.distinct⟩, fun v' hv' => ?_⟩, hview, hbooks.roster,
    hreached, hc.stored, hc.compared, ?_⟩
  · obtain rfl := Option.some.inj (hview.symm.trans hv')
    refine ⟨haccepts, hcluster, fun n hn => ?_⟩
    rw [hbooks.roster] at hn
    refine Roster.listed_of_mem_reconciled (fun p hp n hn => ?_) hn
    exact (hw.listed p (hc.stored p hp)).2.2 n (Roster.mem_leave.mp hn).1
  · rw [hbooks.roster]
    exact hbooks.kept

end World

namespace Round

open World

variable {t : Terms} {w₀ : World}

/-- A round that gets through brings its cluster in line with the answered view. -/
lemma once_ensures (hw : Standing t w₀) :
    (once t.cluster).Ensures t.surroundings
      (fun changes w => ∃ gone baseline v, Reconciled t w₀ gone baseline v w ∧
        changes = v.changesSince baseline)
      (fun _ w => Orderly t w) w₀ := by
  refine ensures_query_bind fun w₁ h₁ => ⟨rfl, fun _ => ?_⟩
  have hanswer : t.surroundings.answer (.enrolment t.cluster) w₁ =
    (w₁.enrolments.find? t.cluster, w₁) := rfl
  rw [hanswer]
  cases he : w₁.enrolments.find? t.cluster with
  | none => exact ensures_throw fun w₂ h₂ => ((hw.of_others h₁).of_others h₂).toOrderly
  | some e =>
      refine ensures_query_bind fun w₂ h₂ => ⟨rfl, fun _ => ?_⟩
      have hc := hw.compared h₁ he h₂
      have hhandles : ∀ h ∈ e.tracked, h.cluster = t.cluster := by
        rw [← trackedOf_of_find? he]
        exact (hw.of_others h₁).founded.handles
      refine ensures_bind ((askForView_ensures hhandles hc.balanced).mono ?_ fun _ _ hx => hx)
      rintro v w₃ ⟨gone, hb₃, hreached, hcluster, haccepts⟩
      rw [Roster.leave_assured] at hb₃
      refine ensures_bind ((reconcile_ensures hb₃).mono ?_ fun _ _ hx => hx)
      rintro changes w₄ ⟨hb₄, hchanges⟩
      refine ensures_query_bind fun w₅ h₅ => ⟨rfl, fun _ => ensures_pure fun w₆ h₆ => ?_⟩
      have hreconciled := hc.reconciled hw hreached hcluster haccepts (hb₄.of_others h₅)
      exact ⟨gone, _, v, hreconciled.of_others h₆, hchanges⟩

/-- A round that ends leaves its cluster ready for the next one. If it has succeeded, the live
nodes are in line with the stored view; if it has failed, no view is stored. -/
theorem update_ensures (hw : Standing t w₀) :
    (update t.cluster).Ensures t.surroundings
      (fun changes w => ∃ gone baseline v, Reconciled t w₀ gone baseline v w ∧
        changes = v.changesSince baseline)
      (fun _ w => Standing t w ∧ w.viewOf t.cluster = none) w₀ := by
  refine ensures_query_bind fun w₁ h₁ => ⟨trivial, fun _ => ?_⟩
  have hw₁ : Standing t w₁ := hw.of_others h₁
  have hgoing : (t.surroundings.answer .isClosed w₁).1 = false := hw₁.founded.going
  rw [hgoing]
  refine ensures_tryCatch (ensures_of_others ((once_ensures hw).mono (fun _ _ hp => hp) ?_) h₁)
  intro x w₂ hw₂
  refine ensures_query_bind fun w₃ h₃ => ⟨rfl, fun _ => ensures_throw fun w₄ h₄ => ?_⟩
  obtain ⟨hstanding, hnone⟩ := (hw₂.of_others h₃).store_none
  exact ⟨hstanding.of_others h₄, (World.Spares.view h₄).trans hnone⟩

end Round

end Federation
