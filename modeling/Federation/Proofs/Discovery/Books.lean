import Federation.Proofs.Discovery.Rules
import Federation.Proofs.Simulation.Spared

/-!
The books that a round keeps of its cluster.

* `Terms`: on what a round for a cluster can count, and `Terms.surroundings`, what that makes of
  its surroundings.
* `World.Standing`: what holds of a cluster between its rounds.
* `World.Books`: what holds of a cluster during a round: its live nodes, the nodes that may be
  routed, and the nodes that certainly are.
* `World.Books.route`, `World.Books.unroute`, `World.Books.track`, `World.Books.untrack`: what the
  steps of the round do to the books. `World.Books.of_others`: nobody else touches them.
-/

namespace Federation

/-- On what a round can count. If a cluster is its `own`, nobody else changes the routes of the
cluster, save that all routes may be removed at once; if it is `still`, that does not happen during
the round either. A `clean` round finds that every node which is connected or asked for its view
answers, and the views that nodes answer are those that it `accepts`. -/
structure Terms where
  cluster : String
  own : Prop
  still : Prop
  clean : Prop
  accepts : View → Prop

namespace Terms

/-- The answers that a round counts on. -/
def Admits (t : Terms) : (q : Query) → q.Answer → Prop
  | .connect _, a => t.clean → a = .ok ()
  | .membership _, a => (∀ v, a = .ok v → t.accepts v) ∧ (t.clean → ∃ v, a = .ok v)
  | _, _ => True

/-- The surroundings of a round. -/
def surroundings (t : Terms) : Surroundings Query Query.Answer World where
  answer := World.answer
  others := World.Spares t.own t.still t.cluster
  refl := World.Spares.refl
  trans := World.Spares.trans
  allows q _ := q.Concerns t.cluster
  admits := t.Admits

end Terms

namespace World

variable {w w' : World} {t : Terms} {L M S : Roster} {h : Handle}

/-- What is known of the published views is known of those that nodes answer. -/
lemma admits_answer (hclean : ¬t.clean) (hviews : ∀ v ∈ w.network.views.toList, t.accepts v)
    (q : Query) : t.Admits q (w.answer q).1 := by
  cases q with
  | connect h => exact fun hc => absurd hc hclean
  | membership h =>
      exact ⟨fun v hv => hviews v (mem_views_of_membership hv), fun hc => absurd hc hclean⟩
  | _ => trivial

/-- A step of a round spares the other clusters. -/
lemma spares_step {own still : Prop} {d : String} {α : Type} {post : α → World → Prop}
    {p : Program Query Query.Answer α} (hp : p.Ensures t.surroundings post w) (hd : d ≠ t.cluster) :
    Spares own still d w (Program.step answer (p, w)).2 := by
  rw [Program.step_snd]
  cases hq : p.question? with
  | none => exact Spares.refl w
  | some q => exact spares_answer (hp.allows_of_question hq) hd

/-! ### Between rounds -/

/-- What holds of a cluster whenever a round for it ends, even if it fails. -/
structure Orderly (t : Terms) (w : World) : Prop where
  founded : w.Founded t.own t.cluster
  distinct : (w.rosterOf t.cluster).Distinct
  within : t.own → ∀ n ∈ (w.routedOf t.cluster).toList, n ∈ w.rosterOf t.cluster

/-- What holds of a cluster between its rounds. -/
structure Standing (t : Terms) (w : World) : Prop extends Orderly t w where
  listed : ∀ v, w.viewOf t.cluster = some v →
    t.accepts v ∧ v.cluster = t.cluster ∧ ∀ n ∈ w.rosterOf t.cluster, n ∈ v.nodes

lemma rosterOf_eq_of_spares {own still : Prop} {c : String} (hs : Spares own still c w w') :
    w'.rosterOf c = w.rosterOf c := by
  rw [rosterOf, rosterOf, hs.tracked]

/-- Routes stay as they are if nobody removes them. -/
lemma Spares.routedOf_eq {own still : Prop} {c : String} (hs : Spares own still c w w') (hown : own)
    (hstill : still) : w'.routedOf c = w.routedOf c := by
  rcases hs.routed hown with hr | ⟨hn, -⟩
  · exact hr
  · exact absurd hstill hn

/-- Routes stay as they are or are removed. -/
lemma Spares.mem_routedOf {own still : Prop} {c : String} (hs : Spares own still c w w')
    (hown : own) {n : Node} (hn : n ∈ (w'.routedOf c).toList) : n ∈ (w.routedOf c).toList := by
  rcases hs.routed hown with hr | ⟨-, hr⟩
  · exact hr ▸ hn
  · rw [hr] at hn
    cases hn

lemma Orderly.of_others (hw : Orderly t w) (hs : t.surroundings.others w w') : Orderly t w' := by
  have hs : Spares t.own t.still t.cluster w w' := hs
  refine ⟨hs.founded hw.founded, ?_, fun ho n hn => ?_⟩
  · rw [rosterOf_eq_of_spares hs]
    exact hw.distinct
  · rw [rosterOf_eq_of_spares hs]
    exact hw.within ho n (hs.mem_routedOf ho hn)

lemma Standing.of_others (hw : Standing t w) (hs : t.surroundings.others w w') : Standing t w' := by
  refine ⟨hw.toOrderly.of_others hs, ?_⟩
  rw [rosterOf_eq_of_spares hs, World.Spares.view hs]
  exact hw.listed

/-- A cluster stands the same for rounds that can count on other things. -/
lemma Standing.congr {t' : Terms} (hw : Standing t w) (hc : t'.cluster = t.cluster)
    (ho : t'.own → t.own) (hp : ∀ v, t.accepts v → t'.accepts v) : Standing t' w := by
  obtain ⟨⟨hfounded, hdistinct, hwithin⟩, hlisted⟩ := hw
  rw [← hc] at hfounded hdistinct hwithin hlisted
  refine ⟨⟨⟨hfounded.going, hfounded.registered, hfounded.handles, fun h => hfounded.remote (ho h)⟩,
    hdistinct, fun h => hwithin (ho h)⟩, fun v hv => ?_⟩
  obtain ⟨hv, hrest⟩ := hlisted v hv
  exact ⟨hp v hv, hrest⟩

/-- Without a stored view a cluster is ready for its next round. -/
lemma Orderly.store_none (hw : Orderly t w) :
    Standing t (w.answer (.store t.cluster none)).2 ∧
      (w.answer (.store t.cluster none)).2.viewOf t.cluster = none := by
  obtain ⟨hjoined, htracked, hview⟩ := @store_keeps w t.cluster none
  have hnone : (w.answer (.store t.cluster none)).2.viewOf t.cluster = none := by
    rw [hview]
    cases w.enrolments.find? t.cluster <;> rfl
  have hroster :
      (w.answer (.store t.cluster none)).2.rosterOf t.cluster = w.rosterOf t.cluster := by
    rw [rosterOf, htracked, ← rosterOf]
  refine ⟨⟨⟨hw.founded.of_eq rfl rfl hjoined htracked, ?_, ?_⟩, fun v hv => ?_⟩, hnone⟩
  · rw [hroster]
    exact hw.distinct
  · rw [hroster]
    exact hw.within
  · rw [hnone] at hv
    cases hv

/-! ### During a round -/

/-- What holds of a cluster during a round. -/
structure Books (t : Terms) (L M S : Roster) (w : World) : Prop where
  founded : w.Founded t.own t.cluster
  joined : w.enrolments.contains t.cluster = true
  roster : w.rosterOf t.cluster = L
  within : t.own → ∀ n ∈ (w.routedOf t.cluster).toList, n ∈ M
  kept : t.own → t.still → ∀ n ∈ S, n ∈ (w.routedOf t.cluster).toList

namespace Books

/-- Nobody else touches the books. -/
lemma of_others (hb : Books t L M S w) (hs : t.surroundings.others w w') : Books t L M S w' := by
  have hs : Spares t.own t.still t.cluster w w' := hs
  refine ⟨hs.founded hb.founded, hs.joined hb.joined, ?_, fun ho n hn => ?_, fun ho hq n hn => ?_⟩
  · rw [rosterOf_eq_of_spares hs]
    exact hb.roster
  · exact hb.within ho n (hs.mem_routedOf ho hn)
  · rw [hs.routedOf_eq ho hq]
    exact hb.kept ho hq n hn

/-- Less may be said of what is routed. -/
lemma forget (hb : Books t L M S w) {S' : Roster} (hS : ∀ n ∈ S', n ∈ S) : Books t L M S' w :=
  ⟨hb.founded, hb.joined, hb.roster, hb.within, fun ho hq n hn => hb.kept ho hq n (hS n hn)⟩

/-- A step on the network does not touch the books. -/
lemma of_network (hb : Books t L M S w) (net : Network) : Books t L M S { w with network := net } :=
  hb.of_others (Spares.of_network net)

lemma exists_enrolment (hb : Books t L M S w) : ∃ e, w.enrolments.find? t.cluster = some e := by
  rw [← Option.isSome_iff_exists, ← Keyed.contains_eq_isSome]
  exact hb.joined

/-! ### Handles -/

lemma cluster_of_mem (hb : Books t L M S w) (hh : h ∈ w.trackedOf t.cluster) :
    h.cluster = t.cluster :=
  hb.founded.handles h hh

/-- A new handle is one for the node and the cluster, and the books do not mention it yet. -/
lemma build (hb : Books t L M S w) (n : Node) :
    Books t L M S (w.answer (.build t.cluster n)).2 ∧
      (w.answer (.build t.cluster n)).1.cluster = t.cluster ∧
      (w.answer (.build t.cluster n)).1.node = n := by
  obtain ⟨e, he⟩ := hb.exists_enrolment
  have hfind := (find?_build n (w := w)).trans (if_pos (Eq.refl t.cluster))
  rw [he, Option.map_some] at hfind
  have hanswer : (w.answer (.build t.cluster n)).1 = e.nextHandle n := by
    rw [answer, World.build, he]
  refine ⟨hb.of_others (Spares.of_eq ?_ ?_ ?_ ?_ ?_ ?_), ?_, ?_⟩
  · rw [answer, World.build, he]
  · rw [answer, World.build, he]
    rfl
  · rw [Keyed.contains_eq_isSome, Keyed.contains_eq_isSome, hfind, he]
    rfl
  · rw [trackedOf_of_find? hfind, trackedOf_of_find? he]
    rfl
  · rw [viewOf_of_find? hfind, viewOf_of_find? he]
    rfl
  · rw [answer, World.build, he]
    rfl
  · rw [hanswer]
    exact (Keyed.find?_eq_some_iff.mp he).2
  · rw [hanswer]
    rfl

/-! ### Live nodes -/

/-- A change of what is known of the cluster, which keeps routes and handles in order. -/
lemma of_find? (hb : Books t L M S w) {e : Enrolment} (hclosed : w'.closed = w.closed)
    (hreg : w'.registered = w.registered) (hrouted : w'.routedOf t.cluster = w.routedOf t.cluster)
    (hfind : w'.enrolments.find? t.cluster = some e)
    (hhandles : ∀ h ∈ e.tracked, h.cluster = t.cluster) :
    Books t (e.tracked.map Handle.node) M S w' := by
  have htracked := trackedOf_of_find? hfind
  refine ⟨⟨?_, ?_, ?_, ?_⟩, ?_, ?_, ?_, ?_⟩
  · rw [hclosed]
    exact hb.founded.going
  · rw [hreg]
    exact fun _ => hb.founded.registered hb.joined
  · rw [htracked]
    exact hhandles
  · rw [hreg]
    exact hb.founded.remote
  · exact Keyed.contains_of_find? hfind
  · rw [rosterOf, htracked]
  · rw [hrouted]
    exact hb.within
  · rw [hrouted]
    exact hb.kept

/-- A live node comes last. -/
lemma track (hb : Books t L M S w) (hc : h.cluster = t.cluster) :
    Books t (L ++ [h.node]) M S (w.answer (.track h)).2 := by
  obtain ⟨e, he⟩ := hb.exists_enrolment
  have hfind := (@find?_track w t.cluster h).trans (if_pos hc.symm)
  rw [he, Option.map_some] at hfind
  have hroster : (e.track h).tracked.map Handle.node = L ++ [h.node] := by
    rw [Enrolment.track, List.map_append, ← trackedOf_of_find? he, ← hb.roster]
    rfl
  rw [← hroster]
  refine hb.of_find? rfl rfl rfl hfind fun x hx => ?_
  rcases List.mem_append.mp hx with hx | hx
  · exact hb.cluster_of_mem ((trackedOf_of_find? he).symm ▸ hx)
  · exact List.mem_singleton.mp hx ▸ hc

/-- The live nodes of a name are forgotten. -/
lemma untrack (hb : Books t L M S w) (hc : h.cluster = t.cluster) :
    Books t (L.without h.node.name) M S (w.answer (.untrack h)).2 := by
  obtain ⟨e, he⟩ := hb.exists_enrolment
  have hfind := (@find?_untrack w t.cluster h).trans (if_pos hc.symm)
  rw [he, Option.map_some] at hfind
  have hroster : (e.untrack h.node.name).tracked.map Handle.node = L.without h.node.name := by
    rw [Enrolment.untrack, ← hb.roster, rosterOf, trackedOf_of_find? he, Roster.without,
      List.filter_map]
    rfl
  rw [← hroster]
  refine hb.of_find? rfl rfl rfl hfind fun x hx => ?_
  exact hb.cluster_of_mem ((trackedOf_of_find? he).symm ▸ (List.mem_filter.mp hx).1)

/-- The stored view is replaced. -/
lemma store (hb : Books t L M S w) (v : Option View) :
    Books t L M S (w.answer (.store t.cluster v)).2 ∧
      (w.answer (.store t.cluster v)).2.viewOf t.cluster = v := by
  obtain ⟨e, he⟩ := hb.exists_enrolment
  obtain ⟨hjoined, htracked, hview⟩ := @store_keeps w t.cluster v
  rw [he, Option.bind_some] at hview
  refine ⟨⟨hb.founded.of_eq rfl rfl hjoined htracked, hjoined.trans hb.joined, ?_, hb.within,
    hb.kept⟩, hview⟩
  rw [rosterOf, htracked, ← rosterOf]
  exact hb.roster

/-! ### Routes -/

/-- A change of the routes of the cluster. -/
lemma of_routed (hb : Books t L M S w) {M' S' : Roster} (hclosed : w'.closed = w.closed)
    (henrol : w'.enrolments = w.enrolments) (hreg : w'.registered = w.registered)
    (hM : t.own → ∀ n ∈ (w'.routedOf t.cluster).toList, n ∈ M')
    (hS : t.own → t.still → ∀ n ∈ S', n ∈ (w'.routedOf t.cluster).toList) :
    Books t L M' S' w' := by
  have htracked : w'.trackedOf t.cluster = w.trackedOf t.cluster :=
    trackedOf_eq_of_find?_eq (congrArg (Keyed.find? · t.cluster) henrol)
  have hjoined : w'.enrolments.contains t.cluster = w.enrolments.contains t.cluster :=
    congrArg (Keyed.contains · t.cluster) henrol
  refine ⟨hb.founded.of_eq hclosed hreg hjoined htracked, hjoined.trans hb.joined, ?_, hM, hS⟩
  rw [rosterOf, htracked, ← rosterOf]
  exact hb.roster

/-- The routes to the nodes of a name are removed. -/
lemma unroute (hb : Books t L M S w) (hc : h.cluster = t.cluster) :
    Books t L (M.without h.node.name) (S.without h.node.name) (w.answer (.unroute h)).2 := by
  have hreg : w.registered.contains h.cluster = true := hc ▸ hb.founded.registered hb.joined
  have hrouted : (w.unroute h).routedOf t.cluster = (w.routedOf t.cluster).erase h.node.name := by
    rw [routedOf_unroute hreg, if_pos hc.symm, hc]
  obtain ⟨hclosed, henrol, hregs⟩ := unroute_keeps (w := w) (h := h)
  refine hb.of_routed hclosed henrol hregs (fun ho n hn => ?_) fun ho hq n hn => ?_
  · rw [answer, hrouted, Keyed.mem_erase] at hn
    exact Roster.mem_without.mpr ⟨hb.within ho n hn.1, hn.2⟩
  · obtain ⟨hn, hname⟩ := Roster.mem_without.mp hn
    rw [answer, hrouted, Keyed.mem_erase]
    exact ⟨hb.kept ho hq n hn, hname⟩

/-- A node is routed. -/
lemma route (hb : Books t L M S w) (hc : h.cluster = t.cluster)
    (hr : (w.answer (.route h)).1 = .ok ()) :
    Books t L (M ++ [h.node]) (S ++ [h.node]) (w.answer (.route h)).2 := by
  obtain ⟨hnew, hrouted⟩ := routedOf_route hr
  have hrouted : (w.route h).2.routedOf t.cluster = (w.routedOf t.cluster).insert h.node := by
    rw [hrouted, if_pos hc.symm, hc]
  rw [hc] at hnew
  obtain ⟨hclosed, henrol, hregs⟩ := route_keeps (w := w) (h := h)
  refine hb.of_routed hclosed henrol hregs (fun ho n hn => ?_) fun ho hq n hn => ?_
  · rw [answer, hrouted, Keyed.mem_insert] at hn
    rw [List.mem_append, List.mem_singleton]
    exact hn.symm.imp (fun hn => hb.within ho n hn.1) id
  · rw [List.mem_append, List.mem_singleton] at hn
    rw [answer, hrouted, Keyed.mem_insert]
    refine hn.symm.imp id fun hn => ?_
    have hmem := hb.kept ho hq n hn
    exact ⟨hmem, Keyed.contains_eq_false_iff.mp hnew n hmem⟩

/-- A route that is refused is not in the books. -/
lemma route_of_error (hb : Books t L M S w) {x : Fault} (hr : (w.answer (.route h)).1 = .error x) :
    Books t L M S (w.answer (.route h)).2 := by
  have hsame : (w.answer (.route h)).2 = w := World.route_of_error hr
  rw [hsame]
  exact hb

end Books

end World

end Federation
