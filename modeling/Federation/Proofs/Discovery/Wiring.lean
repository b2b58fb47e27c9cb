import Federation.Proofs.Discovery.Rules
import Federation.Proofs.Simulation.Aside

/-!
The connections that a round opens and closes.

* `World.Accounted`: no handle of a cluster is connected but its live nodes. A round may end
  wherever this holds.
* `World.Settled`: what holds between the rounds of a cluster. With a stored view all live nodes are
  connected.
* `World.Wired`: what holds during a round: its live nodes, the bootstrap node if that is connected,
  and the names of the live nodes that are certainly connected.
* `World.Covered`: what holds when a round takes a step outside of itself: apart from the live nodes
  only the node with which the step deals (`Query.partner?`) is connected.
* `World.Wired.connect`, `World.Wired.disconnect`, `World.Wired.track`, `World.Wired.untrack`: what
  the steps of the round do. `World.Wired.of_others`: nobody else contacts the nodes.
-/

namespace Federation

/-- The node with which a step deals for as long as that takes. -/
def Query.partner? : Query → Option Handle
  | disconnect h | delay h | membership h => some h
  | _ => none

/-- The step is of no concern to the connections. -/
def Query.Inert : Query → Prop
  | connect _ | disconnect _ | track _ | untrack _ | store _ _ => False
  | _ => True

namespace World

variable {w w' : World} {c : String} {b? : Option Handle} {L : List Handle} {K : Set String}
  {h : Handle} {q : Query}

/-! ### Between rounds -/

/-- What holds of the connections of a cluster wherever a round may end. -/
structure Accounted (c : String) (w : World) : Prop where
  founded : w.Founded False c
  labelled : w.Labelled c
  distinct : ((w.trackedOf c).map fun h => h.node.name).Nodup
  serials : ∀ h ∈ w.trackedOf c, h.serial < w.builtOf c
  alternates : w.network.Alternates c
  links : ∀ h ∈ w.network.links, h.cluster = c → h ∈ w.trackedOf c

/-- What holds of the connections of a cluster between its rounds. -/
structure Settled (c : String) (w : World) : Prop extends Accounted c w where
  viewed : ∀ v, w.viewOf c = some v → ∀ h ∈ w.trackedOf c, h ∈ w.network.links

/-- All live nodes of the cluster are connected. -/
def Linked (c : String) (w : World) : Prop := ∀ h ∈ w.trackedOf c, h ∈ w.network.links

lemma Accounted.of_others (hw : Accounted c w) (hs : Aside c w w') : Accounted c w' := by
  have htracked : w'.trackedOf c = w.trackedOf c := hs.spares.tracked
  refine ⟨hs.spares.founded hw.founded, hs.labelled hw.labelled, ?_, fun h hh => ?_,
    hs.alternates hw.alternates, fun h hh hc => ?_⟩
  · rw [htracked]
    exact hw.distinct
  · rw [htracked] at hh
    exact (hw.serials h hh).trans_le hs.built
  · rw [htracked]
    exact hw.links h ((hs.links h hc).mp hh) hc

lemma Accounted.linked_of_others (hw : Accounted c w) (hs : Aside c w w') (hl : Linked c w) :
    Linked c w' := by
  intro h hh
  rw [hs.spares.tracked] at hh
  exact (hs.links h (hw.founded.handles h hh)).mpr (hl h hh)

lemma Settled.of_others (hw : Settled c w) (hs : Aside c w w') : Settled c w' := by
  refine ⟨hw.toAccounted.of_others hs, fun v hv => ?_⟩
  rw [World.Spares.view hs.spares] at hv
  exact hw.linked_of_others hs (hw.viewed v hv)

/-- A stored view changes nothing about the connections. -/
lemma Accounted.store (hw : Accounted c w) (v : Option View) :
    Accounted c (w.answer (.store c v)).2 := by
  obtain ⟨hjoined, htracked, -⟩ := @store_keeps w c v
  have hfind := (find?_store v (w := w)).trans (if_pos (Eq.refl c))
  refine ⟨hw.founded.of_eq rfl rfl hjoined htracked, fun e he => ?_, ?_, ?_, hw.alternates, ?_⟩
  · rw [hfind] at he
    obtain ⟨e', he', rfl⟩ := Option.map_eq_some_iff.mp he
    exact hw.labelled e' he'
  · rw [htracked]
    exact hw.distinct
  · have hbuilt : (w.answer (.store c v)).2.builtOf c = w.builtOf c := by
      rw [builtOf, hfind, builtOf, Option.map_map]
      rfl
    rw [htracked, hbuilt]
    exact hw.serials
  · rw [htracked]
    exact hw.links

/-- Without a stored view nothing has to be known of the live nodes. -/
lemma Accounted.store_none (hw : Accounted c w) : Settled c (w.answer (.store c none)).2 := by
  refine ⟨hw.store none, fun v hv => ?_⟩
  rw [(store_keeps none).2.2] at hv
  cases hf : w.enrolments.find? c <;> simp [hf] at hv

/-- A view may be stored once all live nodes are connected. -/
lemma Accounted.store_some (hw : Accounted c w) (hl : Linked c w) (v : View) :
    Settled c (w.answer (.store c (some v))).2 ∧ Linked c (w.answer (.store c (some v))).2 := by
  have hlinked : Linked c (w.answer (.store c (some v))).2 := by
    rw [Linked, (store_keeps (some v)).2.1]
    exact hl
  exact ⟨⟨hw.store (some v), fun _ _ => hlinked⟩, hlinked⟩

/-! ### During a round -/

/-- What holds of the connections of a cluster during a round. -/
structure Wired (c : String) (b? : Option Handle) (L : List Handle) (K : Set String) (w : World) :
    Prop where
  founded : w.Founded False c
  labelled : w.Labelled c
  joined : w.enrolments.contains c = true
  tracked : w.trackedOf c = L
  distinct : (L.map fun h => h.node.name).Nodup
  serials : ∀ h ∈ L, h.serial < w.builtOf c
  alternates : w.network.Alternates c
  links : ∀ h ∈ w.network.links, h.cluster = c → h ∈ L ∨ h ∈ b?
  opened : ∀ b ∈ b?, b.cluster = c ∧ b ∈ w.network.links
  known : ∀ h ∈ L, h.node.name ∈ K → h ∈ w.network.links

/-- Apart from the live nodes only the node with which a step deals is connected. A node that is
asked for its view is live, unless the cluster has no live nodes; then it is connected. -/
structure Covered (c : String) (q : Query) (w : World) : Prop where
  founded : w.Founded False c
  alternates : w.network.Alternates c
  links : ∀ h ∈ w.network.links, h.cluster = c → h ∈ w.trackedOf c ∨ q.partner? = some h
  asked : ∀ h, q = .membership h →
    h ∈ w.trackedOf c ∨ (w.trackedOf c = [] ∧ h ∈ w.network.links)

/-- Where only live nodes are connected, a round may take any step that does not ask for a view. -/
lemma Accounted.covered (hw : Accounted c w) (hq : ∀ h, q ≠ .membership h) : Covered c q w :=
  ⟨hw.founded, hw.alternates, fun h hh hc => Or.inl (hw.links h hh hc), fun h he =>
    absurd he (hq h)⟩

/-- The surroundings of a round as far as connections go. -/
def wiring (c : String) : Surroundings Query Query.Answer World where
  answer := World.answer
  others := Aside c
  refl := Aside.refl
  trans := Aside.trans
  allows q w := q.IsFor c ∧ w.Covered c q
  admits _ _ := True

namespace Wired

lemma cluster_of_mem (hw : Wired c b? L K w) (hh : h ∈ L) : h.cluster = c :=
  hw.founded.handles h (hw.tracked.symm ▸ hh)

/-- Nobody else contacts the nodes of the cluster. -/
lemma of_others (hw : Wired c b? L K w) (hs : Aside c w w') : Wired c b? L K w' := by
  refine ⟨hs.spares.founded hw.founded, hs.labelled hw.labelled, hs.spares.joined hw.joined,
    hs.spares.tracked.trans hw.tracked, hw.distinct,
    fun h hh => (hw.serials h hh).trans_le hs.built, hs.alternates hw.alternates, fun h hh hc => ?_,
    fun b hb => ?_, fun h hh hk => ?_⟩
  · exact hw.links h ((hs.links h hc).mp hh) hc
  · obtain ⟨hc, hl⟩ := hw.opened b hb
    exact ⟨hc, (hs.links b hc).mpr hl⟩
  · exact (hs.links h (hw.cluster_of_mem hh)).mpr (hw.known h hh hk)

/-- Less may be said of what is connected. -/
lemma forget (hw : Wired c b? L K w) {K' : Set String} (hK : K' ⊆ K) : Wired c b? L K' w :=
  { hw with known := fun h hh hk => hw.known h hh (hK hk) }

/-- All live nodes are connected if their names say so. -/
lemma all (hw : Wired c b? L K w) (hK : ∀ h ∈ L, h.node.name ∈ K) : Wired c b? L Set.univ w :=
  { hw with known := fun h hh _ => hw.known h hh (hK h hh) }

lemma accounted (hw : Wired c none L K w) : Accounted c w := by
  obtain ⟨hfounded, hlabelled, -, rfl, hdistinct, hserials, halternates, hlinks, -, -⟩ := hw
  exact ⟨hfounded, hlabelled, hdistinct, hserials, halternates, fun h hh hc =>
    (hlinks h hh hc).resolve_right (by simp)⟩

lemma linked (hw : Wired c b? L Set.univ w) : Linked c w := by
  intro h hh
  rw [hw.tracked] at hh
  exact hw.known h hh trivial

lemma exists_enrolment (hw : Wired c b? L K w) : ∃ e, w.enrolments.find? c = some e := by
  rw [← Option.isSome_iff_exists, ← Keyed.contains_eq_isSome]
  exact hw.joined

/-- Without a bootstrap node that is connected, a round may take any step that does not ask for a
view. -/
lemma covered (hw : Wired c none L K w) (hq : ∀ h, q ≠ .membership h) : Covered c q w :=
  hw.accounted.covered hq

/-- A round may deal with a live node or, without live nodes, the connected bootstrap node. -/
lemma covered_partner (hw : Wired c b? L K w) (hq : q.partner? = some h) (hb : ∀ b ∈ b?, b = h)
    (hh : h ∈ L ∨ (L = [] ∧ h ∈ b?)) : Covered c q w := by
  refine ⟨hw.founded, hw.alternates, fun x hx hc => ?_, fun x he => ?_⟩
  · rw [hw.tracked, hq]
    exact (hw.links x hx hc).imp_right fun hxb => congrArg some (hb x hxb).symm
  · subst he
    obtain rfl := Option.some.inj hq
    rw [hw.tracked]
    exact hh.imp_right fun ⟨hL, hxb⟩ => ⟨hL, (hw.opened x hxb).2⟩

end Wired

/-- Between rounds nothing but the live nodes is connected. If a view is stored, they all are. -/
lemma Settled.wired {e : Enrolment} (hw : Settled c w) (he : w.enrolments.find? c = some e) :
    Wired c none e.tracked {_name | e.view.isSome = true} w := by
  have htracked := trackedOf_of_find? he
  obtain ⟨⟨hfounded, hlabelled, hdistinct, hserials, halternates, hlinks⟩, hviewed⟩ := hw
  rw [viewOf_of_find? he] at hviewed
  rw [htracked] at hdistinct hserials hlinks hviewed
  refine ⟨hfounded, hlabelled, ?_, htracked, hdistinct, hserials, halternates,
    fun h hh hc => Or.inl (hlinks h hh hc), fun b hb => absurd hb (by simp), fun h hh hk => ?_⟩
  · exact Keyed.contains_of_find? he
  · obtain ⟨v, hv⟩ := Option.isSome_iff_exists.mp hk
    exact hviewed v hv h hh

/-! ### Steps -/

/-- A change of the routes only, where others look after these. -/
lemma Aside.of_router (hclosed : w'.closed = w.closed) (hreg : w'.registered = w.registered)
    (henrolments : w'.enrolments = w.enrolments) (hnetwork : w'.network = w.network) :
    Aside c w w' := by
  have hfind : w'.enrolments.find? c = w.enrolments.find? c :=
    congrArg (Keyed.find? · c) henrolments
  have htracked := trackedOf_eq_of_find?_eq hfind
  have hjoined := contains_eq_of_find?_eq hfind
  refine Aside.of_find?_eq ⟨fun hf => hf.of_eq hclosed hreg hjoined htracked, fun hj =>
    hjoined.trans hj, htracked, viewOf_eq_of_find?_eq hfind, fun h => h.elim⟩ hfind
    (fun x _ => ?_) fun ha => ?_
  · rw [hnetwork]
  · rwa [hnetwork]

/-- One more handle is built. -/
lemma aside_build (n : Node) : Aside c w (w.answer (.build c n)).2 := by
  have hfind := (find?_build n (w := w)).trans (if_pos (Eq.refl c))
  have hnetwork : (w.answer (.build c n)).2.network = w.network := network_answer w _
  refine ⟨Spares.of_eq ?_ ?_ ?_ ?_ ?_ ?_, fun hl e he => ?_, ?_, fun x _ => ?_, fun ha => ?_⟩
  · rw [answer, World.build]
    split <;> rfl
  · rw [answer, World.build]
    split <;> rfl
  · rw [Keyed.contains_eq_isSome, Keyed.contains_eq_isSome, hfind, Option.isSome_map]
  · rw [trackedOf, trackedOf, hfind, Option.map_map]
    rfl
  · rw [viewOf, viewOf, hfind, Option.bind_map]
    rfl
  · rw [answer, World.build]
    split <;> rfl
  · rw [hfind] at he
    obtain ⟨e', he', rfl⟩ := Option.map_eq_some_iff.mp he
    exact hl e' he'
  · rw [builtOf, builtOf, hfind]
    cases w.enrolments.find? c with
    | none => exact le_rfl
    | some e => exact Nat.le_succ e.built
  · rw [hnetwork]
  · rwa [hnetwork]

/-- A step that is of no concern to the connections is taken aside from the rounds of every
cluster. -/
lemma aside_of_inert (hq : q.Inert) : Aside c w (w.answer q).2 := by
  cases q with
  | connect _ | disconnect _ | track _ | untrack _ | store _ _ => exact hq.elim
  | isClosed | enrolment _ | routes _ | delay _ => exact Aside.refl w
  | membership h => exact Aside.of_find?_eq (Spares.of_network _) rfl (fun _ _ => Iff.rfl) id
  | build d n =>
      by_cases hd : c = d
      · subst hd
        exact aside_build n
      · exact aside_answer (c := d) rfl hd
  | route h =>
      obtain ⟨hclosed, henrolments, hreg⟩ := route_keeps (w := w) (h := h)
      exact Aside.of_router hclosed hreg henrolments (network_answer w (.route h))
  | unroute h =>
      obtain ⟨hclosed, henrolments, hreg⟩ := unroute_keeps (w := w) (h := h)
      exact Aside.of_router hclosed hreg henrolments (network_answer w (.unroute h))

namespace Wired

lemma of_inert (hw : Wired c b? L K w) (hq : q.Inert) : Wired c b? L K (w.answer q).2 :=
  hw.of_others (aside_of_inert hq)

/-! ### Contacts -/

lemma of_network (hw : Wired c b? L K w) {b?' : Option Handle} {K' : Set String} {net : Network}
    (halternates : net.Alternates c)
    (hlinks : ∀ x ∈ net.links, x.cluster = c → x ∈ L ∨ x ∈ b?')
    (hopened : ∀ b ∈ b?', b.cluster = c ∧ b ∈ net.links)
    (hknown : ∀ x ∈ L, x.node.name ∈ K' → x ∈ net.links) :
    Wired c b?' L K' { w with network := net } :=
  ⟨hw.founded.of_eq rfl rfl rfl rfl, hw.labelled, hw.joined, hw.tracked, hw.distinct, hw.serials,
    halternates, hlinks, hopened, hknown⟩

/-- A live node that is not connected yet is connected, or else it stays as it is. -/
lemma connect (hw : Wired c none L K w) (hh : h ∈ L) (hnew : h ∉ w.network.links) :
    Wired c none L K (w.answer (.connect h)).2 ∧ ((w.answer (.connect h)).1 = .ok () →
      Wired c none L (insert h.node.name K) (w.answer (.connect h)).2) := by
  have halternates := Network.alternates_connect.mpr ⟨fun _ _ => hnew, hw.alternates⟩
  have hlinks : ∀ x ∈ (w.network.connect h).2.links, x.cluster = c →
      x ∈ L ∨ x ∈ (none : Option Handle) := by
    intro x hx hc
    rcases Network.mem_links_connect.mp hx with hx | ⟨rfl, -⟩
    · exact hw.links x hx hc
    · exact Or.inl hh
  refine ⟨hw.of_network halternates hlinks (by simp) fun x hx hk => ?_, fun hok =>
    hw.of_network halternates hlinks (by simp) fun x hx hk => ?_⟩
  · exact Network.mem_links_connect.mpr (Or.inl (hw.known x hx hk))
  · refine Network.mem_links_connect.mpr ?_
    rcases hk with hk | hk
    · -- a name singles out a live node
      exact Or.inr ⟨List.inj_on_of_nodup_map hw.distinct hx hh hk, hok⟩
    · exact Or.inl (hw.known x hx hk)

/-- Without live nodes, a bootstrap node is connected or else nothing is. -/
lemma connect_bootstrap (hw : Wired c none [] K w) (hc : h.cluster = c) :
    Wired c (if (w.answer (.connect h)).1.isOk then some h else none) [] K
      (w.answer (.connect h)).2 := by
  have hnone : ∀ x ∈ w.network.links, x.cluster ≠ c := fun x hx hxc => by
    simpa using hw.links x hx hxc
  have halternates := Network.alternates_connect.mpr
    ⟨fun _ _ hl => hnone h hl hc, hw.alternates⟩
  have hok : ∀ x, x ∈ (if (w.answer (.connect h)).1.isOk then some h else none) ↔
      x = h ∧ (w.answer (.connect h)).1 = .ok () := by
    intro x
    cases (w.answer (.connect h)).1 <;> simp [Except.isOk, Except.toBool, eq_comm]
  refine hw.of_network halternates (fun x hx hxc => ?_) (fun b hb => ?_) (by simp)
  · rcases Network.mem_links_connect.mp hx with hx | hx
    · exact absurd hxc (hnone x hx)
    · exact Or.inr ((hok x).mpr hx)
  · obtain ⟨rfl, hanswer⟩ := (hok b).mp hb
    exact ⟨hc, Network.mem_links_connect.mpr (Or.inr ⟨rfl, hanswer⟩)⟩

/-- The bootstrap node is disconnected. -/
lemma disconnect_bootstrap (hw : Wired c (some h) [] K w) :
    Wired c none [] K (w.answer (.disconnect h)).2 := by
  refine hw.of_network hw.alternates (fun x hx hxc => ?_) (by simp) (by simp)
  obtain ⟨hne, hx⟩ := Finset.mem_erase.mp hx
  exact (hw.links x hx hxc).imp_right fun hxh => absurd (Option.some.inj hxh).symm hne

/-- A node is disconnected, and its name is not among the connected ones any more. -/
lemma disconnect (hw : Wired c none L K w) :
    Wired c none L (K \ {h.node.name}) (w.answer (.disconnect h)).2 ∧
      h ∉ (w.answer (.disconnect h)).2.network.links := by
  refine ⟨hw.of_network hw.alternates (fun x hx hxc => hw.links x (Finset.mem_of_mem_erase hx) hxc)
    (by simp) fun x hx hk => ?_, Finset.notMem_erase h w.network.links⟩
  refine Finset.mem_erase.mpr ⟨?_, hw.known x hx hk.1⟩
  rintro rfl
  exact hk.2 rfl

/-! ### Live nodes -/

/-- A change of the live nodes, which keeps handles and connections in order. -/
lemma of_find? (hw : Wired c b? L K w) {e : Enrolment} {K' : Set String}
    (hclosed : w'.closed = w.closed) (hreg : w'.registered = w.registered)
    (hnetwork : w'.network = w.network) (hfind : w'.enrolments.find? c = some e)
    (hboot : e.bootstrap.cluster = c) (hbuilt : e.built = w.builtOf c)
    (hhandles : ∀ x ∈ e.tracked, x.cluster = c ∧ x.serial < w.builtOf c)
    (hdistinct : (e.tracked.map fun x => x.node.name).Nodup)
    (hlinks : ∀ x ∈ w.network.links, x.cluster = c → x ∈ e.tracked ∨ x ∈ b?)
    (hknown : ∀ x ∈ e.tracked, x.node.name ∈ K' → x ∈ w.network.links) :
    Wired c b? e.tracked K' w' := by
  have htracked := trackedOf_of_find? hfind
  have hjoined : w'.enrolments.contains c = true := Keyed.contains_of_find? hfind
  refine ⟨⟨?_, fun _ => ?_, fun x hx => ?_, fun h => h.elim⟩, fun e' he' => ?_, hjoined, htracked,
    hdistinct, fun x hx => ?_, ?_, ?_, ?_, ?_⟩
  · rw [hclosed]
    exact hw.founded.going
  · rw [hreg]
    exact hw.founded.registered hw.joined
  · rw [htracked] at hx
    exact (hhandles x hx).1
  · rw [hfind] at he'
    obtain rfl := Option.some.inj he'
    exact hboot
  · rw [builtOf_of_find? hfind, hbuilt]
    exact (hhandles x hx).2
  · rw [hnetwork]
    exact hw.alternates
  · rw [hnetwork]
    exact hlinks
  · rw [hnetwork]
    exact hw.opened
  · rw [hnetwork]
    exact hknown

/-- A handle that was built for the cluster becomes a live node, and is not known to be connected.
-/
lemma track (hw : Wired c none L K w) (hc : h.cluster = c) (hserial : h.serial < w.builtOf c)
    (hname : ∀ x ∈ L, x.node.name ≠ h.node.name) :
    Wired c none (L ++ [h]) (K \ {h.node.name}) (w.answer (.track h)).2 := by
  obtain ⟨e, he⟩ := hw.exists_enrolment
  have hfind := (@find?_track w c h).trans (if_pos hc.symm)
  rw [he, Option.map_some] at hfind
  have hL : e.tracked = L := (trackedOf_of_find? he).symm.trans hw.tracked
  have htracked : (e.track h).tracked = L ++ [h] := by rw [← hL, Enrolment.track]
  rw [← htracked]
  refine hw.of_find? rfl rfl rfl hfind (hw.labelled e he) (builtOf_of_find? he).symm
    (fun x hx => ?_) ?_ (fun x hx hxc => ?_) fun x hx hk => ?_
  all_goals rw [htracked] at *
  · rcases List.mem_append.mp hx with hx | hx
    · exact ⟨hw.cluster_of_mem hx, hw.serials x hx⟩
    · obtain rfl := List.mem_singleton.mp hx
      exact ⟨hc, hserial⟩
  · rw [List.map_append, List.nodup_append]
    refine ⟨hw.distinct, List.nodup_singleton _, fun a ha b hb => ?_⟩
    obtain ⟨x, hx, rfl⟩ := List.mem_map.mp ha
    obtain rfl := List.mem_singleton.mp hb
    exact hname x hx
  · exact (hw.links x hx hxc).imp_left (List.mem_append_left [h])
  · rcases List.mem_append.mp hx with hx | hx
    · exact hw.known x hx hk.1
    · obtain rfl := List.mem_singleton.mp hx
      exact absurd rfl hk.2

/-- A disconnected node is forgotten, which was the only live node of its name. -/
lemma untrack (hw : Wired c none L (K \ {h.node.name}) w) (hc : h.cluster = c)
    (hout : h ∉ w.network.links) (honly : ∀ x ∈ L, x.node.name = h.node.name → x = h) :
    Wired c none (L.filter fun x => x.node.name ≠ h.node.name) K (w.answer (.untrack h)).2 := by
  obtain ⟨e, he⟩ := hw.exists_enrolment
  have hfind := (@find?_untrack w c h).trans (if_pos hc.symm)
  rw [he, Option.map_some] at hfind
  have hL : e.tracked = L := (trackedOf_of_find? he).symm.trans hw.tracked
  have htracked : (e.untrack h.node.name).tracked =
      L.filter fun x => x.node.name ≠ h.node.name := by rw [← hL, Enrolment.untrack]
  have hmem : ∀ x, x ∈ (L.filter fun x => x.node.name ≠ h.node.name) ↔
      x ∈ L ∧ x.node.name ≠ h.node.name := by simp
  rw [← htracked]
  refine hw.of_find? rfl rfl rfl hfind (hw.labelled e he) (builtOf_of_find? he).symm
    (fun x hx => ?_) ?_ (fun x hx hxc => ?_) fun x hx hk => ?_
  all_goals rw [htracked] at *
  · have hx := ((hmem x).mp hx).1
    exact ⟨hw.cluster_of_mem hx, hw.serials x hx⟩
  · exact hw.distinct.sublist (List.filter_sublist.map _)
  · refine (hw.links x hx hxc).imp_left fun hxL => (hmem x).mpr ⟨hxL, fun hname => hout ?_⟩
    exact honly x hxL hname ▸ hx
  · obtain ⟨hxL, hname⟩ := (hmem x).mp hx
    exact hw.known x hxL ⟨hk, hname⟩

end Wired

end World

end Federation
