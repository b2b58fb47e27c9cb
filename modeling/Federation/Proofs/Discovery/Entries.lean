import Federation.Proofs.Discovery.Alone
import Federation.Proofs.Discovery.Ledger

/-!
What the parts of a round enter into the ledger of its cluster.

* `World.ledger`: the ledger of a cluster as it stands.
* `World.Ready`: the cluster is joined and registered, and it is not that of this process.
* `World.Since`: since the beginning of a round the ledger has become another one, and nothing else
  has changed that matters to the round.
* `Round.alone_retire`, `Round.alone_retireNamed`, `Round.alone_retireUnlisted`: nodes leave.
* `World.failed`, `World.obtained`: the live nodes that a round asks in vain, and the view that it
  obtains.
* `Round.alone_enlist`, `Round.alone_enlistAll`: members join, up to the first one that cannot be
  reached. If a route is refused, then there was no room.
-/

namespace Federation

namespace Network

/-- A node that is asked for its membership cannot be reached. -/
def fails (net : Network) (h : Handle) : Bool :=
  match (net.membership h).1 with
  | .error (.communication _ _) => true
  | _ => false

/-- The view of a cluster that a node answers with, if it does. -/
def viewFrom? (net : Network) (cluster : String) (h : Handle) : Option View :=
  (net.membership h).1.toOption.filter fun v => v.cluster = cluster

/-- The node of a member can be reached. -/
def up (net : Network) (m : Member) : Bool := net.reaches m.address

/-- How the joining of some members ends if all of them are routed. -/
def contactAll (net : Network) : List Member → Except Fault Unit
  | [] => .ok ()
  | m :: ms => if net.up m then net.contactAll ms else .error (unreachable (.ofMember m))

lemma contactAll_eq_ok_iff {net : Network} {ms : List Member} :
    net.contactAll ms = .ok () ↔ ∀ m ∈ ms, net.up m = true := by
  induction ms with
  | nil => simp [contactAll]
  | cons m ms ih => by_cases hup : net.up m = true <;> simp [contactAll, hup, ih]

/-- Only a member that cannot be reached stands in the way. -/
lemma exists_of_contactAll_eq_error {net : Network} {ms : List Member} {x : Fault}
    (h : net.contactAll ms = .error x) :
    ∃ m ∈ ms, net.up m = false ∧ x = unreachable (.ofMember m) := by
  induction ms with
  | nil => cases h
  | cons m ms ih =>
      rw [contactAll] at h
      split at h
      next =>
        obtain ⟨m', hm', hdown⟩ := ih h
        exact ⟨m', List.mem_cons_of_mem m hm', hdown⟩
      next hdown =>
        exact ⟨m, List.mem_cons_self, Bool.eq_false_of_not_eq_true hdown, (Except.error.inj h).symm⟩

end Network

namespace World

variable {w w' w₀ : World} {c : String} {l l' : Ledger} {h : Handle} {e : Enrolment}

/-! ### The ledger of a cluster -/

/-- The ledger of a cluster as it stands. -/
def ledger (w : World) (c : String) : Ledger :=
  ⟨c, w.trackedOf c, w.routedOf c, w.router.events,
    ((w.enrolments.find? c).map Enrolment.built).getD 0⟩

lemma ledger_of_find? (he : w.enrolments.find? c = some e) :
    w.ledger c = ⟨c, e.tracked, w.routedOf c, w.router.events, e.built⟩ := by
  rw [ledger, trackedOf_of_find? he, he, Option.map_some, Option.getD_some]

/-- A round for the cluster can go on. -/
structure Ready (c : String) (w : World) : Prop where
  going : w.closed = false
  joined : w.enrolments.contains c = true
  registered : w.registered.contains c = true
  remote : ∀ k, w.registered.find? c = some k → k.isLocal = false

lemma Ready.exists_enrolment (hw : w.Ready c) : ∃ e, w.enrolments.find? c = some e := by
  rw [← Option.isSome_iff_exists, ← Keyed.contains_eq_isSome]
  exact hw.joined

lemma Ready.of_steady (hw : w.Ready c) (hs : Steady w w') : w'.Ready c := by
  obtain ⟨hgoing, hjoined, hregistered, hremote⟩ := hw
  refine ⟨hs.closed.trans hgoing, (hs.joined c).trans hjoined, ?_, ?_⟩
  · rw [hs.registered]
    exact hregistered
  · rw [hs.registered]
    exact hremote

/-- Since a round began in the world `w₀`, the ledger of its cluster has become `l`. -/
structure Since (w₀ : World) (c : String) (l : Ledger) (w : World) : Prop where
  ready : w₀.Ready c
  steady : Steady w₀ w
  ledger : w.ledger c = l

namespace Since

lemma refl (hw : w.Ready c) : Since w c (w.ledger c) w := ⟨hw, Steady.refl w, rfl⟩

lemma isReady (hs : Since w₀ c l w) : w.Ready c := hs.ready.of_steady hs.steady

lemma cluster (hs : Since w₀ c l w) : l.cluster = c := by
  rw [← hs.ledger]
  rfl

lemma answer (hs : Since w₀ c l w) {q : Query} (hq : (w.answer q).2.ledger c = l') :
    Since w₀ c l' (w.answer q).2 :=
  ⟨hs.ready, hs.steady.trans (steady_answer w q), hq⟩

lemma tracked (hs : Since w₀ c l w) (he : w.enrolments.find? c = some e) : e.tracked = l.tracked := by
  rw [← hs.ledger, ledger_of_find? he]

/-- Nodes answer as they did when the round began. -/
lemma membership (hs : Since w₀ c l w) (h : Handle) :
    (w.network.membership h).1 = (w₀.network.membership h).1 := by
  obtain ⟨journal, hnet⟩ := hs.steady.network
  rw [hnet]
  rfl

lemma connect (hs : Since w₀ c l w) (h : Handle) :
    (w.network.connect h).1 = (w₀.network.connect h).1 := by
  obtain ⟨journal, hnet⟩ := hs.steady.network
  rw [hnet]
  rfl

/-! ### Single steps -/

/-- The event of a removal is there exactly if there was a route. -/
lemma unroute (hs : Since w₀ c l w) (hc : h.cluster = c) :
    Since w₀ c { l with
      routed := l.routed.erase h.node.name
      events := l.events ++ removals c l.routed [h.node.name] } (w.answer (.unroute h)).2 := by
  refine hs.answer ?_
  obtain rfl := hs.ledger
  subst hc
  have hrouted := (routedOf_unroute hs.isReady.registered h.cluster).trans (if_pos rfl)
  have hevents : (w.unroute h).router.events =
      w.router.events ++ removals h.cluster (w.routedOf h.cluster) [h.node.name] := by
    rw [removals_singleton]
    obtain ⟨hnone, hw⟩ | ⟨p, hp, hw⟩ := unroute_cases w h
    · rw [hw, if_neg (Bool.not_eq_true _ ▸ hnone hs.isReady.registered), List.append_nil]
    · have hthere : (w.routedOf h.cluster).contains h.node.name = true :=
        NodePlacement.contains_iff_remove.mpr ⟨p, hp⟩
      rw [hw, if_pos hthere]
  have henrolments : (w.unroute h).enrolments = w.enrolments := unroute_keeps.2.1
  rw [World.answer, World.ledger, World.ledger, hrouted, hevents, trackedOf, trackedOf, henrolments]

lemma untrack (hs : Since w₀ c l w) (hc : h.cluster = c) :
    Since w₀ c { l with tracked := l.tracked.filter fun x => x.node.name ≠ h.node.name }
      (w.answer (.untrack h)).2 := by
  refine hs.answer ?_
  obtain ⟨e, he⟩ := hs.isReady.exists_enrolment
  have he' : (w.answer (.untrack h)).2.enrolments.find? c = some (e.untrack h.node.name) := by
    rw [find?_untrack, if_pos hc.symm, he, Option.map_some]
  rw [ledger_of_find? he', ← hs.ledger, ledger_of_find? he]
  rfl

lemma track (hs : Since w₀ c l w) (hc : h.cluster = c) :
    Since w₀ c { l with tracked := l.tracked ++ [h] } (w.answer (.track h)).2 := by
  refine hs.answer ?_
  obtain ⟨e, he⟩ := hs.isReady.exists_enrolment
  have he' : (w.answer (.track h)).2.enrolments.find? c = some (e.track h) := by
    rw [find?_track, if_pos hc.symm, he, Option.map_some]
  rw [ledger_of_find? he', ← hs.ledger, ledger_of_find? he]
  rfl

/-- A new handle has the next serial number. -/
lemma build (hs : Since w₀ c l w) (n : Node) :
    (w.answer (.build c n)).1 = ⟨c, l.built, n⟩ ∧
      Since w₀ c { l with built := l.built + 1 } (w.answer (.build c n)).2 := by
  obtain ⟨e, he⟩ := hs.isReady.exists_enrolment
  have hcluster : e.cluster = c := (Keyed.find?_eq_some_iff.mp he).2
  have he' : (w.answer (.build c n)).2.enrolments.find? c = some e.countHandle := by
    rw [find?_build, if_pos rfl, he, Option.map_some]
  refine ⟨?_, hs.answer ?_⟩
  · rw [← hs.ledger, ledger_of_find? he, World.answer, World.build, he, ← hcluster]
    rfl
  · rw [ledger_of_find? he', ← hs.ledger, ledger_of_find? he, World.answer, World.build, he]
    rfl

/-- A stored view is not in the ledger. -/
lemma store (hs : Since w₀ c l w) (v : Option View) : Since w₀ c l (w.answer (.store c v)).2 := by
  refine hs.answer ?_
  obtain ⟨e, he⟩ := hs.isReady.exists_enrolment
  have he' : (w.answer (.store c v)).2.enrolments.find? c = some (e.store v) := by
    rw [find?_store, if_pos rfl, he, Option.map_some]
  rw [ledger_of_find? he', ← hs.ledger, ledger_of_find? he]
  rfl

/-- An added route comes with its event. -/
lemma route (hs : Since w₀ c l w) (hc : h.cluster = c) (hr : (w.route h).1 = .ok ()) :
    Since w₀ c { l with
      routed := l.routed.insert h.node
      events := l.events ++ [.added c h.node.name] } (w.answer (.route h)).2 := by
  refine hs.answer ?_
  obtain rfl := hs.ledger
  subst hc
  have hrouted := ((routedOf_route hr).2 h.cluster).trans (if_pos rfl)
  have henrolments : (w.route h).2.enrolments = w.enrolments := route_keeps.2.1
  have hevents : (w.route h).2.router.events =
      w.router.events ++ [.added h.cluster h.node.name] := by
    obtain ⟨x, -, hw⟩ | ⟨p, -, hw⟩ := route_cases w h
    · rw [hw] at hr
      cases hr
    · rw [hw]
  rw [World.answer, World.ledger, World.ledger, hrouted, hevents, trackedOf, trackedOf, henrolments]

/-- A route is refused only where there is no room. -/
lemma not_hasRoom (hs : Since w₀ c l w) (hc : h.cluster = c) {x : Fault}
    (hr : (w.route h).1 = .error x) (hsound : w₀.router.router.nodes.Sound) :
    ¬NodePlacement.HasRoom w₀.router.router.limit? l.routed h.node := by
  intro hroom
  obtain rfl := hs.ledger
  subst hc
  rw [← hs.steady.limit hsound] at hroom
  obtain ⟨p, hp⟩ := (hs.steady.sound hsound).exists_add hroom
  have hok := Router.addRoute_eq_ok_iff.mpr ⟨hs.isReady.registered, p, hp, rfl⟩
  obtain ⟨y, hadd, -⟩ | ⟨q, -, hw⟩ := route_cases w h
  · cases hadd.symm.trans hok
  · rw [hw] at hr
    cases hr

end Since

/-! ### Whole rounds -/

/-- The live nodes of a cluster that a round asks in vain before one answers. -/
def failed (w : World) (c : String) : List Handle := (w.trackedOf c).takeWhile w.network.fails

/-- The names of these nodes. -/
def failedNames (w : World) (c : String) : List String := (w.failed c).map fun h => h.node.name

/-- The node that a round asks last: the bootstrap node if there are no live nodes, and the first
live node that can be reached otherwise. -/
def asked (w : World) (c : String) : Option Handle :=
  if (w.trackedOf c).isEmpty then (w.enrolments.find? c).map Enrolment.bootstrap
  else (w.trackedOf c).find? fun h => !w.network.fails h

/-- The view of a cluster that a round obtains, if it does. -/
def obtained (w : World) (c : String) : Option View := (w.asked c).bind (w.network.viewFrom? c)

/-- How the joining of some members has ended. The first one that cannot be connected is the last
one to join. If a route was refused, then there was no room. -/
def Joining (w₀ : World) (c : String) (l : Ledger) (ms : List Member) (r : Except Fault Unit)
    (w : World) : Prop :=
  (r = w₀.network.contactAll ms ∧ Since w₀ c (l.enlistAll (attempted w₀.network.up ms)) w) ∨
    ((∃ x, r = .error x) ∧
      (w₀.router.router.nodes.Sound → ¬l.Roomy w₀.router.router.limit? ms))

variable {ms : List Member} {r : Except Fault Unit}

lemma Joining.of_ok (hj : Joining w₀ c l ms (.ok ()) w) :
    (∀ m ∈ ms, w₀.network.up m = true) ∧ Since w₀ c (l.enlistAll ms) w := by
  rcases hj with ⟨hr, hs⟩ | ⟨⟨x, hx⟩, -⟩
  · have hup := Network.contactAll_eq_ok_iff.mp hr.symm
    rw [attempted_eq_self hup] at hs
    exact ⟨hup, hs⟩
  · cases hx

lemma Joining.of_roomy (hj : Joining w₀ c l ms r w) (hsound : w₀.router.router.nodes.Sound)
    (hroomy : l.Roomy w₀.router.router.limit? ms) : r = w₀.network.contactAll ms ∧
      Since w₀ c (l.enlistAll (attempted w₀.network.up ms)) w := by
  rcases hj with hj | ⟨-, hfull⟩
  · exact hj
  · exact absurd hroomy (hfull hsound)

/-- The stored view does not matter. -/
lemma Joining.store (hj : Joining w₀ c l ms r w) (v : Option View) :
    Joining w₀ c l ms r (w.answer (.store c v)).2 :=
  hj.imp_left fun ⟨hr, hs⟩ => ⟨hr, hs.store v⟩

end World

namespace Round

open World

variable {w w₀ : World} {c : String} {l : Ledger} {h : Handle} {m : Member} {ms : List Member}
  {baseline : Option View} {v : View}

/-! ### Leaving -/

lemma alone_retire (hs : Since w₀ c l w) (hc : h.cluster = c) :
    ∃ w', (retire h).alone w = (.ok (), w') ∧ Since w₀ c (l.retire h.node.name) w' := by
  obtain rfl := hs.cluster
  have hunrouted := hs.unroute hc
  have hdisconnected := hunrouted.answer (q := .disconnect h) hunrouted.ledger
  exact ⟨_, rfl, hdisconnected.untrack hc⟩

/-- The live node of a name leaves, if there is one. -/
lemma alone_retireNamed (hs : Since w₀ c l w) (ht : l.Tidy) (name : String) :
    ∃ w', (retireNamed c name).alone w = (.ok (), w') ∧ Since w₀ c (l.retire name) w' := by
  obtain ⟨e, he⟩ := hs.isReady.exists_enrolment
  have htracked := hs.tracked he
  rw [retireNamed, alone_query_bind, show w.answer (.enrolment c) = (some e, w) from
    Prod.ext he rfl, Option.bind_some]
  dsimp only
  cases hfound : e.findTracked? name with
  | some h =>
      have hname : h.node.name = name := by simpa using List.find?_some hfound
      have hmem : h ∈ l.tracked := htracked ▸ List.mem_of_find?_eq_some hfound
      rw [← hname]
      exact alone_retire hs ((ht.handles h hmem).trans hs.cluster)
  | none =>
      have hnobody : l.retire name = l := ht.retire_eq_self fun h hh => by
        simpa using List.find?_eq_none.mp hfound h (htracked ▸ hh)
      exact ⟨w, rfl, hnobody.symm ▸ hs⟩

/-- The nodes of some names leave. -/
lemma alone_retireAll {γ : Type} (hs : Since w₀ c l w) (ht : l.Tidy) (name : γ → String)
    (xs : List γ) : ∃ w', (xs.forM fun x => retireNamed c (name x)).alone w = (.ok (), w') ∧
      Since w₀ c (l.retireAll (xs.map name)) w' := by
  obtain ⟨w', hw', hs', -⟩ := alone_forM (I := fun l w => Since w₀ c l w ∧ l.Tidy)
    (g := fun l x => l.retire (name x)) (l := xs) (fun x _ l w hl => by
      obtain ⟨w', hw', hs'⟩ := alone_retireNamed hl.1 hl.2 (name x)
      exact ⟨w', hw', hs', hl.2.retire _⟩) ⟨hs, ht⟩
  refine ⟨w', hw', ?_⟩
  rw [Ledger.retireAll, List.foldl_map]
  exact hs'

/-- The live nodes leave that the view does not list by name. -/
lemma alone_retireUnlisted (hs : Since w₀ c l w) (ht : l.Tidy) (v : View) :
    ∃ w', (retireUnlisted c v).alone w = (.ok (), w') ∧
      Since w₀ c (l.retireAll (l.unlisted v)) w' := by
  obtain ⟨e, he⟩ := hs.isReady.exists_enrolment
  have htracked := hs.tracked he
  rw [retireUnlisted, alone_query_bind, show w.answer (.enrolment c) = (some e, w) from
    Prod.ext he rfl]
  dsimp only
  obtain ⟨w', hw', hs'⟩ := alone_forM (I := fun l w => Since w₀ c l w)
    (g := fun l h => l.retire h.node.name)
    (l := e.tracked.filter fun h => !v.members.toList.any fun m => m.name = h.node.name)
    (fun h hh l' w' hl => by
      have hmem : h ∈ l.tracked := htracked ▸ (List.mem_filter.mp hh).1
      exact alone_retire hl ((ht.handles h hmem).trans hs.cluster)) hs
  refine ⟨w', hw', ?_⟩
  rw [Ledger.unlisted, Ledger.retireAll, List.foldl_map, ← htracked]
  exact hs'

/-! ### Joining -/

/-- What is left of the joining of a member once the node of its name has left and a handle is
made. -/
def enter (h : Handle) : Round Unit := do
  require (← query (.route h))
  query (.track h)
  require (← query (.connect h))

/-- A live node of its name leaves before a member is routed. -/
lemma alone_enlist_eq (hs : Since w₀ c l w) (ht : l.Tidy) (m : Member) :
    ∃ w₂, Since w₀ c { l.retire m.name with built := l.built + 1 } w₂ ∧
      (enlist c m).alone w = (enter ⟨c, l.built, .ofMember m⟩).alone w₂ := by
  obtain ⟨w₁, hw₁, hs₁⟩ := alone_retireNamed hs ht m.name
  obtain ⟨hbuilt, hs₂⟩ := hs₁.build (.ofMember m)
  refine ⟨_, hs₂, ?_⟩
  rw [enlist, alone_bind_ok hw₁, alone_query_bind, hbuilt]
  rfl

/-- A member joins whether it can be connected or not, unless its route is refused. -/
lemma alone_enlist (hs : Since w₀ c l w) (ht : l.Tidy) (m : Member) :
    ∃ r w', (enlist c m).alone w = (r, w') ∧ Joining w₀ c l [m] r w' := by
  obtain ⟨w₂, hs₂, hrun⟩ := alone_enlist_eq hs ht m
  obtain rfl := hs.cluster
  set h : Handle := ⟨l.cluster, l.built, .ofMember m⟩ with hh
  rw [hrun, enter, alone_query_bind]
  cases hr : (w₂.answer (.route h)).1 with
  | error x =>
      refine ⟨.error x, _, alone_bind_error (alone_require _ _), Or.inr ⟨⟨x, rfl⟩, ?_⟩⟩
      exact fun hsound hroomy => hs₂.not_hasRoom (h := h) rfl hr hsound hroomy.1
  | ok _ =>
      have hs₃ := (hs₂.route (h := h) rfl hr).track (h := h) rfl
      refine ⟨_, _, rfl, Or.inl ⟨(hs₃.connect h).trans ?_, ?_⟩⟩
      · rfl
      · rw [attempted_singleton]
        exact hs₃.answer (q := .connect h) hs₃.ledger

/-- Members join up to the first one that cannot be connected. -/
lemma alone_enlistAll (hs : Since w₀ c l w) (ht : l.Tidy) (ms : List Member) :
    ∃ r w', (ms.forM (enlist c)).alone w = (r, w') ∧ Joining w₀ c l ms r w' := by
  induction ms generalizing l w with
  | nil => exact ⟨_, w, rfl, Or.inl ⟨rfl, hs⟩⟩
  | cons m ms ih =>
      obtain ⟨r, w₁, hw₁, ⟨rfl, hs₁⟩ | ⟨⟨x, rfl⟩, hfull⟩⟩ := alone_enlist hs ht m
      · rw [attempted_singleton] at hs₁
        by_cases hup : w₀.network.up m = true
        · obtain ⟨r, w₂, hw₂, hj⟩ := ih hs₁ (ht.enlist m)
          have hm : w₀.network.contactAll [m] = .ok () := if_pos hup
          rw [hm] at hw₁
          refine ⟨r, w₂, (alone_bind_ok hw₁).trans hw₂, ?_⟩
          rcases hj with ⟨rfl, hs₂⟩ | ⟨hx, hfull⟩
          · refine Or.inl ⟨(if_pos hup).symm, ?_⟩
            rw [attempted, if_pos hup]
            exact hs₂
          · exact Or.inr ⟨hx, fun hsound hroomy => hfull hsound hroomy.2⟩
        · have hm : w₀.network.contactAll [m] = .error (Network.unreachable (.ofMember m)) :=
            if_neg hup
          rw [hm] at hw₁
          refine ⟨_, w₁, alone_bind_error hw₁, Or.inl ⟨(if_neg hup).symm, ?_⟩⟩
          rw [attempted, if_neg hup]
          exact hs₁
      · refine ⟨_, w₁, alone_bind_error hw₁, Or.inr ⟨⟨x, rfl⟩, fun hsound hroomy => ?_⟩⟩
        exact hfull hsound ⟨hroomy.1, trivial⟩

end Round

end Federation
