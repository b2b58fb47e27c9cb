import Federation.Proofs.Discovery.Outset

/-!
From one live node to the next.

* `World.updateWith`: a round in which every node answers a request for its view in a way of its
  own. With the answers of the network it is `World.update` (`World.updateWith_network`).
* `World.Dropped`: what has changed once live nodes were asked up to the first one that can be
  reached. `World.updateWith_live`: how the round goes on from there.
* `World.Bootstraps`: a round goes through the bootstrap node, however nodes answer. It does so if
  there are no live nodes (`World.bootstraps_of_trackedOf_eq_nil`).
* `World.FailsOver`, `Course.update_fails_over`: whatever has happened and however the live nodes
  answer, a round drops those before the first one that can be reached, and asks nobody after that
  one.
-/

namespace Federation

/-- The node that was asked for its view. -/
def Contact.inquired? : Contact → Option Handle
  | membership h _ => some h
  | _ => none

namespace Network

/-- The nodes that were asked for their views, the first one first. -/
def inquiries (net : Network) : List Handle := net.journal.reverse.filterMap Contact.inquired?

/-- Of nodes that are asked and disconnected only the first is an inquiry. -/
lemma filterMap_inquired?_flatMap (net : Network) (l : List Handle) :
    (l.flatMap fun h => [net.inquiry h, .disconnect h]).filterMap Contact.inquired? = l := by
  induction l with
  | nil => rfl
  | cons h l ih =>
      rw [List.flatMap_cons, List.filterMap_append, ih]
      rfl

end Network

namespace World

variable {w w₁ w' : World} {c : String} {b h : Handle} {outcome : Handle → Except Fault View}
  {failed rest : List Handle} {q : Query}

/-- One round for a cluster in which nodes answer as `outcome` tells, and the world after it. -/
def updateWith (w : World) (outcome : Handle → Except Fault View) (c : String) :
    Except Fault Changes × World :=
  (Round.update c).under (answerWith outcome) w

/-- A round in which nodes answer as they do on the network is a round. -/
theorem updateWith_network (w : World) (c : String) :
    w.updateWith (fun h => (w.network.membership h).1) c = ((w.update c).1, (w.update c).2.2) :=
  Round.under_answerWith_network (Round.update c) w

/-! ### After the asking -/

/-- Other steps are no inquiries. -/
lemma inquiries_answer (hq : q.Ordinary) (w : World) :
    (w.answer q).2.network.inquiries = w.network.inquiries := by
  rw [network_answer]
  cases q with
  | membership h => cases hq
  | connect h => simp [Network.inquiries, Network.connect, Network.record, Contact.inquired?]
  | disconnect h =>
      simp [Network.inquiries, Network.disconnect, Network.record, Contact.inquired?]
  | _ => rfl

/-- Once a round has asked for the view it asks nobody any more. -/
lemma inquiries_conclude (w : World) (c : String) (baseline : Option View)
    (asked : Except Fault View) :
    (w.conclude c baseline asked).2.network.inquiries = w.network.inquiries := by
  cases asked with
  | error x => exact inquiries_answer (q := .store c none) trivial w
  | ok v =>
      refine (inquiries_answer (q := .store c _) trivial _).trans ?_
      exact Round.reconcile_ordinary.final_induction
        (I := fun u : World => u.network.inquiries = w.network.inquiries)
        (fun q u hq hu => (inquiries_answer hq u).trans hu) rfl

/-- A round stores the view that it was answered if it is successful, and none otherwise. -/
lemma viewOf_conclude (hj : w.enrolments.contains c = true) (baseline : Option View)
    (asked : Except Fault View) : (w.conclude c baseline asked).2.viewOf c =
      (w.conclude c baseline asked).1.toOption.bind fun _ => asked.toOption := by
  cases asked with
  | error x => exact (store_keeps none).2.2.trans (Option.bind_fun_none _)
  | ok v =>
      obtain ⟨r, w', hr⟩ : ∃ r w', (Round.reconcile c baseline v).alone w = (r, w') := ⟨_, _, rfl⟩
      have hsteady : Steady w w' := by
        have hs := Round.steady_alone (Round.reconcile c baseline v) w
        rwa [hr] at hs
      obtain ⟨e, he⟩ : ∃ e, w'.enrolments.find? c = some e := by
        rw [← Option.isSome_iff_exists, ← Keyed.contains_eq_isSome, hsteady.joined, hj]
      rw [conclude, hr]
      refine (store_keeps _).2.2.trans ?_
      rw [he]
      cases r <;> rfl

/-- The nodes `failed` were asked in vain and have left, and the first of the nodes `rest`, if there
is one, was asked after them. Each of the former was disconnected after it was asked, and nobody
else was connected or disconnected. -/
structure Dropped (w : World) (c : String) (failed rest : List Handle) (w' : World) : Prop where
  steady : Steady w w'
  tracked : w'.trackedOf c = rest
  routed : w'.routedOf c = (w.routedOf c).filter fun n => n.name ∉ failed.map fun h => h.node.name
  events : w'.router.events =
    w.router.events ++ removals c (w.routedOf c) (failed.map fun h => h.node.name)
  contacts : w'.network.journal.reverse = w.network.journal.reverse ++
    (failed.flatMap fun h => [w.network.inquiry h, .disconnect h]) ++
    rest.head?.toList.map w.network.inquiry
  links : ∀ x, x ∈ w'.network.links ↔ x ∈ w.network.links ∧ x ∉ failed
  kept : ∀ h ∈ rest, (w'.routedOf c).find? h.node.name = (w.routedOf c).find? h.node.name ∧
    (h ∈ w'.network.links ↔ h ∈ w.network.links)

/-- The live nodes have names of their own, so that each one leaves alone. -/
lemma Asked.dropped (ha : Asked w c failed rest.head? w') (ht : (w.ledger c).Tidy)
    (hsplit : w.trackedOf c = failed ++ rest) : w.Dropped c failed rest w' := by
  have hnames : ((failed ++ rest).map fun h => h.node.name).Nodup := hsplit ▸ ht.distinct
  rw [List.map_append, List.nodup_append] at hnames
  obtain ⟨hfailed, -, hapart⟩ := hnames
  have hout : ∀ h ∈ rest, h.node.name ∉ failed.map fun h => h.node.name := fun h hh hname =>
    hapart _ hname _ (List.mem_map_of_mem hh) rfl
  have hledger := ha.since.ledger.trans (Ledger.retireAll_eq hfailed)
  have hrouted : w'.routedOf c =
      (w.routedOf c).filter fun n => n.name ∉ failed.map fun h => h.node.name :=
    congrArg Ledger.routed hledger
  have hlinks : ∀ h ∈ rest, h ∉ failed := fun h hh hf => hout h hh (List.mem_map_of_mem hf)
  refine ⟨ha.since.steady, ?_, hrouted, congrArg Ledger.events hledger, ha.contacts, ha.links,
    fun h hh => ⟨?_, (ha.links h).trans (and_iff_left (hlinks h hh))⟩⟩
  · have htracked : w'.trackedOf c =
        (failed ++ rest).filter fun h => h.node.name ∉ failed.map fun h => h.node.name :=
      (congrArg Ledger.tracked hledger).trans (congrArg _ hsplit)
    rw [htracked, List.filter_append, List.filter_eq_nil_iff.mpr fun h hh => ?_,
      List.filter_eq_self.mpr fun h hh => decide_eq_true (hout h hh), List.nil_append]
    simpa using ⟨h, hh, rfl⟩
  · refine Option.ext fun n => ?_
    rw [hrouted, Keyed.find?_eq_some_iff, Keyed.find?_eq_some_iff, Keyed.toList_filter,
      List.mem_filter, decide_eq_true_iff]
    exact ⟨fun hn => ⟨hn.1.1, hn.2⟩, fun hn => ⟨⟨hn.1, hn.2 ▸ hout h hh⟩, hn.2⟩⟩

/-- The stored view does not matter. -/
lemma Dropped.store (hd : w.Dropped c failed rest w₁) (v : Option View) :
    w.Dropped c failed rest (w₁.answer (.store c v)).2 :=
  ⟨hd.steady.trans (steady_answer w₁ _), (store_keeps v).2.1.trans hd.tracked, hd.routed, hd.events,
    hd.contacts, hd.links, hd.kept⟩

/-- The inquiries so far. -/
lemma Dropped.inquiries (hd : w.Dropped c failed rest w') :
    w'.network.inquiries = w.network.inquiries ++ failed ++ rest.head?.toList := by
  have hlast : (rest.head?.toList.map w.network.inquiry).filterMap Contact.inquired? =
      rest.head?.toList := by
    cases rest <;> rfl
  rw [Network.inquiries, hd.contacts, List.filterMap_append, List.filterMap_append,
    Network.filterMap_inquired?_flatMap, hlast]
  rfl

/-- If all nodes have left then nobody is routed. -/
lemma Dropped.routedOf_eq_empty (hd : w.Dropped c failed [] w') (ht : (w.ledger c).Tidy)
    (hsplit : w.trackedOf c = failed) : w'.routedOf c = ∅ := by
  refine Keyed.ext_mem fun n => ?_
  rw [hd.routed, Keyed.toList_filter, List.mem_filter, decide_eq_true_iff]
  refine iff_of_false (fun hn => hn.2 ?_) List.not_mem_nil
  obtain ⟨h, hh, rfl⟩ := ht.within n hn.1
  exact List.mem_map.mpr ⟨h, hsplit ▸ hh, rfl⟩

/-- With live nodes a round asks these in turn. -/
theorem updateWith_live (hw : w.Ready c) (ht : (w.ledger c).Tidy) (hlive : w.trackedOf c ≠ [])
    (outcome : Handle → Except Fault View) :
    ∃ failed rest w₁, w.trackedOf c = failed ++ rest ∧ (∀ h ∈ failed, Unreached (outcome h)) ∧
      (∀ h ∈ rest.head?, ¬Unreached (outcome h)) ∧ w.Dropped c failed rest w₁ ∧
      w.updateWith outcome c =
        w₁.conclude c (w.baselineOf c) (Round.answered c outcome rest) := by
  obtain ⟨e, he⟩ := hw.exists_enrolment
  have htracked : w.trackedOf c = e.tracked := trackedOf_of_find? he
  have hhandles : ∀ h ∈ e.tracked, h.cluster = c := htracked ▸ ht.handles
  obtain ⟨failed, rest, w₁, hsplit, hfailed, hrest, hrun, ha⟩ :=
    Round.under_askInTurn outcome (Asked.refl hw) hhandles
  have hask : (Round.askForView c e).under (answerWith outcome) w =
      (Round.answered c outcome rest, w₁) := by
    rw [Round.askForView, if_neg (by rwa [List.isEmpty_iff, ← htracked])]
    exact hrun
  rw [htracked]
  exact ⟨failed, rest, w₁, hsplit, hfailed, hrest, ha.dropped ht (htracked.trans hsplit),
    Round.under_update (answerWith_of_ordinary outcome) hw he hask⟩

/-- However nodes answer, a round goes through the bootstrap node `b`: it is connected, and if that
succeeds it is the only one that is asked, and disconnected again. Its view is compared with
nothing. -/
def Bootstraps (w : World) (c : String) (b : Handle) : Prop :=
  ∀ outcome : Handle → Except Fault View, ∃ w₁, Since w c (w.ledger c) w₁ ∧
    w₁.network.journal.reverse = w.network.journal.reverse ++
      (if w.network.reaches b.node.address then
        [.connect b true, w.network.inquiry b, .disconnect b]
      else [.connect b false]) ∧
    w.updateWith outcome c = w₁.conclude c none
      (if w.network.reaches b.node.address then
        (Round.accepted c b (outcome b)).mapError Round.bootstrapFault
      else .error .missingRoute) ∧
    (w.updateWith outcome c).2.network.inquiries =
      w.network.inquiries ++ if w.network.reaches b.node.address then [b] else []

/-- Without live nodes a round goes through the bootstrap node. -/
theorem bootstraps_of_trackedOf_eq_nil (hw : w.Ready c) (htracked : w.trackedOf c = [])
    (hview : w.viewOf c = none)
    (hb : (w.enrolments.find? c).map Enrolment.bootstrap = some b) : w.Bootstraps c b := by
  intro outcome
  obtain ⟨e, he, rfl⟩ := Option.map_eq_some_iff.mp hb
  have hbaseline : w.baselineOf c = none := by rw [baselineOf, hview, ite_self]
  obtain ⟨w₁, hrun, hs, hjournal⟩ := Round.under_askBootstrap outcome hw e.bootstrap
  have hempty : e.tracked.isEmpty = true :=
    List.isEmpty_iff.mpr ((trackedOf_of_find? he).symm.trans htracked)
  rw [← show Round.askForView c e = Round.askBootstrap c e.bootstrap from if_pos hempty] at hrun
  have hupdate := Round.under_update (answerWith_of_ordinary outcome) hw he hrun
  rw [hbaseline] at hupdate
  refine ⟨w₁, hs, hjournal, hupdate, ?_⟩
  rw [updateWith, hupdate, inquiries_conclude, Network.inquiries, hjournal, List.filterMap_append]
  split <;> rfl

/-- How a round for a cluster with live nodes goes if these answer as `outcome` tells. The nodes
`failed` leave while it asks, and the nodes `rest` are those behind them. -/
structure FailsOver (w : World) (c : String) (outcome : Handle → Except Fault View)
    (failed rest : List Handle) : Prop where
  split : w.trackedOf c = failed ++ rest
  unreached : ∀ h ∈ failed, Unreached (outcome h)
  reached : ∀ h ∈ rest.head?, ¬Unreached (outcome h)
  /-- Those that leave are asked in turn, and behind them the first one that stays. -/
  inquiries : (w.updateWith outcome c).2.network.inquiries =
    w.network.inquiries ++ failed ++ rest.head?.toList
  /-- A view of the cluster is applied, and stored if that is successful. -/
  applied : ∀ h ∈ rest.head?, ∀ v, outcome h = .ok v → v.cluster = c →
    (∃ w₁, w.Dropped c failed rest w₁ ∧
      w.updateWith outcome c = w₁.conclude c (w.baselineOf c) (.ok v)) ∧
    (w.updateWith outcome c).2.viewOf c = (w.updateWith outcome c).1.toOption.map fun _ => v
  /-- A view of another cluster fails the round. Everything but the stored view stays as it was when
  that node was asked. -/
  refused : ∀ h ∈ rest.head?, ∀ v, outcome h = .ok v → v.cluster ≠ c →
    (w.updateWith outcome c).1 =
        .error (.processing h.node.name (Round.wrongCluster v.cluster c)) ∧
      w.Dropped c failed rest (w.updateWith outcome c).2 ∧
      (w.updateWith outcome c).2.viewOf c = none
  /-- So does any other failure. -/
  stopped : ∀ h ∈ rest.head?, ∀ e, outcome h = .error e →
    (w.updateWith outcome c).1 = .error e ∧ w.Dropped c failed rest (w.updateWith outcome c).2 ∧
      (w.updateWith outcome c).2.viewOf c = none
  /-- If nobody is left then a route is missing, and the next round goes through the bootstrap
  node. -/
  exhausted : rest = [] → (w.updateWith outcome c).1 = .error .missingRoute ∧
    w.Dropped c failed [] (w.updateWith outcome c).2 ∧
    (w.updateWith outcome c).2.viewOf c = none ∧ (w.updateWith outcome c).2.trackedOf c = [] ∧
    (w.updateWith outcome c).2.routedOf c = ∅ ∧
    ∃ b, (w.enrolments.find? c).map Enrolment.bootstrap = some b ∧
      (w.updateWith outcome c).2.Bootstraps c b

/-- However the live nodes of a cluster answer, a round fails over from one to the next. -/
theorem exists_failsOver (hw : w.Ready c) (ht : (w.ledger c).Tidy) (hlive : w.trackedOf c ≠ [])
    (outcome : Handle → Except Fault View) : ∃ failed rest, w.FailsOver c outcome failed rest := by
  obtain ⟨failed, rest, w₁, hsplit, hfailed, hrest, hdropped, hupdate⟩ :=
    updateWith_live hw ht hlive outcome
  have hfails : ∀ e, Round.answered c outcome rest = .error e →
      (w.updateWith outcome c).1 = .error e ∧
        w.Dropped c failed rest (w.updateWith outcome c).2 ∧
        (w.updateWith outcome c).2.viewOf c = none := by
    intro e he
    rw [hupdate, he]
    exact ⟨rfl, hdropped.store none, (store_keeps none).2.2.trans (Option.bind_fun_none _)⟩
  refine ⟨failed, rest, hsplit, hfailed, hrest, ?_, ?_, ?_, ?_, ?_⟩
  · rw [hupdate, inquiries_conclude]
    exact hdropped.inquiries
  · intro h hh v hv hc
    have hanswered : Round.answered c outcome rest = .ok v := by
      rw [Round.answered_of_head? hh, hv, Round.accepted, if_pos hc]
    rw [hanswered] at hupdate
    refine ⟨⟨w₁, hdropped, hupdate⟩, ?_⟩
    rw [hupdate, viewOf_conclude ((hdropped.steady.joined c).trans hw.joined)]
    cases (w₁.conclude c (w.baselineOf c) (.ok v)).1 <;> rfl
  · intro h hh v hv hc
    refine hfails _ ?_
    rw [Round.answered_of_head? hh, hv, Round.accepted, if_neg hc]
  · intro h hh e he
    refine hfails e ?_
    rw [Round.answered_of_head? hh, he, Round.accepted]
  · rintro rfl
    obtain ⟨hresult, hdropped', hview⟩ := hfails .missingRoute rfl
    obtain ⟨e, he⟩ := hw.exists_enrolment
    have hbootstrap := hdropped'.steady.bootstrap c
    rw [he] at hbootstrap
    refine ⟨hresult, hdropped', hview, hdropped'.tracked,
      hdropped'.routedOf_eq_empty ht (hsplit.trans (List.append_nil _)), e.bootstrap, ?_, ?_⟩
    · rw [he]
      rfl
    · exact bootstraps_of_trackedOf_eq_nil (hw.of_steady hdropped'.steady) hdropped'.tracked hview
        hbootstrap

end World

namespace Course

open World

variable {config : Config} {router : Router} {c : String} {moves : List Move}

/-- Whatever has happened to a joined cluster with live nodes, and however these nodes answer, a
round drops exactly those before the first one that can be reached. -/
theorem update_fails_over (hr : router.Free c) (hm : ∀ m ∈ moves, m.Spares c)
    (hj : (ofMoves config router moves).world.enrolments.contains c = true)
    (hrest : (ofMoves config router moves).resting c = true)
    (hlive : (ofMoves config router moves).world.trackedOf c ≠ [])
    (outcome : Handle → Except Fault View) :
    ∃ failed rest, (ofMoves config router moves).world.FailsOver c outcome failed rest := by
  have hw : (ofMoves config router moves).world.Outset c := outset_ofMoves hr hm hj hrest
  exact exists_failsOver hw.ready hw.tidy hlive outcome

/-- The first node of `asia` cannot be reached, and the second one belongs to `africa` by now. -/
def strayAnswers (h : Handle) : Except Fault View :=
  if h.node.name = "a" then .error (.communication "a" "lost")
  else .ok (.ofList "africa" [⟨"b", ⟨"host", 2⟩⟩])

/-- The first node is dropped, and the second one fails the round but stays. -/
theorem update_fails_over_pair :
    ((ofMoves pairConfig pairRouter ([.publish pairView, .start] ++ pairRound)).world.updateWith
        strayAnswers "asia").1 =
      .error (.processing "b" "answered with a view of cluster africa instead of asia") ∧
    ((ofMoves pairConfig pairRouter ([.publish pairView, .start] ++ pairRound)).world.updateWith
        strayAnswers "asia").2.trackedOf "asia" = [⟨"asia", 2, ⟨"b", ⟨"host", 2⟩⟩⟩] := by
  obtain ⟨failed, rest, h⟩ := @update_fails_over pairConfig pairRouter "asia"
    ([.publish pairView, .start] ++ pairRound) free_pairRouter (by simp [pairRound, Move.Spares])
    (by decide +kernel) (by decide +kernel) (by decide +kernel) strayAnswers
  have htracked : (ofMoves pairConfig pairRouter
      ([.publish pairView, .start] ++ pairRound)).world.trackedOf "asia" =
        [⟨"asia", 1, ⟨"a", ⟨"host", 1⟩⟩⟩, ⟨"asia", 2, ⟨"b", ⟨"host", 2⟩⟩⟩] := by decide +kernel
  have hsplit := htracked.symm.trans h.split
  rcases failed with _ | ⟨x, _ | ⟨y, failed⟩⟩
  · obtain rfl : _ = rest := hsplit
    exact absurd ⟨_, _, rfl⟩ (h.reached _ rfl)
  · obtain ⟨rfl, hrest⟩ := List.cons.inj hsplit
    obtain rfl : _ = rest := hrest
    obtain ⟨hresult, hdropped, -⟩ := h.refused _ rfl _ rfl (by decide)
    exact ⟨hresult, hdropped.tracked⟩
  · obtain ⟨rfl, hrest⟩ := List.cons.inj hsplit
    obtain ⟨rfl, -⟩ := List.cons.inj hrest
    obtain ⟨node, reason, hlost⟩ := h.unreached _ (List.mem_cons_of_mem _ List.mem_cons_self)
    cases hlost

end Course

end Federation
