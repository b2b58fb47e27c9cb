import Federation.Proofs.Discovery.Safety

/-!
Rounds in which every contact succeeds.

* `World.Clean`: every connection and every request of a round succeeds.
* `Course.reconciled_of_clean`: what such a round makes of the live nodes and the routes.
* `Course.routes_in_line_iff`: it brings the routes in line with the answered view exactly if no
  live node was missing of those members that the view has in common with the one it is compared
  with.
-/

namespace Federation

open World

/-- The step did not fail for want of contact. -/
def Query.succeeded : (q : Query) → q.Answer → Bool
  | .connect _, .error _ => false
  | .membership _, .error _ => false
  | _, _ => true

/-- Every connection and every request of a round that begins now succeeds, if nothing else goes
on. -/
def World.Clean (w : World) (cluster : String) : Prop :=
  ((Round.update cluster).run.exchanges World.answer w).all (fun x => x.1.succeeded x.2) = true

instance (w : World) (cluster : String) : Decidable (w.Clean cluster) :=
  inferInstanceAs (Decidable (_ = true))

namespace Course

variable {config : Config} {router : Router} {accepts : View → Prop} {c : String} {k : Course}
  {moves : List Move} {changes : Changes} {ms : ℕ} {w : World} {v : View}

/-- The terms of a clean round in a course. -/
def cleanTerms (accepts : View → Prop) (c : String) : Terms := ⟨c, True, True, True, accepts⟩

/-- The answers of a clean round are those that it counts on. -/
lemma admits_of_clean (hviews : ∀ v ∈ k.world.network.views.toList, accepts v)
    (hclean : k.world.Clean c) {x : (q : Query) × q.Answer}
    (hx : x ∈ (Round.update c).run.exchanges World.answer k.world) :
    (cleanTerms accepts c).Admits x.1 x.2 := by
  have hsucceeded : x.1.succeeded x.2 = true := List.all_eq_true.mp hclean x hx
  -- the published views stay the same during the round
  obtain ⟨w, hw, hanswer⟩ := Program.exists_of_mem_exchanges
    (I := fun w => ∀ v ∈ w.network.views.toList, accepts v)
    (fun q w hw => (answer_keeps w q).2.1 ▸ hw) hviews hx
  obtain ⟨q, a⟩ := x
  cases q with
  | connect h =>
      intro _
      cases a with
      | ok _ => rfl
      | error e => cases hsucceeded
  | membership h =>
      refine ⟨fun v hv => hw v (mem_views_of_membership (hanswer.trans hv)), fun _ => ?_⟩
      cases a with
      | ok v => exact ⟨v, rfl⟩
      | error e => cases hsucceeded
  | _ => trivial

/-- After a clean round the routed nodes are the live ones, and they are what the answered view
makes of the live nodes before. -/
lemma reconciled_of_clean (h : k.Kept config accepts c)
    (hj : k.world.enrolments.contains c = true) (hrest : k.resting c = true)
    (hclean : k.world.Clean c) (hu : k.world.update c = (.ok changes, ms, w)) :
    ∃ v, w.viewOf c = some v ∧ accepts v ∧
      ∀ n, n ∈ (w.routedOf c).toList ↔
        n ∈ (k.world.rosterOf c).reconciled (k.world.baselineOf c) v := by
  have hown : c ≠ config.localCluster := by
    rintro rfl
    exact absurd (h.away.symm.trans hj) Bool.false_ne_true
  have hstanding : Standing (cleanTerms accepts c) k.world :=
    ((h.rounds c False False.elim).standing hrest).congr rfl (fun _ => ⟨rfl, hown⟩) fun _ => id
  have hrun := Program.Ensures.run (Round.update_ensures hstanding)
    fun x hx => admits_of_clean h.views hclean hx
  have hrun : Round.outcome _ _ (k.world.update c).1 (k.world.update c).2.2 := hrun
  rw [hu] at hrun
  obtain ⟨gone, baseline, v, hreconciled, -⟩ := hrun
  obtain rfl : gone = [] := hreconciled.reached trivial
  have hroster : w.rosterOf c = (k.world.rosterOf c).reconciled (k.world.baselineOf c) v := by
    have hroster := hreconciled.roster
    rwa [Roster.leave_nil, hreconciled.compared trivial trivial] at hroster
  refine ⟨v, hreconciled.view, (hreconciled.standing.listed v hreconciled.view).1, fun n => ?_⟩
  rw [← hroster]
  exact ⟨hreconciled.standing.within trivial n, hreconciled.routed trivial trivial n⟩

/-- A clean round brings the routes in line with the view that it stores exactly if all those
members were live that the view has in common with the view that was stored before. Nothing is
asked for if no view was stored before, or if a live node had lost its route. -/
theorem routes_in_line_iff (hr : router.Free c) (hm : ∀ m ∈ moves, m.Spares c)
    (hv : ∀ v, .publish v ∈ moves → v.Distinct)
    (hj : (ofMoves config router moves).world.enrolments.contains c = true)
    (hrest : (ofMoves config router moves).resting c = true)
    (hclean : (ofMoves config router moves).world.Clean c)
    (hu : (ofMoves config router moves).world.update c = (.ok changes, ms, w)) :
    ∃ v, w.viewOf c = some v ∧
      ((∀ n, n ∈ (w.routedOf c).toList ↔ n ∈ v.nodes) ↔
        ∀ p, (ofMoves config router moves).world.baselineOf c = some p →
          ∀ n ∈ p.nodes, n ∈ v.nodes →
            n ∈ (ofMoves config router moves).world.rosterOf c) := by
  have h : (ofMoves config router moves).Kept config View.Distinct c := kept_ofMoves hr hm hv
  obtain ⟨v, hview, hdistinct, hrouted⟩ := reconciled_of_clean h hj hrest hclean hu
  refine ⟨v, hview, ?_⟩
  simp only [hrouted]
  refine Roster.reconciled_eq_members_iff hdistinct fun p hp => ?_
  obtain ⟨hpdistinct, -, hlisted⟩ :=
    ((h.rounds c False False.elim).standing hrest).listed p (viewOf_of_baselineOf hp)
  exact ⟨hpdistinct, hlisted⟩

/-! ### A member that was dropped -/

lemma distinct_of_publish_failover : ∀ v, .publish v ∈ failover → v.Distinct := by
  intro v hv
  obtain rfl : v = pairView := by simpa [failover, pairRound, List.mem_replicate] using hv
  rw [View.Distinct]
  decide +kernel

/-- The round after the failover succeeds and finds nothing to do. -/
lemma update_failover : ∃ ms w, (ofMoves pairConfig pairRouter failover).world.update "asia" =
    (.ok ⟨[], []⟩, ms, w) ∧ w.viewOf "asia" = some pairView ∧
      (w.routedOf "asia").toList = [⟨"b", ⟨"host", 2⟩⟩] := by
  refine ⟨_, _, Prod.ext ?_ rfl, ?_, ?_⟩ <;> decide +kernel

/-- After the failover the node that has come back is missing, and so it stays. -/
theorem routes_in_line_iff_failover : ∃ ms w v,
    (ofMoves pairConfig pairRouter failover).world.update "asia" = (.ok ⟨[], []⟩, ms, w) ∧
      w.viewOf "asia" = some v ∧
        ((∀ n, n ∈ (w.routedOf "asia").toList ↔ n ∈ v.nodes) ↔
          ∀ p, (ofMoves pairConfig pairRouter failover).world.baselineOf "asia" = some p →
            ∀ n ∈ p.nodes, n ∈ v.nodes →
              n ∈ (ofMoves pairConfig pairRouter failover).world.rosterOf "asia") := by
  obtain ⟨ms, w, hu, -⟩ := update_failover
  obtain ⟨v, hv⟩ := routes_in_line_iff free_pairRouter spares_failover distinct_of_publish_failover
    (by decide +kernel) (by decide +kernel) (by decide +kernel) hu
  exact ⟨ms, w, v, hu, hv⟩

/-- A clean round need not bring the routes in line with its view: a member that was dropped stays
away although the view lists it and it can be reached. -/
theorem not_always_in_line : ¬∀ (config : Config) (router : Router) (c : String) (moves : List Move)
    (changes : Changes) (ms : ℕ) (w : World), router.Free c → (∀ m ∈ moves, m.Spares c) →
    (∀ v, .publish v ∈ moves → v.Distinct) →
    (ofMoves config router moves).world.enrolments.contains c = true →
    (ofMoves config router moves).resting c = true →
    (ofMoves config router moves).world.Clean c →
    (ofMoves config router moves).world.update c = (.ok changes, ms, w) →
    ∃ v, w.viewOf c = some v ∧ ∀ n, n ∈ (w.routedOf c).toList ↔ n ∈ v.nodes := by
  intro h
  obtain ⟨ms, w, hu, hview, hrouted⟩ := update_failover
  obtain ⟨v, hv, hline⟩ := h pairConfig pairRouter "asia" failover _ ms w free_pairRouter
    spares_failover distinct_of_publish_failover (by decide +kernel) (by decide +kernel)
    (by decide +kernel) hu
  obtain rfl := Option.some.inj (hview.symm.trans hv)
  have hmissing : (⟨"a", ⟨"host", 1⟩⟩ : Node) ∈ (w.routedOf "asia").toList :=
    (hline _).mpr (by decide +kernel)
  rw [hrouted] at hmissing
  exact absurd hmissing (by decide +kernel)

end Course

end Federation
