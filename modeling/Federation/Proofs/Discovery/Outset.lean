import Federation.Proofs.Discovery.Safety
import Federation.Proofs.Discovery.SoloRound

/-!
The outset of a round in the middle of a course.

* `World.Outset`: a round for the cluster can go on, its ledger is tidy, and the live nodes are
  members of the stored view if there is one.
* `Course.outset_ofMoves`: so it is whenever no round for a joined cluster is under way.
* `Course.sound_ofMoves`: the placement of nodes is sound throughout, and its limit never changes.
-/

namespace Federation

namespace World

variable {w : World} {t : Terms} {c : String} {v : View}

/-- How a round finds its cluster. -/
structure Outset (c : String) (w : World) : Prop where
  ready : w.Ready c
  tidy : (w.ledger c).Tidy
  listed : ∀ p, w.viewOf c = some p → p.cluster = c ∧ ∀ h ∈ w.trackedOf c, h.node ∈ p.nodes

/-- A cluster whose routes nobody else changes is found like that between its rounds. -/
lemma Standing.outset (hw : Standing t w) (ho : t.own)
    (hj : w.enrolments.contains t.cluster = true) : w.Outset t.cluster := by
  obtain ⟨⟨⟨hgoing, hregistered, hhandles, hremote⟩, hdistinct, hwithin⟩, hlisted⟩ := hw
  refine ⟨⟨hgoing, hj, hregistered hj, hremote ho⟩, ⟨hhandles, ?_, fun n hn => ?_⟩, fun p hp => ?_⟩
  · rwa [Roster.Distinct, rosterOf, List.map_map] at hdistinct
  · exact List.mem_map.mp (hwithin ho n hn)
  · exact ⟨(hlisted p hp).2.1, fun h hh => (hlisted p hp).2.2 _ (List.mem_map_of_mem hh)⟩

/-- All nodes that stay for the view are listed by it. -/
lemma Outset.lists_of_mem_cleared (hw : w.Outset c) {h : Handle}
    (hh : h ∈ (w.cleared c v).tracked) : v.lists h.node.name = true := by
  refine Ledger.lists_of_mem_pruned (fun p hp h hh => ?_) hh
  rw [remaining, Ledger.tracked_retireAll] at hh
  exact (hw.listed p (viewOf_of_baselineOf hp)).2 h (List.mem_filter.mp hh).1

lemma Outset.tidy_cleared (hw : w.Outset c) : (w.cleared c v).Tidy :=
  (hw.tidy.retireAll _).pruned _ _

end World

/-! ### Placements -/

/-- A call of a router keeps the placement of nodes sound, and its limit. -/
lemma Router.sound_call {r : Router} (h : r.nodes.Sound) (call : RouterCall) :
    (r.call call).2.nodes.Sound ∧ (r.call call).2.limit? = r.limit? := by
  cases call with
  | setUp clusters => exact ⟨h, rfl⟩
  | setLocalNode n => exact ⟨h, rfl⟩
  | addRoute c n =>
      refine settle_induction (P := fun r' : Router => r'.nodes.Sound ∧ r'.limit? = r.limit?)
        ⟨h, rfl⟩ fun r' hr' => ?_
      obtain ⟨-, p, hp, rfl⟩ := addRoute_eq_ok_iff.mp hr'
      exact h.add hp
  | removeRoute c n =>
      refine settle_induction (P := fun r' : Router => r'.nodes.Sound ∧ r'.limit? = r.limit?)
        ⟨h, rfl⟩ fun r' hr' => ?_
      obtain ⟨-, p, hp, rfl⟩ := removeRoute_eq_ok_iff.mp hr'
      exact h.remove hp
  | clear => exact h.clear

/-- Nodes are placed as before when a cluster is joined. -/
lemma World.nodes_join {w w' : World} {cluster : Cluster} {seed : String}
    (h : w.join cluster seed = .ok w') : w'.router.router.nodes = w.router.router.nodes := by
  obtain ⟨a, -, rfl⟩ := map_eq_ok_iff.mp h
  dsimp only
  rw [enrol]
  split <;> rfl

namespace Session

variable {s s' : Session}

lemma nodes_join {cluster : Cluster} {seed : String} (h : s.join cluster seed = .ok s') :
    s'.world.router.router.nodes = s.world.router.router.nodes := by
  obtain ⟨w, hw, rfl⟩ := map_eq_ok_iff.mp h
  dsimp only
  split <;> exact World.nodes_join hw

lemma nodes_joinAll (s : Session) (seeds : List (String × String)) :
    (s.joinAll seeds).2.world.router.router.nodes = s.world.router.router.nodes :=
  joinAll_induction
    (P := fun t => t.world.router.router.nodes = s.world.router.router.nodes) seeds rfl
    fun _ _ _ _ ht hj => (nodes_join hj).trans ht

end Session

namespace Course

variable {config : Config} {router : Router} {accepts : View → Prop} {c : String} {k : Course}
  {moves : List Move}

/-- The placement of nodes is sound. -/
def Sound (k : Course) : Prop := k.world.router.router.nodes.Sound

lemma Sound.step (h : k.Sound) (m : Move) :
    (k.step m).Sound ∧ (k.step m).world.router.router.limit? = k.world.router.router.limit? := by
  have hcall : ∀ call, (k.onRouter call).Sound ∧
      (k.onRouter call).world.router.router.limit? = k.world.router.router.limit? := by
    intro call
    have hrouter : (k.onRouter call).world.router.router = (k.world.router.router.call call).2 :=
      RecordedRouter.router_call _ _
    rw [Sound, hrouter]
    exact Router.sound_call h call
  cases m with
  | start =>
      have hnodes : (k.step .start).world.router.router.nodes = k.world.router.router.nodes :=
        Session.nodes_joinAll _ _
      rw [Sound, Router.limit?, Router.limit?, hnodes]
      exact ⟨h, rfl⟩
  | join cluster seed =>
      have hnodes : (k.step (.join cluster seed)).world.router.router.nodes =
          k.world.router.router.nodes :=
        settle_induction
          (P := fun s : Session => s.world.router.router.nodes = k.world.router.router.nodes) rfl
          fun s hs => Session.nodes_join hs
      rw [Sound, Router.limit?, Router.limit?, hnodes]
      exact ⟨h, rfl⟩
  | publish v => exact ⟨h, rfl⟩
  | takeDown a => exact ⟨h, rfl⟩
  | bringUp a => exact ⟨h, rfl⟩
  | behave conduct exceptions => exact ⟨h, rfl⟩
  | router call => cases call <;> exact hcall _
  | begin d =>
      rw [Course.step]
      split <;> exact ⟨h, rfl⟩
  | advance d =>
      cases hp : k.rounds d with
      | none =>
          rw [Course.step, hp]
          exact ⟨h, rfl⟩
      | some p =>
          have hworld : (k.step (.advance d)).world =
              (Program.step World.answer (p.rest, k.world)).2 := by rw [step_advance hp]; rfl
          rw [Sound, hworld, Program.step_snd]
          cases p.rest.question? with
          | none => exact ⟨h, rfl⟩
          | some q => exact ⟨(World.steady_answer _ q).sound h, (World.steady_answer _ q).limit h⟩

/-- Whatever happens, nodes are placed soundly and with the same limit. -/
theorem sound_ofMoves (config : Config) (hs : router.nodes.Sound) (moves : List Move) :
    (ofMoves config router moves).Sound ∧
      (ofMoves config router moves).world.router.router.limit? = router.limit? := by
  induction moves using List.reverseRecOn with
  | nil => exact ⟨hs, rfl⟩
  | append_singleton moves m ih =>
      rw [ofMoves_concat]
      obtain ⟨hsound, hlimit⟩ := ih.1.step m
      exact ⟨hsound, hlimit.trans ih.2⟩

/-! ### Courses -/

/-- What the invariant means for the next round of a joined cluster. -/
lemma Kept.outset (h : k.Kept config accepts c) (hj : k.world.enrolments.contains c = true)
    (hrest : k.resting c = true) : k.world.Outset c := by
  have hown : c ≠ config.localCluster := by
    rintro rfl
    exact absurd (h.away.symm.trans hj) Bool.false_ne_true
  exact ((h.rounds c False False.elim).standing hrest).outset ⟨rfl, hown⟩ hj

/-- Whatever has happened, a round finds its cluster in order, as long as nobody but discovery
changes its routes. -/
theorem outset_ofMoves (hr : router.Free c) (hm : ∀ m ∈ moves, m.Spares c)
    (hj : (ofMoves config router moves).world.enrolments.contains c = true)
    (hrest : (ofMoves config router moves).resting c = true) :
    (ofMoves config router moves).world.Outset c := by
  have h : (ofMoves config router moves).Kept config (fun _ => True) c :=
    kept_ofMoves hr hm fun _ _ => trivial
  exact h.outset hj hrest

end Course

end Federation
