import Federation.Proofs.Discovery.Rounds
import Federation.Proofs.Simulation.Moves

/-!
What discovery keeps true of the clusters that it has joined.

* `Course.Kept`: the invariant of a course. It tells of every cluster, between its rounds, that it
  is ready for the next one, and during a round what the rest of the round ensures.
* `Course.Kept.step`, `Course.kept_ofMoves`: every move keeps it.
* `Course.Safe`: what a round that has ended leaves behind, as seen from outside.
* `Course.safe_ofMoves`: it holds of a joined cluster whenever no round for it is under way.
-/

namespace Federation

open World

/-! ### Rounds that were begun -/

namespace World

variable {w w' : World} {t t' : Terms}

/-- What a round leaves behind, if it was begun in the middle of a course. -/
def Concluded (t : Terms) : Except Fault Changes → World → Prop :=
  Round.outcome (fun _ w => ∃ w₀ gone baseline v, Reconciled t w₀ gone baseline v w)
    (fun _ w => Standing t w ∧ w.viewOf t.cluster = none)

/-- A cluster is ready for its next round once a round has ended. -/
lemma Concluded.standing {r : Except Fault Changes} (h : Concluded t r w) : Standing t w := by
  cases r with
  | ok changes =>
      obtain ⟨w₀, gone, baseline, v, h⟩ := h
      exact h.standing
  | error e => exact h.1

end World

/-- What is kept true of a cluster and its latest round. -/
def Progress.Kept (t : Terms) (w : World) : Option Progress → Prop
  | none => Standing t w ∧ w.viewOf t.cluster = none
  | some p => p.rest.Ensures t.surroundings (Concluded t) w

namespace Progress.Kept

variable {t : Terms} {w w' : World} {p : Progress} {p? : Option Progress}

/-- Others may go on. -/
lemma of_others (h : Progress.Kept t w p?) (hs : t.surroundings.others w w') :
    Progress.Kept t w' p? := by
  cases p? with
  | none => exact ⟨h.1.of_others hs, (World.Spares.view hs).trans h.2⟩
  | some p => exact Program.ensures_of_others h hs

/-- What a round that has ended leaves behind. -/
lemma concluded (h : Progress.Kept t w (some p)) {r : Except Fault Changes}
    (hp : p.rest = .done r) :
    Concluded t r w := by
  rw [Progress.Kept, hp] at h
  exact h w (t.surroundings.refl w)

/-- A cluster is ready for its next round if none is under way. -/
lemma standing (h : Progress.Kept t w p?) (hrest : p?.all Progress.ended = true) :
    Standing t w := by
  cases p? with
  | none => exact h.1
  | some p =>
      obtain ⟨rest, calm⟩ := p
      cases rest with
      | done r => exact (h.concluded rfl).standing
      | ask q next => cases hrest
      | wait ms next => cases hrest

/-- A round begins with a cluster that is ready for it. -/
lemma ofRound (h : Standing t w) : Progress.Kept t w (some (.ofRound t.cluster)) := by
  refine Round.Ensures.mono (Round.update_ensures h) ?_ fun _ _ he => he
  rintro changes w' ⟨gone, baseline, v, hr, -⟩
  exact ⟨w, gone, baseline, v, hr⟩

end Progress.Kept

/-! ### Steps of a course -/

namespace Course

variable {config : Config} {accepts : View → Prop} {c d : String} {still : Prop} {k k' : Course}
  {m : Move}

/-- On what the rounds of a cluster can count in a course in which nobody but discovery changes
the routes of `c`, as long as that is not the cluster of this process. -/
def terms (config : Config) (accepts : View → Prop) (c d : String) (still : Prop) : Terms :=
  ⟨d, d = c ∧ c ≠ config.localCluster, still, False, accepts⟩

/-- Nobody has removed all routes since the latest round of the cluster began. -/
def Calm (k : Course) (d : String) : Prop := ∃ p, k.rounds d = some p ∧ p.calm = true

/-- What every move keeps true. -/
structure Kept (config : Config) (accepts : View → Prop) (c : String) (k : Course) : Prop where
  configured : k.world.config = config
  away : k.world.enrolments.contains config.localCluster = false
  views : ∀ v ∈ k.world.network.views.toList, accepts v
  rounds : ∀ (d : String) (still : Prop), (still → k.Calm d) →
    Progress.Kept (terms config accepts c d still) k.world (k.rounds d)

/-- A change of the world that spares the clusters. -/
lemma Kept.of_spares (h : k.Kept config accepts c) (hrounds : k'.rounds = k.rounds)
    (hconfig : k'.world.config = k.world.config)
    (haway : k'.world.enrolments.contains config.localCluster =
      k.world.enrolments.contains config.localCluster)
    (hviews : ∀ v ∈ k'.world.network.views.toList, accepts v)
    (hspares : ∀ (d : String) (still : Prop),
      Spares (d = c ∧ c ≠ config.localCluster) still d k.world k'.world) :
    k'.Kept config accepts c := by
  refine ⟨hconfig.trans h.configured, haway.trans h.away, hviews, fun d still hcalm => ?_⟩
  rw [Calm, hrounds] at hcalm
  rw [hrounds]
  exact (h.rounds d still hcalm).of_others (hspares d still)

/-- What happens on the network is of no concern to the rounds, save for the published views. -/
lemma Kept.onNetwork (h : k.Kept config accepts c) {net : Network}
    (hviews : ∀ v ∈ net.views.toList, accepts v) : (k.onNetwork net).Kept config accepts c :=
  h.of_spares rfl rfl rfl hviews fun _ _ => Spares.of_network net

/-- Starting and joining spare all clusters, of which the one of this process is not joined. -/
lemma Kept.of_grown (h : k.Kept config accepts c) (hrounds : k'.rounds = k.rounds)
    (hgrown : Grown k.world k'.world) : k'.Kept config accepts c := by
  obtain ⟨hconfig, hnetwork, haway, hspares⟩ := hgrown
  rw [h.configured] at haway hspares
  refine h.of_spares hrounds hconfig haway ?_ fun d still =>
    hspares _ still d fun hd => hd.1 ▸ hd.2
  rw [hnetwork]
  exact h.views

/-- Somebody removes all routes. No round that is under way can count on its routes any more. -/
lemma Kept.clear (h : k.Kept config accepts c) :
    (k.step (.router .clear)).Kept config accepts c := by
  refine ⟨h.configured, h.away, h.views, fun d still hcalm => ?_⟩
  have hrounds : (k.step (.router .clear)).rounds d =
    (k.rounds d).map fun p => { p with calm := false } := rfl
  have hstill : ¬still := by
    intro hs
    obtain ⟨p, hp, hpcalm⟩ := hcalm hs
    rw [hrounds] at hp
    obtain ⟨p', -, rfl⟩ := Option.map_eq_some_iff.mp hp
    cases hpcalm
  have hspares : Spares (d = c ∧ c ≠ config.localCluster) still d k.world
      (k.step (.router .clear)).world := spares_router .clear (fun _ => trivial) fun _ => hstill
  have hkept := (h.rounds d still fun hs => absurd hs hstill).of_others hspares
  rw [hrounds]
  cases hp : k.rounds d with
  | none =>
      rw [hp] at hkept
      exact hkept
  | some p =>
      rw [hp] at hkept
      exact hkept

/-- Somebody changes the router in another way. -/
lemma Kept.onRouter (h : k.Kept config accepts c) {call : RouterCall} (hcall : call.Spares c)
    (hclear : call ≠ .clear) : (k.onRouter call).Kept config accepts c :=
  h.of_spares rfl rfl rfl h.views fun _ _ =>
    spares_router call (fun ho => ho.1 ▸ hcall) fun he => absurd he hclear

/-- A round begins. -/
lemma Kept.begin (h : k.Kept config accepts c) (hrest : k.resting d = true) :
    (k.setRound d (.ofRound d)).Kept config accepts c := by
  refine ⟨h.configured, h.away, h.views, fun d' still hcalm => ?_⟩
  by_cases hd : d' = d
  · subst hd
    rw [rounds_setRound_self]
    have hstanding := (h.rounds d' False False.elim).standing hrest
    exact Progress.Kept.ofRound (hstanding.congr rfl id fun _ => id)
  · rw [Calm, rounds_setRound_of_ne hd] at hcalm
    rw [rounds_setRound_of_ne hd]
    exact h.rounds d' still hcalm

/-- A round takes a step. What is left of it ensures what the whole of it did, and the other
rounds are spared because the step concerns one cluster only. -/
lemma Kept.advance (h : k.Kept config accepts c) : (k.step (.advance d)).Kept config accepts c := by
  cases hp : k.rounds d with
  | none =>
      rw [Course.step, hp]
      exact h
  | some p =>
      rw [step_advance hp]
      obtain ⟨hconfig, hviews, hcontains⟩ := step_keeps p.rest k.world
      refine ⟨hconfig.trans h.configured, (hcontains _).trans h.away, fun v hv => ?_,
        fun d' still hcalm => ?_⟩
      · exact h.views v (hviews ▸ hv)
      · by_cases hd : d' = d
        · subst hd
          have hcalm : still → k.Calm d' := by
            intro hs
            obtain ⟨p', hp', hpcalm⟩ := hcalm hs
            obtain rfl := Option.some.inj (rounds_setRound_self.symm.trans hp')
            exact ⟨p, hp, hpcalm⟩
          have hrest := h.rounds d' still hcalm
          rw [hp] at hrest
          rw [rounds_setRound_self]
          exact Program.Ensures.step hrest fun q _ => admits_answer not_false h.views q
        · have hkept := h.rounds d False False.elim
          rw [hp] at hkept
          rw [Calm, rounds_setRound_of_ne hd] at hcalm
          rw [rounds_setRound_of_ne hd]
          exact (h.rounds d' still hcalm).of_others (spares_step hkept hd)

/-- Every move keeps the invariant. -/
theorem Kept.step (h : k.Kept config accepts c) (hm : m.Spares c)
    (hv : ∀ v, m = .publish v → accepts v) : (k.step m).Kept config accepts c := by
  cases m with
  | start => exact h.of_grown rfl (Session.grown_start k.session)
  | join cluster seed =>
      refine h.of_grown rfl (settle_induction (P := fun s => Grown k.world s.world)
        (Grown.refl _) fun s hs => Session.grown_join hs)
  | publish v =>
      refine h.onNetwork fun v' hv' => ?_
      rcases Keyed.mem_insert.mp hv' with rfl | hv'
      · exact hv v' rfl
      · exact h.views v' hv'.1
  | takeDown a => exact h.onNetwork h.views
  | bringUp a => exact h.onNetwork h.views
  | behave conduct exceptions => exact h.onNetwork h.views
  | router call =>
      cases call with
      | clear => exact h.clear
      | setUp clusters => exact h.onRouter hm (by simp)
      | setLocalNode n => exact h.onRouter hm (by simp)
      | addRoute d n => exact h.onRouter hm (by simp)
      | removeRoute d n => exact h.onRouter hm (by simp)
  | begin d =>
      rw [Course.step]
      split
      next hrest => exact h.begin hrest
      next => exact h
  | advance d => exact h.advance

end Course

/-- Nothing is routed for the cluster, and it is not registered as that of this process. -/
structure Router.Free (r : Router) (cluster : String) : Prop where
  routed : r.nodes.nodesOf cluster = ∅
  remote : ∀ k, r.clusters.find? cluster = some k → k.isLocal = false

namespace Course

variable {config : Config} {router : Router} {accepts : View → Prop} {c : String} {k : Course}
  {moves : List Move}

/-- The invariant holds before anything has happened. -/
lemma kept_initial (hr : router.Free c) : (initial config router).Kept config accepts c := by
  refine ⟨rfl, rfl, List.forall_mem_nil _, fun d still _ => ⟨?_, rfl⟩⟩
  refine ⟨⟨⟨rfl, fun hj => ?_, ?_, ?_⟩, ?_, ?_⟩, ?_⟩
  · cases hj
  · exact List.forall_mem_nil _
  · rintro ⟨rfl, -⟩
    exact hr.remote
  · exact List.nodup_nil
  · rintro ⟨rfl, -⟩ n hn
    have hempty : (initial config router).world.routedOf d = ∅ := hr.routed
    have hn : n ∈ ((initial config router).world.routedOf d).toList := hn
    rw [hempty] at hn
    cases hn
  · rintro v hv
    cases hv

/-- The invariant holds after every history. -/
theorem kept_ofMoves (hr : router.Free c) (hm : ∀ m ∈ moves, m.Spares c)
    (hv : ∀ v, .publish v ∈ moves → accepts v) :
    (ofMoves config router moves).Kept config accepts c := by
  induction moves using List.reverseRecOn with
  | nil => exact kept_initial hr
  | append_singleton moves m ih =>
      rw [ofMoves_concat]
      refine Kept.step (ih (fun m' h => hm m' (List.mem_append_left _ h))
        fun v h => hv v (List.mem_append_left _ h)) ?_ ?_
      · exact hm m (List.mem_append_right _ List.mem_cons_self)
      · rintro v rfl
        exact hv v (List.mem_append_right _ List.mem_cons_self)

/-! ### Safety -/

/-- What holds of a joined cluster whenever no round for it is under way. -/
structure Safe (k : Course) (c : String) : Prop where
  distinct : ((k.world.trackedOf c).map fun h => h.node.name).Nodup
  within : ∀ n ∈ (k.world.routedOf c).toList, ∃ h ∈ k.world.trackedOf c, h.node = n
  /-- After a round that has succeeded the routed nodes are the live ones, until all routes are
  removed. -/
  agree : ∀ changes, k.rounds c = some ⟨.done (.ok changes), true⟩ →
    ∀ n, n ∈ (k.world.routedOf c).toList ↔ ∃ h ∈ k.world.trackedOf c, h.node = n
  /-- A view is stored only after a round that has succeeded. -/
  stored : ∀ v, k.world.viewOf c = some v →
    ∃ changes calm, k.rounds c = some ⟨.done (.ok changes), calm⟩
  discarded : ∀ e calm, k.rounds c = some ⟨.done (.error e), calm⟩ → k.world.viewOf c = none
  /-- A stored view is one of the cluster, and every live node is one of its members by name and
  address. -/
  listed : ∀ v, k.world.viewOf c = some v →
    v.cluster = c ∧ ∀ h ∈ k.world.trackedOf c, ⟨h.node.name, h.node.address⟩ ∈ v.members.toList

/-- What the invariant means for a joined cluster. -/
lemma Kept.safe (h : k.Kept config accepts c) (hj : k.world.enrolments.contains c = true)
    (hrest : k.resting c = true) : k.Safe c := by
  -- a joined cluster is not that of this process, so that its routes are looked after
  have hown : c = c ∧ c ≠ config.localCluster := by
    refine ⟨rfl, ?_⟩
    rintro rfl
    exact absurd (h.away.symm.trans hj) Bool.false_ne_true
  have hkept := h.rounds c False False.elim
  have hstanding : Standing (terms config accepts c c False) k.world := hkept.standing hrest
  have hmem : ∀ n, n ∈ k.world.rosterOf c ↔ ∃ h ∈ k.world.trackedOf c, h.node = n :=
    fun n => List.mem_map
  refine ⟨?_, fun n hn => (hmem n).mp (hstanding.within hown n hn), fun changes hr n => ?_,
    fun v hv => ?_, fun e calm hr => ?_, fun v hv => ?_⟩
  · have hdistinct : (k.world.rosterOf c).Distinct := hstanding.distinct
    rwa [Roster.Distinct, rosterOf, List.map_map] at hdistinct
  · have hcalm := h.rounds c True fun _ => ⟨_, hr, rfl⟩
    rw [hr] at hcalm
    obtain ⟨w₀, gone, baseline, v, hreconciled⟩ := hcalm.concluded rfl
    rw [← hmem]
    exact ⟨hstanding.within hown n, hreconciled.routed hown trivial n⟩
  · cases hr : k.rounds c with
    | none =>
        rw [hr] at hkept
        exact absurd (hkept.2.symm.trans hv) (by simp)
    | some p =>
        obtain ⟨rest, calm⟩ := p
        rw [resting, hr] at hrest
        rw [hr] at hkept
        cases rest with
        | done r =>
            cases r with
            | ok changes => exact ⟨changes, calm, rfl⟩
            | error e => exact absurd ((hkept.concluded rfl).2.symm.trans hv) (by simp)
        | ask q next => cases hrest
        | wait ms next => cases hrest
  · rw [hr] at hkept
    exact (hkept.concluded rfl).2
  · obtain ⟨-, hcluster, hlisted⟩ := hstanding.listed v hv
    refine ⟨hcluster, fun h hh => ?_⟩
    exact View.mem_nodes.mp (hlisted h.node ((hmem _).mpr ⟨h, hh, rfl⟩))

/-- Whatever has happened, a joined cluster of which no round is under way is safe, as long as
nobody but discovery changes its routes. -/
theorem safe_ofMoves (hr : router.Free c) (hm : ∀ m ∈ moves, m.Spares c)
    (hj : (ofMoves config router moves).world.enrolments.contains c = true)
    (hrest : (ofMoves config router moves).resting c = true) :
    (ofMoves config router moves).Safe c := by
  have h : (ofMoves config router moves).Kept config (fun _ => True) c :=
    kept_ofMoves hr hm fun _ _ => trivial
  exact h.safe hj hrest

/-! ### A course in which a node fails -/

/-- The process belongs to `europe` and reaches `asia` through a seed. -/
def pairConfig : Config :=
  ⟨"europe", 1000, ["europe", "asia"], .ofList [("asia", "host:1")], .fixed⟩

/-- Up to four nodes for a cluster, and nothing routed yet. -/
def pairRouter : Router :=
  .ofPlacements (.hashed (.ofLimit 4 (.ofCode String.length))) (.ofHash (.ofCode String.length))

/-- Two nodes of `asia`. -/
def pairView : View := .ofList "asia" [⟨"a", ⟨"host", 1⟩⟩, ⟨"b", ⟨"host", 2⟩⟩]

/-- A round for `asia` with steps enough to end. -/
def pairRound : List Move := .begin "asia" :: .replicate 30 (.advance "asia")

/-- Both nodes are routed. The one that is asked first fails, so that the next round drops it, and
it comes back after that. -/
def failover : List Move :=
  [.publish pairView, .start] ++ pairRound ++ [.takeDown ⟨"host", 1⟩] ++ pairRound ++
    [.bringUp ⟨"host", 1⟩]

lemma free_pairRouter : pairRouter.Free "asia" :=
  ⟨rfl, fun k hk => by cases hk⟩

lemma spares_failover : ∀ m ∈ failover, m.Spares "asia" := by
  simp [failover, pairRound, Move.Spares]

/-- After the failover all routes are removed, and the next round brings both nodes back. -/
theorem safe_after_failover :
    (ofMoves pairConfig pairRouter (failover ++ [.router .clear] ++ pairRound)).Safe "asia" ∧
      (ofMoves pairConfig pairRouter
          (failover ++ [.router .clear] ++ pairRound)).world.rosterOf "asia" =
        [⟨"a", ⟨"host", 1⟩⟩, ⟨"b", ⟨"host", 2⟩⟩] := by
  refine ⟨safe_ofMoves free_pairRouter ?_ (by decide +kernel) (by decide +kernel), ?_⟩
  · simp [failover, pairRound, Move.Spares, RouterCall.Spares]
  · decide +kernel

end Course

end Federation
