import Federation.Proofs.Discovery.Admission
import Federation.Proofs.Discovery.CleanRound

/-!
Members that share a name.

* `View.Carries`: of a later view each name joins again of which an earlier member goes although the
  later view still lists it.
* `Roster.covers_reconciled_iff`: a roster with the names of the earlier view gets those of the later
  one exactly if the later view carries them on.
* `Move.Elsewhere`: what is neither part of the rounds of a cluster nor about its routes.
* `Course.Rounds`: clean rounds of a cluster, between which anything may happen elsewhere.
* `Course.Between`: what holds before and after each of them.
* `Course.rounds_in_line_iff`: after each round the routed names are those of the stored view exactly
  if every view carries on the names of the view before.
-/

namespace Federation

/-! ### Names of a roster -/

/-- If a member goes and the later view still lists its name, then a member of that name joins. -/
def View.Carries (p v : View) : Prop :=
  ∀ m ∈ p.members.difference v.members, v.lists m.name = true →
    ∃ m' ∈ v.members.difference p.members, m'.name = m.name

instance : DecidableRel View.Carries := fun p v =>
  inferInstanceAs (Decidable (∀ m ∈ p.members.difference v.members, _ → _))

/-- Nothing is lost where the earlier view lists no name twice. -/
lemma View.Distinct.carries {p v : View} (hp : p.Distinct) : p.Carries v := by
  intro m hm hlists
  obtain ⟨hmp, hmv⟩ := ValueSet.mem_difference.mp hm
  obtain ⟨m', hm', hname⟩ := View.lists_iff.mp hlists
  refine ⟨m', ValueSet.mem_difference.mpr ⟨hm', fun hp' => ?_⟩, hname⟩
  exact hmv (hp.eq_of_name_eq hp' hmp hname ▸ hm')

namespace Roster

variable {l : Roster} {p v : View} {m : Member} {ms : List Member} {names : List String}
  {name : String}

/-- The names of the nodes are those that the view lists. -/
def Covers (l : Roster) (v : View) : Prop := ∀ name, name ∈ l.map Node.name ↔ v.lists name = true

lemma mem_names_leave : name ∈ (l.leave names).map Node.name ↔
    name ∈ l.map Node.name ∧ name ∉ names := by
  simp only [List.mem_map, mem_leave]
  constructor
  · rintro ⟨n, ⟨hn, hstays⟩, rfl⟩
    exact ⟨⟨n, hn, rfl⟩, hstays⟩
  · rintro ⟨⟨n, hn, rfl⟩, hstays⟩
    exact ⟨n, ⟨hn, hstays⟩, rfl⟩

/-- A node that gives way to a member leaves its name to it. -/
lemma mem_names_enlist : name ∈ (l.enlist m).map Node.name ↔
    name ∈ l.map Node.name ∨ name = m.name := by
  have hwithout : l.without m.name = l.leave [m.name] := by simp [without, leave]
  rw [enlist, hwithout, List.map_append, List.mem_append, mem_names_leave, List.map_singleton,
    List.mem_singleton, List.mem_singleton, Node.name_ofMember]
  by_cases hname : name = m.name <;> simp [hname]

lemma mem_names_foldl_enlist : name ∈ (ms.foldl enlist l).map Node.name ↔
    name ∈ l.map Node.name ∨ name ∈ ms.map Member.name := by
  induction ms generalizing l with
  | nil => simp
  | cons m ms ih => rw [List.foldl_cons, ih, mem_names_enlist, List.map_cons, List.mem_cons, or_assoc]

lemma lists_iff_mem_names : v.lists name = true ↔ name ∈ v.members.toList.map Member.name :=
  View.lists_iff.trans List.mem_map.symm

/-- Where a view is compared with nothing, all of its names are there in the end, and no others. -/
lemma covers_reconciled_none (l : Roster) (v : View) : (l.reconciled none v).Covers v := by
  intro name
  rw [reconciled_none, mem_names_foldl_enlist, List.map_nil, lists_iff_mem_names]
  exact or_iff_right List.not_mem_nil

/-- A roster with the names of an earlier view gets those of a later one exactly if this carries on
the names of the earlier one. -/
lemma covers_reconciled_iff (hl : l.Covers p) :
    (l.reconciled (some p) v).Covers v ↔ p.Carries v := by
  have hnames : ∀ name, name ∈ (l.reconciled (some p) v).map Node.name ↔
      (p.lists name = true ∧ name ∉ (p.members.difference v.members).map Member.name) ∨
        name ∈ (v.members.difference p.members).map Member.name := fun name => by
    rw [reconciled, pruned_some, mem_names_foldl_enlist, mem_names_leave, hl name]
    rfl
  constructor
  · intro hcovers m hm hlists
    rcases (hnames m.name).mp ((hcovers m.name).mpr hlists) with ⟨-, hstays⟩ | hjoins
    · exact absurd (List.mem_map_of_mem hm) hstays
    · exact List.mem_map.mp hjoins
  · intro hcarries name
    rw [hnames]
    constructor
    · rintro (⟨hearlier, hstays⟩ | hjoins)
      · obtain ⟨m, hm, rfl⟩ := View.lists_iff.mp hearlier
        by_contra hgone
        refine hstays (List.mem_map_of_mem (ValueSet.mem_difference.mpr ⟨hm, fun hv => ?_⟩))
        exact hgone (View.lists_iff.mpr ⟨m, hv, rfl⟩)
      · obtain ⟨m, hm, rfl⟩ := List.mem_map.mp hjoins
        exact View.lists_iff.mpr ⟨m, (ValueSet.mem_difference.mp hm).1, rfl⟩
    · intro hlists
      obtain ⟨m, hm, rfl⟩ := View.lists_iff.mp hlists
      by_cases hearlier : m ∈ p.members.toList
      · by_cases hgoes : m.name ∈ (p.members.difference v.members).map Member.name
        · -- another member of the name goes, and so it is carried on
          obtain ⟨m', hm', hname⟩ := List.mem_map.mp hgoes
          obtain ⟨m'', hm'', hname'⟩ := hcarries m' hm' (hname ▸ hlists)
          exact Or.inr (List.mem_map.mpr ⟨m'', hm'', hname'.trans hname⟩)
        · exact Or.inl ⟨View.lists_iff.mpr ⟨m, hearlier, rfl⟩, hgoes⟩
      · exact Or.inr (List.mem_map_of_mem (ValueSet.mem_difference.mpr ⟨hm, hearlier⟩))

end Roster

/-! ### What happens elsewhere -/

/-- The move is no part of a round for the cluster, and nobody changes its routes. -/
def Move.Elsewhere (cluster : String) : Move → Prop
  | router call => call.Spares cluster ∧ call ≠ .clear
  | begin d | advance d => d ≠ cluster
  | _ => True

lemma Move.Elsewhere.spares {c : String} {m : Move} (h : m.Elsewhere c) : m.Spares c := by
  cases m with
  | router call => exact h.1
  | _ => trivial

/-- A round in which every contact succeeds connects no node in vain. -/
lemma World.Clean.connects {w : World} {c : String} (h : w.Clean c) : w.Connects c := by
  intro x hx
  have hsucceeded : x.1.succeeded x.2 = true := List.all_eq_true.mp h x hx
  obtain ⟨q, a⟩ := x
  cases q with
  | connect h =>
      cases a with
      | ok _ => rfl
      | error e => cases hsucceeded
  | _ => rfl

namespace Course

open World

variable {config : Config} {router : Router} {accepts : View → Prop} {c : String} {k : Course}
  {m : Move} {moves : List Move} {v : View} {o : Option View}

/-- What happens elsewhere leaves the live nodes, the routes and the stored view as they are. -/
lemma Kept.spares_elsewhere (h : k.Kept config accepts c) (hc : c ≠ config.localCluster)
    (hm : m.Elsewhere c) : Spares True True c k.world (k.step m).world := by
  have hgrown : ∀ {w}, Grown k.world w → Spares True True c k.world w := fun hw =>
    hw.spares True True c fun _ => h.configured ▸ hc
  cases m with
  | start => exact hgrown (Session.grown_start k.session)
  | join cluster seed =>
      exact settle_induction (P := fun s => Spares True True c k.world s.world) (Spares.refl _)
        fun s hs => hgrown (Session.grown_join hs)
  | publish v => exact Spares.of_network _
  | takeDown a => exact Spares.of_network _
  | bringUp a => exact Spares.of_network _
  | behave conduct exceptions => exact Spares.of_network _
  | router call =>
      have hrouter : (k.step (.router call)).world =
          { k.world with router := (k.world.router.call call).2 } := by cases call <;> rfl
      rw [hrouter]
      exact spares_router call (fun _ => hm.1) fun he => absurd he hm.2
  | begin d =>
      have hworld : (k.step (.begin d)).world = k.world := by
        rw [Course.step]
        split <;> rfl
      rw [hworld]
      exact Spares.refl _
  | advance d =>
      cases hp : k.rounds d with
      | none =>
          rw [Course.step, hp]
          exact Spares.refl _
      | some p =>
          have hkept := h.rounds d False False.elim
          rw [hp] at hkept
          rw [step_advance hp]
          exact spares_step hkept (Ne.symm hm)

/-- No round of the cluster begins or goes on elsewhere. -/
lemma rounds_elsewhere (hm : m.Elsewhere c) : (k.step m).rounds c = k.rounds c := by
  cases m with
  | router call =>
      cases call with
      | clear => exact absurd rfl hm.2
      | _ => rfl
  | begin d =>
      rw [Course.step]
      split
      next => exact rounds_setRound_of_ne (Ne.symm hm)
      next => rfl
  | advance d =>
      cases hp : k.rounds d with
      | none => rw [Course.step, hp]
      | some p =>
          rw [step_advance hp]
          exact rounds_setRound_of_ne (Ne.symm hm)
  | _ => rfl

/-! ### Rounds in a row -/

/-- The course after a whole round of the cluster with nothing else going on. -/
def round (k : Course) (cluster : String) : Course :=
  (k.inWorld (k.world.update cluster).2.2).setRound cluster
    ⟨.done (k.world.update cluster).1, true⟩

/-- Rounds of the cluster in which every contact succeeds and a view is obtained that lists no more
names than there may be nodes. Other things happen between the rounds. The courses after the rounds
come with the views. -/
inductive Rounds (cluster : String) (max : ℕ) : Course → List (Course × View) → Prop
  | nil (k : Course) : Rounds cluster max k []
  | other {k : Course} {m : Move} {rs : List (Course × View)} :
    m.Elsewhere cluster → Rounds cluster max (k.step m) rs → Rounds cluster max k rs
  | round {k : Course} {v : View} {rs : List (Course × View)} :
    k.world.Clean cluster → k.world.obtained cluster = some v → v.names.length ≤ max →
      Rounds cluster max (k.round cluster) rs →
        Rounds cluster max k ((k.round cluster, v) :: rs)

/-- The names of the routed nodes are those that the view lists. -/
def Mirrors (k : Course) (cluster : String) (v : View) : Prop :=
  ∀ name, (k.world.routedOf cluster).contains name = v.lists name

lemma mirrors_iff_covers {l : Roster} (h : ∀ n, n ∈ (k.world.routedOf c).toList ↔ n ∈ l) :
    k.Mirrors c v ↔ l.Covers v := by
  refine forall_congr' fun name => ?_
  rw [Bool.eq_iff_iff, Keyed.contains_iff, List.mem_map]
  simp only [h]

/-- What holds between the rounds of a cluster after which a view was stored, or none. -/
structure Between (config : Config) (router : Router) (c : String) (o : Option View) (k : Course) :
    Prop where
  reached : ∃ moves, k = ofMoves config router moves ∧ ∀ m ∈ moves, m.Spares c
  joined : k.world.enrolments.contains c = true
  resting : k.resting c = true
  view : k.world.viewOf c = o
  routed : ∀ p, o = some p → ∀ n, n ∈ (k.world.routedOf c).toList ↔ n ∈ k.world.rosterOf c

namespace Between

lemma kept (h : k.Between config router c o) (hr : router.Free c) :
    k.Kept config (fun _ => True) c := by
  obtain ⟨moves, rfl, hm⟩ := h.reached
  exact kept_ofMoves hr hm fun _ _ => trivial

lemma ne_local (h : k.Between config router c o) (hr : router.Free c) :
    c ≠ config.localCluster := by
  rintro rfl
  exact absurd ((h.kept hr).away.symm.trans h.joined) Bool.false_ne_true

/-- The stored view is what the next round compares with. -/
lemma baseline (h : k.Between config router c o) : k.world.baselineOf c = o := by
  rw [baselineOf, h.view]
  cases o with
  | none => exact ite_self _
  | some p =>
      refine if_pos (List.all_eq_true.mpr fun n hn => ?_)
      exact Keyed.contains_iff.mpr ⟨n, (h.routed p rfl n).mpr hn, rfl⟩

/-- What happens elsewhere makes no difference. -/
lemma elsewhere (h : k.Between config router c o) (hr : router.Free c) (hm : m.Elsewhere c) :
    (k.step m).Between config router c o ∧
      (k.step m).world.routedOf c = k.world.routedOf c := by
  have hspares := (h.kept hr).spares_elsewhere (h.ne_local hr) hm
  have hrouted := hspares.routedOf_eq trivial trivial
  refine ⟨⟨?_, hspares.joined h.joined, ?_, hspares.view.trans h.view, fun p hp n => ?_⟩, hrouted⟩
  · obtain ⟨moves, rfl, hmoves⟩ := h.reached
    refine ⟨moves ++ [m], (ofMoves_concat ..).symm, fun m' hm' => ?_⟩
    rcases List.mem_append.mp hm' with hm' | hm'
    · exact hmoves m' hm'
    · exact List.mem_singleton.mp hm' ▸ hm.spares
  · rw [Course.resting, rounds_elsewhere hm]
    exact h.resting
  · rw [hrouted, rosterOf_eq_of_spares hspares]
    exact h.routed p hp n

/-- A round that obtains a small enough view is successful if every contact succeeds. -/
lemma update_eq_ok (h : k.Between config router c o) {p : HashedNodes}
    (hp : router.nodes = .hashed p) (hs : p.Sound) (hr : router.Free c)
    (hclean : k.world.Clean c) (ho : k.world.obtained c = some v) (hv : v.names.length ≤ p.max) :
    (k.world.update c).1 = .ok (k.world.changesTo c v) := by
  obtain ⟨moves, rfl, hm⟩ := h.reached
  have hw := outset_ofMoves hr hm h.joined h.resting
  have hrouter : router.nodes.Sound := by
    rw [hp]
    exact hs
  obtain ⟨hsound, hlimit⟩ := sound_ofMoves config hrouter moves
  have hmax : router.limit? = some p.max := by
    rw [Router.limit?, hp]
    rfl
  have hroomy := hw.roomy_cleared hv
  rw [← hmax, ← hlimit] at hroomy
  rcases World.update_eq_ok_or hw hsound ho hroomy with hok | ⟨m, -, -, herror⟩
  · exact hok
  · exact absurd herror (World.update_ne_communication hclean.connects _ _)

/-- Such a round stores the view, and it makes of the live nodes what the view does. -/
lemma round (h : k.Between config router c o) {p : HashedNodes} (hp : router.nodes = .hashed p)
    (hs : p.Sound) (hr : router.Free c) (hclean : k.world.Clean c)
    (ho : k.world.obtained c = some v) (hv : v.names.length ≤ p.max) :
    (k.round c).Between config router c (some v) ∧
      ((k.round c).Mirrors c v ↔ ((k.world.rosterOf c).reconciled o v).Covers v) := by
  have hok := h.update_eq_ok hp hs hr hclean ho hv
  have hrounds : (k.round c).rounds c = some ⟨.done (.ok (k.world.changesTo c v)), true⟩ := by
    rw [Course.round, rounds_setRound_self, hok]
  have hrest : (k.round c).resting c = true := by
    rw [Course.resting, hrounds]
    rfl
  have hjoined : (k.round c).world.enrolments.contains c = true :=
    ((World.steady_update k.world c).joined c).trans h.joined
  have hreached : ∃ moves, k.round c = ofMoves config router moves ∧ ∀ m ∈ moves, m.Spares c := by
    obtain ⟨n, hn⟩ := exists_update h.resting
    obtain ⟨moves, rfl, hm⟩ := h.reached
    refine ⟨moves ++ .begin c :: List.replicate n (.advance c), ?_, fun m hm' => ?_⟩
    · rw [Course.round, ← hn]
      simp [ofMoves, after]
    · rcases List.mem_append.mp hm' with hm' | hm'
      · exact hm m hm'
      · rcases List.mem_cons.mp hm' with rfl | hm'
        · trivial
        · obtain rfl := (List.mem_replicate.mp hm').2
          trivial
  have hview : (k.round c).world.viewOf c = some v := by
    obtain ⟨moves, rfl, hm⟩ := h.reached
    have hw := outset_ofMoves hr hm h.joined h.resting
    obtain ⟨v', ho', -, -, hview⟩ := World.update_eq_ok hw.ready hw.tidy hok
    obtain rfl := Option.some.inj (ho.symm.trans ho')
    exact hview
  obtain ⟨v', hview', -, hreconciled⟩ := reconciled_of_clean (h.kept hr) h.joined h.resting hclean
    (Prod.ext hok rfl : k.world.update c = (.ok _, _, _))
  obtain rfl := Option.some.inj (hview.symm.trans hview')
  rw [h.baseline] at hreconciled
  refine ⟨⟨hreached, hjoined, hrest, hview, fun p hp n => ?_⟩, mirrors_iff_covers hreconciled⟩
  obtain ⟨moves, hmoves, hm⟩ := hreached
  have hsafe : (k.round c).Safe c := by
    rw [hmoves] at hjoined hrest ⊢
    exact safe_ofMoves hr hm hjoined hrest
  exact (hsafe.agree _ hrounds n).trans List.mem_map.symm

/-- As long as the names of the routed nodes are those of the stored view, the next view decides
whether they stay so. -/
lemma rounds (h : k.Between config router c o) {p : HashedNodes} (hp : router.nodes = .hashed p)
    (hs : p.Sound) (hr : router.Free c) {rs : List (Course × View)} (hrs : Rounds c p.max k rs) :
    (∀ r ∈ rs, r.1.world.viewOf c = some r.2 ∧
      ∃ changes, r.1.rounds c = some ⟨.done (.ok changes), true⟩) ∧
    ((∀ q, o = some q → k.Mirrors c q) →
      ((∀ r ∈ rs, r.1.Mirrors c r.2) ↔ (o.toList ++ rs.map Prod.snd).IsChain View.Carries)) := by
  induction hrs generalizing o with
  | nil k =>
      refine ⟨fun r hr => absurd hr List.not_mem_nil, fun _ => ?_⟩
      cases o <;> simp
  | other hm _ ih =>
      obtain ⟨hbetween, hrouted⟩ := h.elsewhere hr hm
      obtain ⟨hstored, hiff⟩ := ih hbetween
      refine ⟨hstored, fun hmirrors => hiff fun q hq name => ?_⟩
      rw [hrouted]
      exact hmirrors q hq name
  | @round k v rs hclean ho hv _ ih =>
      obtain ⟨hbetween, hcovers⟩ := h.round hp hs hr hclean ho hv
      obtain ⟨hstored, hiff⟩ := ih hbetween
      have hok := h.update_eq_ok hp hs hr hclean ho hv
      have hended : (k.round c).rounds c = some ⟨.done (.ok (k.world.changesTo c v)), true⟩ := by
        rw [Course.round, rounds_setRound_self, hok]
      refine ⟨List.forall_mem_cons.mpr ⟨⟨hbetween.view, _, hended⟩, hstored⟩, fun hmirrors => ?_⟩
      rw [List.forall_mem_cons, hcovers]
      have hrest : (k.round c).Mirrors c v →
          ((∀ r ∈ rs, r.1.Mirrors c r.2) ↔ (v :: rs.map Prod.snd).IsChain View.Carries) :=
        fun hround => hiff fun q hq => Option.some.inj hq ▸ hround
      rw [hcovers] at hrest
      cases o with
      | none =>
          -- everybody joins anew in the first round
          have hcovered := Roster.covers_reconciled_none (k.world.rosterOf c) v
          exact (and_iff_right hcovered).trans (hrest hcovered)
      | some q =>
          have hnames := (mirrors_iff_covers (h.routed q rfl)).mp (hmirrors q rfl)
          have hchain : ((some q).toList ++ ((k.round c, v) :: rs).map Prod.snd).IsChain
              View.Carries ↔ q.Carries v ∧ (v :: rs.map Prod.snd).IsChain View.Carries :=
            List.isChain_cons_cons
          rw [hchain, ← Roster.covers_reconciled_iff hnames]
          exact and_congr_right hrest

end Between

/-- From the time when no view is stored, every round in which each contact succeeds is successful
and stores the view that it has obtained, as long as this does not list too many names. After each
round the names of the routed nodes are those of the stored view exactly if every view carries on
the names of the view before. So it is where no view lists a name twice. -/
theorem rounds_in_line_iff {p : HashedNodes} (hp : router.nodes = .hashed p) (hs : p.Sound)
    (hr : router.Free c) (hm : ∀ m ∈ moves, m.Spares c)
    (hj : (ofMoves config router moves).world.enrolments.contains c = true)
    (hrest : (ofMoves config router moves).resting c = true)
    (hnone : (ofMoves config router moves).world.viewOf c = none) {rs : List (Course × View)}
    (hrs : Rounds c p.max (ofMoves config router moves) rs) :
    (∀ r ∈ rs, r.1.world.viewOf c = some r.2 ∧
      ∃ changes, r.1.rounds c = some ⟨.done (.ok changes), true⟩) ∧
    ((∀ r ∈ rs, r.1.Mirrors c r.2) ↔ (rs.map Prod.snd).IsChain View.Carries) ∧
    ((∀ r ∈ rs, r.2.Distinct) → ∀ r ∈ rs, r.1.Mirrors c r.2) := by
  have h : (ofMoves config router moves).Between config router c none :=
    ⟨⟨moves, rfl, hm⟩, hj, hrest, hnone, fun p hp => by cases hp⟩
  obtain ⟨hstored, hiff⟩ := h.rounds hp hs hr hrs
  have hiff : (∀ r ∈ rs, r.1.Mirrors c r.2) ↔ (rs.map Prod.snd).IsChain View.Carries :=
    hiff fun q hq => by cases hq
  refine ⟨hstored, hiff, fun hdistinct => hiff.mpr ?_⟩
  have hall : ∀ v ∈ rs.map Prod.snd, v.Distinct := List.forall_mem_map.mpr hdistinct
  exact (List.pairwise_of_forall_mem_list fun q hq v _ => (hall q hq).carries).isChain

/-- One name at two addresses. -/
def sharedView : View := .ofList "asia" [⟨"x", ⟨"host", 1⟩⟩, ⟨"x", ⟨"host", 2⟩⟩]

/-- The first member has gone, and another one of its name has joined. -/
def relievedView : View := .ofList "asia" [⟨"x", ⟨"host", 2⟩⟩, ⟨"x", ⟨"host", 3⟩⟩]

/-- The first member has gone, and only the second one is left. -/
def bereftView : View := .ofList "asia" [⟨"x", ⟨"host", 2⟩⟩]

/-- The cluster is joined when the name is listed at two addresses. -/
def sharing : Course := ofMoves pairConfig pairRouter [.publish sharedView, .start]

/-- A round, after which the cluster publishes another view, and another round. -/
def succeeding (next : View) : Course :=
  ((sharing.round "asia").step (.publish next)).round "asia"

lemma spares_sharing : ∀ m ∈ [Move.publish sharedView, .start], m.Spares "asia" := by
  simp [Move.Spares]

lemma rounds_succeeding {next : View}
    (hclean : ((sharing.round "asia").step (.publish next)).world.Clean "asia")
    (ho : ((sharing.round "asia").step (.publish next)).world.obtained "asia" = some next)
    (hsmall : next.names.length ≤ 4) :
    Rounds "asia" 4 sharing [(sharing.round "asia", sharedView), (succeeding next, next)] :=
  .round (by decide +kernel) (by decide +kernel) (by decide +kernel)
    (.other (m := .publish next) trivial (.round hclean ho hsmall (.nil _)))

/-- The name is carried on by the member that joins. -/
theorem rounds_in_line_iff_succeeding : (sharing.round "asia").Mirrors "asia" sharedView ∧
    (succeeding relievedView).Mirrors "asia" relievedView := by
  have hrounds : Rounds "asia" 4 sharing
      [(sharing.round "asia", sharedView), (succeeding relievedView, relievedView)] :=
    rounds_succeeding (by decide +kernel) (by decide +kernel) (by decide +kernel)
  have hmirrors := (rounds_in_line_iff rfl (HashedNodes.sound_ofLimit _ _) free_pairRouter
    spares_sharing (by decide +kernel) (by decide +kernel) (by decide +kernel) hrounds).2.1.mpr
      (by decide +kernel)
  exact ⟨hmirrors _ List.mem_cons_self, hmirrors _ (List.mem_cons_of_mem _ List.mem_cons_self)⟩

/-- A name may be lost although the stored view lists it: the member that goes takes the node of the
one that stays along. -/
theorem not_always_mirrored : ¬∀ (config : Config) (p : HashedNodes) (placement : ClusterPlacement)
    (c : String) (moves : List Move) (rs : List (Course × View)), p.Sound →
    (Router.ofPlacements (.hashed p) placement).Free c → (∀ m ∈ moves, m.Spares c) →
    (ofMoves config (.ofPlacements (.hashed p) placement) moves).world.enrolments.contains c = true →
    (ofMoves config (.ofPlacements (.hashed p) placement) moves).resting c = true →
    (ofMoves config (.ofPlacements (.hashed p) placement) moves).world.viewOf c = none →
    Rounds c p.max (ofMoves config (.ofPlacements (.hashed p) placement) moves) rs →
    ∀ r ∈ rs, r.1.Mirrors c r.2 := by
  intro hall
  have hrounds : Rounds "asia" 4 sharing
      [(sharing.round "asia", sharedView), (succeeding bereftView, bereftView)] :=
    rounds_succeeding (by decide +kernel) (by decide +kernel) (by decide +kernel)
  have hmirrors := hall pairConfig _ _ "asia" _ _ (HashedNodes.sound_ofLimit _ _) free_pairRouter
    spares_sharing (by decide +kernel) (by decide +kernel) (by decide +kernel) hrounds
      (succeeding bereftView, bereftView) (List.mem_cons_of_mem _ List.mem_cons_self) "x"
  exact absurd hmirrors (by decide +kernel)

end Course

end Federation
