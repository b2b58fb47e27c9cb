import Federation.Proofs.Address.Grammar
import Federation.Proofs.Discovery.Startup
import Federation.Proofs.Simulation.Agreement

/-!
Joining clusters.

* `Router.Synced`: data is placed on the registered clusters. A cluster that is registered then is
  not registered again (`Router.Synced.setUp_of_contains`).
* `Session.answer_join`: which joins are refused. `Session.FirstJoin`, `Session.Rejoin`: what the
  first join of a cluster changes, and what any other one does.
* `Session.Scheduled`: the joined clusters are registered and, until discovery ends, each of them
  was scheduled once. `Session.Onward`: a change that keeps this, the configuration and whether
  discovery is over. `Course.onward_act`: all that may happen save the end of discovery is such a
  change.
* `Course.join_refused_or_kept`: all of this in whichever state a cluster is joined.
-/

namespace Federation

/-! ### Routers -/

namespace Router

variable {r : Router} {name : String}

/-- Data is placed on the registered clusters. -/
def Synced (r : Router) : Prop := r.placement.setUp r.clusters = r.placement

lemma synced_setUp (r : Router) (clusters : ClusterSet) : (r.setUp clusters).Synced :=
  ClusterPlacement.setUp_setUp r.placement _ _

lemma Synced.call (h : r.Synced) (x : RouterCall) : (r.call x).2.Synced := by
  cases x with
  | setUp clusters => exact r.synced_setUp clusters
  | setLocalNode n => exact h
  | addRoute c n =>
      refine settle_induction (P := Synced) h fun r' hr' => ?_
      obtain ⟨-, p, -, rfl⟩ := addRoute_eq_ok_iff.mp hr'
      exact h
  | removeRoute c n =>
      refine settle_induction (P := Synced) h fun r' hr' => ?_
      obtain ⟨-, p, -, rfl⟩ := removeRoute_eq_ok_iff.mp hr'
      exact h
  | clear => exact h

/-- A cluster that is registered is not registered again. -/
lemma Synced.setUp_of_contains (h : r.Synced) (hname : r.clusters.contains name = true) :
    r.setUp (.ofList [.ofRemote name]) = r := by
  rw [setUp, Keyed.union_singleton_of_contains hname, h]

end Router

namespace World

variable {w w' u : World}

/-- A change that neither joins nor forgets clusters. -/
structure SameJoined (w w' : World) : Prop where
  config : w'.config = w.config
  closed : w'.closed = w.closed
  joined : ∀ c, w'.enrolments.contains c = w.enrolments.contains c
  registered : ∀ c, w.registered.contains c = true → w'.registered.contains c = true
  synced : w.router.router.Synced → w'.router.router.Synced

lemma SameJoined.refl (w : World) : SameJoined w w := ⟨rfl, rfl, fun _ => rfl, fun _ => id, id⟩

lemma SameJoined.trans (h : SameJoined w w') (h' : SameJoined w' u) : SameJoined w u :=
  ⟨h'.config.trans h.config, h'.closed.trans h.closed, fun c => (h'.joined c).trans (h.joined c),
    fun c hc => h'.registered c (h.registered c hc), fun hs => h'.synced (h.synced hs)⟩

lemma SameRoots.sameJoined (h : SameRoots w w')
    (hs : w.router.router.Synced → w'.router.router.Synced) : SameJoined w w' := by
  refine ⟨h.config, h.closed, fun c => ?_, fun c hc => h.registered.symm ▸ hc, hs⟩
  rw [contains_eq_isSome_bootstrapOf?, contains_eq_isSome_bootstrapOf?, h.bootstraps]

lemma sameJoined_answer (w : World) (q : Query) : SameJoined w (w.answer q).2 := by
  refine (w.sameRoots_answer q).sameJoined fun hs => ?_
  cases q with
  | route h =>
      obtain ⟨r, hr, hw⟩ := exists_route w h
      rw [answer, hw]
      exact hr ▸ hs.call _
  | unroute h =>
      obtain ⟨r, hr, hw⟩ := exists_unroute w h
      rw [answer, hw]
      exact hr ▸ hs.call _
  | build c n =>
      rw [answer, build]
      split <;> exact hs
  | _ => exact hs

lemma sameJoined_setUp (w : World) (clusters : ClusterSet) :
    SameJoined w { w with router := w.router.setUp clusters } := by
  refine ⟨rfl, rfl, fun _ => rfl, fun c hc => ?_, fun _ => w.router.router.synced_setUp clusters⟩
  change (w.registered.union clusters).contains c = true
  rw [Keyed.contains_eq_isSome, Keyed.find?_union, Option.isSome_or, ← Keyed.contains_eq_isSome, hc,
    Bool.true_or]

lemma sameJoined_router (w : World) (call : RouterCall) :
    SameJoined w { w with router := (w.router.call call).2 } := by
  cases call with
  | setUp clusters => exact w.sameJoined_setUp clusters
  | _ =>
      refine (w.sameRoots_router (by simp)).sameJoined fun hs => ?_
      exact RecordedRouter.router_call w.router _ ▸ hs.call _

end World

/-! ### Joins -/

/-- A cluster is joined through the address that its seed denotes, unless discovery is over or the
cluster is the one of this process. -/
lemma World.seedAddress_eq_ok_iff {w : World} {cluster : Cluster} {seed : String} {a : Address} :
    w.seedAddress cluster seed = .ok a ↔ w.closed = false ∧
      ¬(cluster.isLocal = true ∨ cluster.name = w.config.localCluster) ∧
      Address.Denotes seed a := by
  rw [seedAddress, ← Address.parse?_eq_some_iff, Address.ofSeed]
  simp only [Bool.or_eq_true, beq_iff_eq]
  cases w.closed with
  | true => simp
  | false =>
      by_cases hlocal : cluster.isLocal = true ∨ cluster.name = w.config.localCluster
      · simp [hlocal]
      · cases Address.parse? seed <;> simp [hlocal]

namespace Session

variable {s s' u : Session} {name : String} {n : Node}

/-- The session after a join that is not refused. -/
def enlist (s : Session) (name : String) (n : Node) : Session :=
  let registered := { s.world with router := s.world.router.setUp (.ofList [.ofRemote name]) }
  let joined := { s with world := registered.enrol name n }
  if s.world.enrolments.contains name then joined else joined.schedule name

lemma enlist_keeps (s : Session) (name : String) (n : Node) :
    (s.enlist name n).world.config = s.world.config ∧
      (s.enlist name n).world.closed = s.world.closed ∧
      (s.enlist name n).world.router = s.world.router.setUp (.ofList [.ofRemote name]) ∧
      (s.enlist name n).world.network = s.world.network := by
  rw [enlist]
  split
  all_goals
    simp only [schedule, World.enrol]
    split <;> exact ⟨rfl, rfl, rfl, rfl⟩

lemma bootstrapOf?_enlist (s : Session) (name d : String) (n : Node) :
    (s.enlist name n).world.bootstrapOf? d =
      if d = name then some n else s.world.bootstrapOf? d := by
  rw [enlist]
  split <;> exact World.bootstrapOf?_enrol _ name d n

lemma contains_enlist (s : Session) (name d : String) (n : Node) :
    (s.enlist name n).world.enrolments.contains d =
      (d == name || s.world.enrolments.contains d) := by
  rw [World.contains_eq_isSome_bootstrapOf?, bootstrapOf?_enlist,
    World.contains_eq_isSome_bootstrapOf?]
  by_cases hd : d = name <;> simp [hd]

lemma join_eq (s : Session) (cluster : Cluster) (seed : String) : s.join cluster seed =
    (s.world.seedAddress cluster seed).map fun a => s.enlist cluster.name ⟨seed, a⟩ := by
  rw [join, World.join]
  cases s.world.seedAddress cluster seed <;> rfl

/-- Of the reasons to refuse a join, the end of discovery comes first, then that the cluster is the
one of this process, and then the seed. -/
lemma answer_join (s : Session) (cluster : Cluster) (seed : String) :
    (settle s (s.join cluster seed)).1 =
      if s.world.closed then .error .shutDown
      else if cluster.isLocal = true ∨ cluster.name = s.world.config.localCluster then
        .error (.localJoin cluster.name)
      else if Address.IsText seed then .ok () else .error (.invalidSeed seed) := by
  rw [join_eq, World.seedAddress]
  simp only [Bool.or_eq_true, beq_iff_eq, ← Address.isSome_parse?_iff]
  split
  next => rfl
  next =>
    split
    next => rfl
    next =>
      rw [Address.ofSeed]
      cases Address.parse? seed <;> rfl

/-- A join that is not refused goes through the address of its seed. -/
lemma exists_enlist {cluster : Cluster} {seed : String}
    (h : (settle s (s.join cluster seed)).1 = .ok ()) : ∃ address, Address.Denotes seed address ∧
      s.join cluster seed = .ok (s.enlist cluster.name ⟨seed, address⟩) := by
  rw [join_eq] at h ⊢
  cases hseed : s.world.seedAddress cluster seed with
  | error e =>
      rw [hseed] at h
      cases h
  | ok address =>
      exact ⟨address, (World.seedAddress_eq_ok_iff.mp hseed).2.2, rfl⟩

/-- The first join of a cluster. -/
structure FirstJoin (s s' : Session) (name : String) (n : Node) : Prop where
  /-- The cluster is registered as a remote one, unless the name was registered before. -/
  registered : ∀ d, s'.world.registered.find? d =
    (s.world.registered.find? d).or (if name = d then some (.ofRemote d) else none)
  bootstrap : s'.world.bootstrapOf? name = some n
  idle : s'.world.trackedOf name = [] ∧ s'.world.viewOf name = none
  others : ∀ d, d ≠ name → s'.world.enrolments.find? d = s.world.enrolments.find? d
  asked : s'.asked = s.asked ++ [name]
  scheduled : s'.timetable? =
    s.timetable?.map fun t => t.schedule s.world.config s.clock name ()
  /-- Neither routes change nor do nodes of other clusters or of this process. -/
  routes : s'.world.router.router.nodes = s.world.router.router.nodes ∧
    s'.world.router.router.localNode = s.world.router.router.localNode ∧
    s'.world.router.events = s.world.router.events
  rest : s'.world.config = s.world.config ∧ s'.world.closed = s.world.closed ∧
    s'.world.network = s.world.network ∧ s'.clock = s.clock

/-- A join of a cluster that is joined already. -/
structure Rejoin (s s' : Session) (name : String) (n : Node) : Prop where
  bootstraps : ∀ d, s'.world.bootstrapOf? d = if d = name then some n else s.world.bootstrapOf? d
  kept : ∀ d, s'.world.trackedOf d = s.world.trackedOf d ∧ s'.world.viewOf d = s.world.viewOf d
  rest : s' = { s with world := { s.world with enrolments := s'.world.enrolments } }

/-- A cluster that is not joined yet is joined without nodes and view, and scheduled. -/
lemma firstJoin_enlist (h : s.world.enrolments.contains name = false) (n : Node) :
    FirstJoin s (s.enlist name n) name n := by
  obtain ⟨hconfig, hclosed, hrouter, hnetwork⟩ := s.enlist_keeps name n
  set registered : World :=
    { s.world with router := s.world.router.setUp (.ofList [.ofRemote name]) }
  have heq : s.enlist name n =
      ({ s with world := registered.enrol name n } : Session).schedule name := by
    rw [enlist, h, if_neg Bool.false_ne_true]
  have hnone : registered.enrolments.find? name = none := by
    rwa [Keyed.contains_eq_isSome, Option.isSome_eq_false_iff, Option.isNone_iff_eq_none] at h
  obtain ⟨hsame, -, hothers⟩ := World.enrol_keeps registered name n
  have hfind : (s.enlist name n).world.enrolments.find? name = some (.fresh name n) :=
    heq ▸ World.find?_enrol_of_new n hnone
  refine ⟨fun d => ?_, (s.bootstrapOf?_enlist name name n).trans (if_pos rfl),
    ⟨World.trackedOf_of_find? hfind, World.viewOf_of_find? hfind⟩, heq ▸ hothers, heq ▸ rfl, ?_, ?_,
    hconfig, hclosed, hnetwork, heq ▸ rfl⟩
  · rw [World.registered, hrouter]
    refine Keyed.find?_union_singleton.trans ?_
    by_cases hd : name = d <;> simp [Cluster.ofRemote, hd, World.registered]
  · rw [heq]
    exact congrArg (fun c => s.timetable?.map fun t => t.schedule c s.clock name ()) hsame
  · rw [hrouter]
    exact ⟨rfl, rfl, rfl⟩

/-- A joined cluster only gets another bootstrap node. -/
lemma rejoin_enlist (h : s.world.enrolments.contains name = true)
    (hreg : s.world.registered.contains name = true) (hs : s.world.router.router.Synced)
    (n : Node) : Rejoin s (s.enlist name n) name n := by
  have hrouter : s.world.router.setUp (.ofList [.ofRemote name]) = s.world.router :=
    congrArg (fun r => (⟨r, s.world.router.events⟩ : RecordedRouter)) (hs.setUp_of_contains hreg)
  have heq : s.enlist name n = { s with world := s.world.enrol name n } := by
    rw [enlist, h, if_pos rfl, hrouter]
  obtain ⟨e, he⟩ : ∃ e, s.world.enrolments.find? name = some e := by
    rwa [← Option.isSome_iff_exists, ← Keyed.contains_eq_isSome]
  have hfind := World.find?_enrol_of_joined n he
  rw [heq]
  refine ⟨fun d => World.bootstrapOf?_enrol s.world name d n, fun d => ?_, ?_⟩
  · by_cases hd : d = name
    · subst hd
      exact ⟨(World.trackedOf_of_find? hfind).trans (World.trackedOf_of_find? he).symm,
        (World.viewOf_of_find? hfind).trans (World.viewOf_of_find? he).symm⟩
    · have hother := (World.enrol_keeps s.world name n).2.2 d hd
      exact ⟨World.trackedOf_eq_of_find?_eq hother, World.viewOf_eq_of_find?_eq hother⟩
  · rw [World.enrol, if_pos h]

/-! ### What joins rely on -/

/-- The joined clusters are registered and, until discovery ends, each of them was scheduled
once. -/
structure Scheduled (s : Session) : Prop where
  registered : ∀ c, s.world.enrolments.contains c = true →
    s.world.registered.contains c = true ∧ s.world.router.router.Synced
  asked : s.world.closed = false → ∀ c,
    s.asked.count c = if s.world.enrolments.contains c then 1 else 0
  scheduled : s.world.closed = false → ∀ t ∈ s.timetable?, t.closed = false ∧
    ∀ c, t.series.contains c = s.world.enrolments.contains c

/-- A change that keeps this, the configuration and whether discovery is over. -/
structure Onward (s s' : Session) : Prop where
  config : s'.world.config = s.world.config
  closed : s'.world.closed = s.world.closed
  scheduled : s.Scheduled → s'.Scheduled

lemma Onward.refl (s : Session) : Onward s s := ⟨rfl, rfl, id⟩

lemma Onward.trans (h : Onward s s') (h' : Onward s' u) : Onward s u :=
  ⟨h'.config.trans h.config, h'.closed.trans h.closed, fun hs => h'.scheduled (h.scheduled hs)⟩

/-- What neither joins nor forgets clusters keeps them scheduled. -/
lemma onward_of_sameJoined (h : s.world.SameJoined s'.world) (hasked : s'.asked = s.asked)
    (ht : ∀ t' ∈ s'.timetable?, ∃ t ∈ s.timetable?, t'.closed = t.closed ∧
      ∀ c, t'.series.contains c = t.series.contains c) : Onward s s' := by
  refine ⟨h.config, h.closed, fun hs => ⟨fun c hc => ?_, fun hopen c => ?_, fun hopen t' ht' => ?_⟩⟩
  · rw [h.joined] at hc
    obtain ⟨hreg, hsynced⟩ := hs.registered c hc
    exact ⟨h.registered c hreg, h.synced hsynced⟩
  · rw [hasked, h.joined]
    exact hs.asked (h.closed.symm.trans hopen) c
  · obtain ⟨t, hmem, hclosed, hseries⟩ := ht t' ht'
    obtain ⟨htopen, hscheduled⟩ := hs.scheduled (h.closed.symm.trans hopen) t hmem
    exact ⟨hclosed.trans htopen, fun c => by rw [hseries, hscheduled, h.joined]⟩

lemma onward_of_world {w : World} (h : s.world.SameJoined w) : Onward s { s with world := w } :=
  onward_of_sameJoined h rfl fun t ht => ⟨t, ht, rfl, fun _ => rfl⟩

lemma onward_sleep (s : Session) (ms : ℕ) : Onward s (s.sleep ms) := by
  refine onward_of_sameJoined ?_ (s.sameRoots_sleep ms).asked (s.sameRoots_sleep ms).scheduled
  exact sleep_induction (I := s.world.SameJoined)
    (fun w q hw => hw.trans (w.sameJoined_answer q)) ms (.refl s.world)

lemma onward_update (s : Session) (c : String) : Onward s (s.update c).2 :=
  perform_induction (P := Onward s)
    (fun t q ht => ht.trans (onward_of_world (t.world.sameJoined_answer q)))
    (fun t ms ht => ht.trans (t.onward_sleep ms)) _ (.refl s)

/-- The first join of a cluster schedules it, and another one keeps it scheduled. -/
lemma onward_enlist (s : Session) (name : String) (n : Node) (hopen : s.world.closed = false) :
    Onward s (s.enlist name n) := by
  obtain ⟨hconfig, hclosed, hrouter, -⟩ := s.enlist_keeps name n
  refine ⟨hconfig, hclosed, fun hs => ?_⟩
  cases h : s.world.enrolments.contains name with
  | true =>
      obtain ⟨hreg, hsynced⟩ := hs.registered name h
      have hsame : s.world.SameJoined
          { s.world with enrolments := (s.enlist name n).world.enrolments } := by
        refine ⟨rfl, rfl, fun c => (s.contains_enlist name c n).trans ?_, fun _ => id, id⟩
        by_cases hc : c = name <;> simp [hc, h]
      rw [(rejoin_enlist h hreg hsynced n).rest]
      exact (onward_of_world hsame).scheduled hs
  | false =>
      have hfirst := firstJoin_enlist h n
      refine ⟨fun c hc => ⟨?_, ?_⟩, fun _ c => ?_, fun _ t' ht' => ?_⟩
      · rw [Keyed.contains_eq_isSome, hfirst.registered, Option.isSome_or,
          ← Keyed.contains_eq_isSome]
        rw [contains_enlist, Bool.or_eq_true, beq_iff_eq] at hc
        rcases hc with rfl | hc
        · simp
        · rw [(hs.registered c hc).1, Bool.true_or]
      · rw [hrouter]
        exact s.world.router.router.synced_setUp _
      · rw [hfirst.asked, List.count_append, hs.asked hopen, contains_enlist]
        by_cases hc : c = name
        · simp [hc, h]
        · simp [hc, Ne.symm hc]
      · rw [hfirst.scheduled] at ht'
        obtain ⟨t, ht, rfl⟩ := Option.map_eq_some_iff.mp ht'
        obtain ⟨htopen, hscheduled⟩ := hs.scheduled hopen t ht
        refine ⟨?_, fun c => ?_⟩
        · rw [Timetable.schedule, if_neg (by simp [htopen])]
          exact htopen
        · rw [Keyed.contains_eq_isSome, Timetable.find?_schedule htopen, contains_enlist,
            ← hscheduled, Keyed.contains_eq_isSome]
          by_cases hc : name = c
          · simp [hc]
          · simp [hc, Ne.symm hc]

lemma onward_join {cluster : Cluster} {seed : String} (h : s.join cluster seed = .ok s') :
    Onward s s' := by
  rw [join_eq] at h
  obtain ⟨a, ha, rfl⟩ := map_eq_ok_iff.mp h
  exact s.onward_enlist _ _ (World.seedAddress_eq_ok_iff.mp ha).1

lemma onward_joinAll (s : Session) (seeds : List (String × String)) :
    Onward s (s.joinAll seeds).2 :=
  joinAll_induction (P := Onward s) seeds (.refl s) fun _ _ _ _ ht hj => ht.trans (onward_join hj)

lemma onward_start (s : Session) : Onward s s.start.2 :=
  (onward_of_world (s.world.sameJoined_setUp s.world.config.clusterSet)).trans
    (onward_joinAll { s with world := s.world.setUp } _)

end Session

/-! ### Courses -/

namespace Course

/-- The course after an act. Rounds take their steps one by one or run from beginning to end, where
they are called for and by the timetable, if there is one. -/
def act (k : Course) : Act → Course
  | .happen (.move m) => k.step m
  | .happen (.sleep ms) => { k with session := k.session.sleep ms }
  | .update c => { k with session := (k.session.update c).2 }
  | .shutDown => { k with session := k.session.shutDown }

/-- The course after several acts, the first one first. -/
def acts (k : Course) (l : List Act) : Course := l.foldl act k

@[simp] lemma acts_concat (k : Course) (l : List Act) (a : Act) :
    k.acts (l ++ [a]) = (k.acts l).act a := by
  simp [acts]

lemma onward_step (k : Course) (m : Move) : k.session.Onward (k.step m).session := by
  cases m with
  | start => exact k.session.onward_start
  | join cluster seed =>
      exact settle_induction (P := k.session.Onward) (.refl _) fun _ h => Session.onward_join h
  | publish _ | takeDown _ | bringUp _ | behave _ _ =>
      exact Session.onward_of_world ⟨rfl, rfl, fun _ => rfl, fun _ => id, id⟩
  | router call =>
      have hrouter := Session.onward_of_world (k.world.sameJoined_router call)
      cases call <;> exact hrouter
  | begin c =>
      rw [step]
      split <;> exact .refl _
  | advance c =>
      rw [step]
      split
      next => exact .refl _
      next p hp =>
        refine Session.onward_of_world (w := (Program.step World.answer (p.rest, k.world)).2) ?_
        rw [Program.step_snd]
        cases p.rest.question? with
        | none => exact .refl _
        | some q => exact k.world.sameJoined_answer q

/-- Only the end of discovery makes any other change. -/
lemma onward_act (k : Course) {a : Act} (ha : a ≠ .shutDown) :
    k.session.Onward (k.act a).session := by
  cases a with
  | happen x =>
      cases x with
      | move m => exact k.onward_step m
      | sleep ms => exact k.session.onward_sleep ms
  | update c => exact k.session.onward_update c
  | shutDown => exact absurd rfl ha

/-- After any acts the joined clusters are registered and scheduled, and discovery is over exactly
after its end. -/
lemma scheduled_acts {s : Session} (hs : s.Scheduled) (hopen : s.world.closed = false)
    (l : List Act) :
    let k := (⟨s, fun _ => none⟩ : Course).acts l
    k.world.config = s.world.config ∧ (k.world.closed = true ↔ .shutDown ∈ l) ∧
      k.session.Scheduled := by
  induction l using List.reverseRecOn with
  | nil => exact ⟨rfl, iff_of_false (by simp [acts, world, hopen]) nofun, hs⟩
  | append_singleton l a ih =>
      obtain ⟨hconfig, hclosed, hscheduled⟩ := ih
      rw [acts_concat, List.mem_append, List.mem_singleton]
      by_cases ha : a = .shutDown
      · subst ha
        exact ⟨hconfig, iff_of_true rfl (.inr rfl), nofun, nofun, nofun⟩
      · have h := onward_act (acts ⟨s, fun _ => none⟩ l) ha
        refine ⟨h.config.trans hconfig, ?_, h.scheduled hscheduled⟩
        rw [or_iff_left (Ne.symm ha), ← hclosed]
        exact Eq.congr_left h.closed

/-- Discovery begins without any joined clusters. -/
lemma scheduled_new {new : Config → RecordedRouter → Except Fault Session}
    (hnew : new ∈ [Session.manual, Session.timed]) {config : Config} {router : RecordedRouter}
    {s : Session} (h : new config router = .ok s) :
    s.Scheduled ∧ s.world.config = config ∧ s.world.closed = false := by
  obtain ⟨timetable?, rfl, ht⟩ : ∃ timetable?, s = ⟨.idle config router, 0, [], timetable?⟩ ∧
      ∀ t ∈ timetable?, t.closed = false ∧ t.series = ∅ := by
    rcases List.mem_cons.mp hnew with rfl | hnew
    · obtain ⟨-, -, h⟩ := bind_eq_ok_iff.mp h
      exact ⟨none, (Except.ok.inj h).symm, nofun⟩
    · obtain rfl := List.mem_singleton.mp hnew
      obtain ⟨-, -, h⟩ := bind_eq_ok_iff.mp h
      obtain ⟨policy, -, h⟩ := bind_eq_ok_iff.mp h
      refine ⟨some (.empty policy), (Except.ok.inj h).symm, fun t ht => ?_⟩
      obtain rfl := Option.some.inj ht
      exact ⟨rfl, rfl⟩
  refine ⟨⟨nofun, fun _ _ => rfl, fun _ t hmem => ⟨(ht t hmem).1, fun c => ?_⟩⟩, rfl, rfl⟩
  rw [(ht t hmem).2]
  rfl

/-- Whatever has happened to discovery before, a join is refused if discovery has ended, else if the
cluster is the one of this process, else if the seed is no address. A refused join changes nothing.
Another one registers and schedules a cluster that was not joined, without nodes and view, and of a
joined one it only replaces the bootstrap node. So until discovery ends every joined cluster was
scheduled exactly once. -/
theorem join_refused_or_kept {new : Config → RecordedRouter → Except Fault Session}
    (hnew : new ∈ [Session.manual, Session.timed]) {config : Config} {router : RecordedRouter}
    {s : Session} (hs : new config router = .ok s) (l : List Act) :
    let k := (⟨s, fun _ => none⟩ : Course).acts l
    (k.world.closed = true ↔ .shutDown ∈ l) ∧
    (∀ cluster seed,
      let answer := (settle k.session (k.session.join cluster seed)).1
      let k' := k.step (.join cluster seed)
      answer = (if k.world.closed then .error .shutDown
        else if cluster.isLocal = true ∨ cluster.name = config.localCluster then
          .error (.localJoin cluster.name)
        else if Address.IsText seed then .ok () else .error (.invalidSeed seed)) ∧
      (answer ≠ .ok () → k' = k) ∧
      (answer = .ok () → ∃ address, Address.Denotes seed address ∧
        (cluster.name ∉ k.world.joined →
          k.session.FirstJoin k'.session cluster.name ⟨seed, address⟩) ∧
        (cluster.name ∈ k.world.joined →
          k.session.Rejoin k'.session cluster.name ⟨seed, address⟩))) ∧
    (.shutDown ∉ l → ∀ c, k.session.asked.count c = (if c ∈ k.world.joined then 1 else 0) ∧
      ∀ t ∈ k.session.timetable?, (c ∈ t.clusters ↔ c ∈ k.world.joined)) := by
  intro k
  obtain ⟨hfirst, hconfig, hopen⟩ := scheduled_new hnew hs
  obtain ⟨hsame, hclosed, hscheduled⟩ := scheduled_acts hfirst hopen l
  refine ⟨hclosed, fun cluster seed => ⟨?_, fun hrefused => ?_, fun hok => ?_⟩, fun hl c => ?_⟩
  · rw [Session.answer_join, ← hsame.trans hconfig]
    rfl
  · cases hanswer : (settle k.session (k.session.join cluster seed)).1 with
    | ok => exact absurd hanswer hrefused
    | error e => exact congrArg (fun t => { k with session := t }) (settle_snd_of_error hanswer)
  · obtain ⟨address, hseed, hjoin⟩ := Session.exists_enlist hok
    have hstep : (k.step (.join cluster seed)).session =
        k.session.enlist cluster.name ⟨seed, address⟩ := by
      rw [step, hjoin, settle_ok]
    refine ⟨address, hseed, fun hnew => ?_, fun hmem => ?_⟩
    · rw [hstep]
      refine Session.firstJoin_enlist ?_ _
      rwa [← Bool.not_eq_true, ← Keyed.mem_keys_iff]
    · have hjoined := Keyed.mem_keys_iff.mp hmem
      obtain ⟨hreg, hsynced⟩ := hscheduled.registered cluster.name hjoined
      rw [hstep]
      exact Session.rejoin_enlist hjoined hreg hsynced _
  · have hgoing : k.world.closed = false := by
      rwa [← Bool.not_eq_true, hclosed]
    have hjoined : c ∈ k.world.joined ↔ k.world.enrolments.contains c = true := Keyed.mem_keys_iff
    refine ⟨(hscheduled.asked hgoing c).trans (if_congr hjoined.symm rfl rfl), fun t ht => ?_⟩
    rw [Timetable.clusters, Keyed.mem_keys_iff, (hscheduled.scheduled hgoing t ht).2, hjoined]
    rfl

/-! ### Joins in the middle of a round -/

/-- Somebody registers a cluster as that of this process, and a round of another one begins. -/
def earlierActs : List Act :=
  [.happen (.move (.router (.setUp (.ofList [.ofLocal "oceania"])))), .happen (.move .start),
    .happen (.move (.begin "asia")), .happen (.move (.advance "asia"))]

/-- The registered cluster is joined for the first time, and the one of the round is joined again. A
local cluster is refused before its seed is looked at. -/
theorem join_refused_or_kept_trio :
    ∃ s, Session.manual Session.trioConfig Session.trioRouter = .ok s ∧
      let k := (⟨s, fun _ => none⟩ : Course).acts earlierActs
      k.session.FirstJoin (k.step (.join (.ofRemote "oceania") "host:4")).session "oceania"
        ⟨"host:4", ⟨"host", 4⟩⟩ ∧
      k.session.Rejoin (k.step (.join (.ofRemote "asia") "host:04")).session "asia"
        ⟨"host:04", ⟨"host", 4⟩⟩ ∧
      k.step (.join (.ofLocal "africa") "host") = k ∧
      ∀ c, k.session.asked.count c = if c ∈ k.world.joined then 1 else 0 := by
  have hs : Session.manual Session.trioConfig Session.trioRouter =
      .ok ⟨.idle Session.trioConfig Session.trioRouter, 0, [], none⟩ := by
    have hcheck : Session.trioConfig.check = .ok () := by decide +kernel
    rw [Session.manual, hcheck]
    rfl
  have hgoing : Act.shutDown ∉ earlierActs := by simp [earlierActs]
  obtain ⟨hclosed, hjoin, hscheduled⟩ := join_refused_or_kept List.mem_cons_self hs earlierActs
  refine ⟨_, hs, ?_⟩
  set k := (⟨⟨.idle Session.trioConfig Session.trioRouter, 0, [], none⟩, fun _ => none⟩ :
    Course).acts earlierActs
  have hopen : ¬k.world.closed = true := fun h => hgoing (hclosed.mp h)
  obtain ⟨hanswer, -, hnew⟩ := hjoin (.ofRemote "oceania") "host:4"
  obtain ⟨hanswer', -, hagain⟩ := hjoin (.ofRemote "asia") "host:04"
  obtain ⟨hrefused, hkept, -⟩ := hjoin (.ofLocal "africa") "host"
  rw [if_neg hopen, if_neg (by decide), if_pos (by decide +kernel)] at hanswer hanswer'
  rw [if_neg hopen, if_pos (by decide)] at hrefused
  refine ⟨?_, ?_, hkept (by rw [hrefused]; simp), fun c => (hscheduled hgoing c).1⟩
  · obtain ⟨address, hseed, hfirst, -⟩ := hnew hanswer
    have hparsed : Address.parse? "host:4" = some ⟨"host", 4⟩ := by decide +kernel
    obtain rfl := Option.some.inj (hparsed.symm.trans (Address.parse?_eq_some_iff.mpr hseed))
    exact hfirst (by decide +kernel)
  · obtain ⟨address, hseed, -, hrejoin⟩ := hagain hanswer'
    have hparsed : Address.parse? "host:04" = some ⟨"host", 4⟩ := by decide +kernel
    obtain rfl := Option.some.inj (hparsed.symm.trans (Address.parse?_eq_some_iff.mpr hseed))
    exact hrejoin (by decide +kernel)

end Course

end Federation
