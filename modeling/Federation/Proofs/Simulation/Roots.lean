import Federation.Proofs.Schedule.Timetable
import Federation.Proofs.Simulation.Moves
import Federation.Proofs.Simulation.Timed

/-!
Where the joined clusters come from.

* `World.bootstrapOf?`: the node through which a cluster is first reached.
* `World.SameRoots`, `Session.SameRoots`: a change that leaves the registered and joined clusters,
  their bootstrap nodes and the scheduled clusters alone.
* `World.sameRoots_answer`, `Session.sameRoots_sleep`, `Session.sameRoots_update`: no round makes any
  other change, whoever runs it.
* `Act.Rootless`, `Session.sameRoots_act`: neither does anything else, save registering or joining
  clusters and the end of discovery.
-/

namespace Federation

namespace World

variable {w w' u : World} {c : String}

/-- The node through which a cluster is first reached. -/
def bootstrapOf? (w : World) (cluster : String) : Option Node :=
  (w.enrolments.find? cluster).map fun e => e.bootstrap.node

lemma contains_eq_isSome_bootstrapOf? :
    w.enrolments.contains c = (w.bootstrapOf? c).isSome := by
  rw [Keyed.contains_eq_isSome, bootstrapOf?, Option.isSome_map]

/-- A change that does not concern where the clusters come from. -/
structure SameRoots (w w' : World) : Prop where
  config : w'.config = w.config
  closed : w'.closed = w.closed
  registered : w'.registered = w.registered
  bootstraps : ∀ c, w'.bootstrapOf? c = w.bootstrapOf? c

lemma SameRoots.refl (w : World) : SameRoots w w := ⟨rfl, rfl, rfl, fun _ => rfl⟩

lemma SameRoots.trans (h : SameRoots w w') (h' : SameRoots w' u) : SameRoots w u :=
  ⟨h'.config.trans h.config, h'.closed.trans h.closed, h'.registered.trans h.registered,
    fun c => (h'.bootstraps c).trans (h.bootstraps c)⟩

/-- A change of a joined cluster that keeps its bootstrap node. -/
lemma bootstrapOf?_of_find? {f : Enrolment → Enrolment} {d : String}
    (h : w'.enrolments.find? d = if d = c then (w.enrolments.find? d).map f
      else w.enrolments.find? d) (hf : ∀ e, (f e).bootstrap = e.bootstrap) :
    w'.bootstrapOf? d = w.bootstrapOf? d := by
  rw [bootstrapOf?, bootstrapOf?, h]
  split
  next =>
    rw [Option.map_map]
    exact congrArg (Option.map · _) (funext fun e => congrArg Handle.node (hf e))
  next => rfl

/-- No step of a round concerns the roots of the clusters. -/
lemma sameRoots_answer (w : World) (q : Query) : SameRoots w (w.answer q).2 := by
  have hconfig := (answer_keeps w q).1
  cases q with
  | isClosed => exact SameRoots.refl w
  | enrolment _ => exact SameRoots.refl w
  | routes _ => exact SameRoots.refl w
  | delay _ => exact SameRoots.refl w
  | connect _ => exact ⟨rfl, rfl, rfl, fun _ => rfl⟩
  | disconnect _ => exact ⟨rfl, rfl, rfl, fun _ => rfl⟩
  | membership _ => exact ⟨rfl, rfl, rfl, fun _ => rfl⟩
  | build c n =>
      refine ⟨hconfig, ?_, ?_, fun d => bootstrapOf?_of_find? (find?_build n) fun _ => rfl⟩
      all_goals rw [answer, build]; split <;> rfl
  | track h =>
      exact ⟨rfl, rfl, rfl, fun d => bootstrapOf?_of_find? find?_track fun _ => rfl⟩
  | untrack h =>
      exact ⟨rfl, rfl, rfl, fun d => bootstrapOf?_of_find? find?_untrack fun _ => rfl⟩
  | store c v =>
      exact ⟨rfl, rfl, rfl, fun d => bootstrapOf?_of_find? (find?_store v) fun _ => rfl⟩
  | route h =>
      obtain ⟨hclosed, henrol, hreg⟩ := route_keeps (w := w) (h := h)
      refine ⟨hconfig, hclosed, hreg, fun d => ?_⟩
      exact congrArg (fun s => (Keyed.find? s d).map fun e => e.bootstrap.node) henrol
  | unroute h =>
      obtain ⟨hclosed, henrol, hreg⟩ := unroute_keeps (w := w) (h := h)
      refine ⟨hconfig, hclosed, hreg, fun d => ?_⟩
      exact congrArg (fun s => (Keyed.find? s d).map fun e => e.bootstrap.node) henrol

/-- A change of the router that registers no clusters. -/
lemma sameRoots_router (w : World) {call : RouterCall} (h : ∀ clusters, call ≠ .setUp clusters) :
    SameRoots w { w with router := (w.router.call call).2 } := by
  have hrouter := RecordedRouter.router_call w.router call
  refine ⟨rfl, rfl, ?_, fun _ => rfl⟩
  change (w.router.call call).2.router.clusters = w.router.router.clusters
  rw [hrouter]
  cases call with
  | setUp clusters => exact absurd rfl (h clusters)
  | setLocalNode n => rfl
  | addRoute d n => exact (Router.call_addRoute_keeps w.router.router d n d.name).1
  | removeRoute d n => exact (Router.call_removeRoute_keeps w.router.router d n d.name).1
  | clear => rfl

end World

/-! ### Sessions -/

namespace Session

variable {s s' u : Session}

/-- A change that does not concern where the clusters come from and which are scheduled. -/
structure SameRoots (s s' : Session) : Prop where
  world : s.world.SameRoots s'.world
  asked : s'.asked = s.asked
  scheduled : ∀ t' ∈ s'.timetable?, ∃ t ∈ s.timetable?, t'.closed = t.closed ∧
    ∀ c, t'.series.contains c = t.series.contains c

lemma SameRoots.refl (s : Session) : SameRoots s s :=
  ⟨World.SameRoots.refl s.world, rfl, fun t ht => ⟨t, ht, rfl, fun _ => rfl⟩⟩

lemma SameRoots.trans (h : SameRoots s s') (h' : SameRoots s' u) : SameRoots s u := by
  refine ⟨h.world.trans h'.world, h'.asked.trans h.asked, fun t ht => ?_⟩
  obtain ⟨t', ht', hclosed', hseries'⟩ := h'.scheduled t ht
  obtain ⟨t'', ht'', hclosed, hseries⟩ := h.scheduled t' ht'
  exact ⟨t'', ht'', hclosed'.trans hclosed, fun c => (hseries' c).trans (hseries c)⟩

lemma SameRoots.of_world {w : World} (h : s.world.SameRoots w) :
    SameRoots s { s with world := w } :=
  ⟨h, rfl, fun t ht => ⟨t, ht, rfl, fun _ => rfl⟩⟩

/-- What every answer keeps true of the world, scheduled rounds keep true, and the same clusters
stay scheduled. -/
lemma keeps_of_answer {I : World → Prop} (hanswer : ∀ w q, I w → I (w.answer q).2)
    (t : Timetable Query Query.Answer Unit) :
    Timetable.Keeps World.workload fun t' w => I w ∧ t'.closed = t.closed ∧
      ∀ c, t'.series.contains c = t.series.contains c := by
  refine ⟨fun {now t' w r} ⟨hw, hclosed, hseries⟩ hr => ⟨?_, hclosed, fun c => ?_⟩, fun _ h => h⟩
  · exact Series.advance_induction (I := I) t'.policy (fun q u hu => hanswer u q hu)
      (fun _ _ _ _ hu => hu) _ hw
  · rw [← hseries, Keyed.contains_eq_isSome, Keyed.contains_eq_isSome,
      Timetable.find?_advanceOne]
    split
    next hc => rw [← hc, hr]; rfl
    next => rfl

/-- What every answer keeps true of the world is true after time has passed. -/
lemma sleep_induction {I : World → Prop} (hanswer : ∀ w q, I w → I (w.answer q).2) (ms : ℕ)
    (h : I s.world) : I (s.sleep ms).world := by
  rw [sleep]
  cases s.timetable? with
  | none => exact h
  | some t =>
      dsimp only
      split
      next => exact h
      next => exact ((keeps_of_answer hanswer t).runUntil ⟨h, rfl, fun _ => rfl⟩).1

/-- No round that runs while time passes concerns the roots of the clusters. -/
lemma sameRoots_sleep (s : Session) (ms : ℕ) : SameRoots s (s.sleep ms) := by
  rw [sleep]
  cases ht : s.timetable? with
  | none => exact ⟨World.SameRoots.refl s.world, rfl, fun _ hnone => absurd hnone (by simp)⟩
  | some t =>
      dsimp only
      split
      next => exact SameRoots.refl s
      next =>
        obtain ⟨hworld, hclosed, hseries⟩ : s.world.SameRoots
            (t.runUntil World.workload (s.clock + ms) s.clock s.world).2 ∧ _ ∧ _ :=
          (keeps_of_answer (fun u q hu => hu.trans (u.sameRoots_answer q)) t).runUntil
            ⟨World.SameRoots.refl s.world, rfl, fun _ => rfl⟩
        refine ⟨hworld, rfl, fun t' ht' => ?_⟩
        obtain rfl := Option.some.inj ht'
        exact ⟨t, ht, hclosed, hseries⟩

/-- What every answer and the passing of time keep true is true after a program. -/
lemma perform_induction {α : Type} {P : Session → Prop}
    (hanswer : ∀ s q, P s → P { s with world := (s.world.answer q).2 })
    (hsleep : ∀ s ms, P s → P (s.sleep ms)) (p : Program Query Query.Answer α) (h : P s) :
    P (s.perform p).2 := by
  induction p generalizing s with
  | done a => exact h
  | ask q next ih => exact ih _ (hanswer s q h)
  | wait ms next ih => exact ih (hsleep s ms h)

/-- No round that is called for concerns the roots of the clusters. -/
lemma sameRoots_update (s : Session) (c : String) : SameRoots s (s.update c).2 :=
  perform_induction (fun t q ht => ht.trans (.of_world (t.world.sameRoots_answer q)))
    (fun t ms ht => ht.trans (t.sameRoots_sleep ms)) _ (SameRoots.refl s)

end Session

/-- The act neither registers nor joins any cluster, and it does not end discovery. -/
def Act.Rootless : Act → Prop
  | .happen (.move .start) | .happen (.move (.join _ _)) => False
  | .happen (.move (.router (.setUp _))) | .shutDown => False
  | _ => True

/-- Nothing else concerns the roots of the clusters. -/
lemma Session.sameRoots_act (s : Session) {a : Act} (ha : a.Rootless) : SameRoots s (s.act a) := by
  cases a with
  | shutDown => exact ha.elim
  | update c => exact s.sameRoots_update c
  | happen x =>
      cases x with
      | sleep ms => exact s.sameRoots_sleep ms
      | move m =>
          cases m with
          | start => exact ha.elim
          | join cluster seed => exact ha.elim
          | router call =>
              have hcall : s.act (.happen (.move (.router call))) = _ := s.move_router call
              rw [hcall]
              refine .of_world (s.world.sameRoots_router ?_)
              rintro clusters rfl
              exact ha
          | publish v => exact .of_world ⟨rfl, rfl, rfl, fun _ => rfl⟩
          | takeDown a => exact .of_world ⟨rfl, rfl, rfl, fun _ => rfl⟩
          | bringUp a => exact .of_world ⟨rfl, rfl, rfl, fun _ => rfl⟩
          | behave conduct exceptions => exact .of_world ⟨rfl, rfl, rfl, fun _ => rfl⟩
          | begin c => exact SameRoots.refl s
          | advance c => exact SameRoots.refl s

end Federation
