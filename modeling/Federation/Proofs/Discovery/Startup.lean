import Federation.Proofs.Config.Valid
import Federation.Proofs.Simulation.Roots

/-!
How discovery starts.

* `Session.Rooted`: the session stems from a configuration, and some of its clusters were joined
  through their seeds. `Session.Rooted.of_sameRoots`: what does not concern the roots keeps this.
* `Session.Rooted.join`: a valid configuration is not refused any of its joins, and each of them adds
  a cluster unless that is joined already. `Session.Rooted.joinAll_new`,
  `Session.Rooted.joinAll_known`: the same for all seeds, for the first time or again.
* `Session.Started`: what holds of a session that was started.
* `Session.start_of_valid`: a session with a valid configuration starts, whether rounds run by a
  timetable or not, and it stays started until discovery ends.
-/

namespace Federation

variable {c : Config}

/-! ### Joining through seeds -/

/-- Enrolling a cluster replaces its bootstrap node and nothing else that it is rooted in. -/
lemma World.bootstrapOf?_enrol (w : World) (name d : String) (n : Node) :
    (w.enrol name n).bootstrapOf? d = if d = name then some n else w.bootstrapOf? d := by
  split
  next hd =>
    subst hd
    cases he : w.enrolments.find? d with
    | some e => rw [bootstrapOf?, find?_enrol_of_joined n he]; rfl
    | none => rw [bootstrapOf?, find?_enrol_of_new n he]; rfl
  next hd => rw [bootstrapOf?, (enrol_keeps w name n).2.2 d hd, bootstrapOf?]

namespace Session

variable {s s' : Session} {names : List String}

/-- The session stems from a configuration, and the named clusters were joined through their
seeds. -/
structure Rooted (c : Config) (names : List String) (s : Session) : Prop where
  config : s.world.config = c
  going : s.world.closed = false
  registered : s.world.registered = c.clusterSet
  joined : ∀ name, s.world.enrolments.contains name = true ↔ name ∈ names
  asked : s.asked = names
  scheduled : ∀ t ∈ s.timetable?, t.closed = false ∧
    ∀ name, t.series.contains name = true ↔ name ∈ names
  bootstraps : ∀ name n, s.world.bootstrapOf? name = some n →
    c.seeds.get? name = some n.name ∧ Address.parse? n.name = some n.address

/-- What does not concern the roots keeps them. -/
lemma Rooted.of_sameRoots (h : s.Rooted c names) (hs : SameRoots s s') : s'.Rooted c names := by
  refine ⟨hs.world.config.trans h.config, hs.world.closed.trans h.going,
    hs.world.registered.trans h.registered, fun name => ?_, hs.asked.trans h.asked,
    fun t' ht' => ?_, fun name n hn => ?_⟩
  · rw [← h.joined, World.contains_eq_isSome_bootstrapOf?, hs.world.bootstraps,
      World.contains_eq_isSome_bootstrapOf?]
  · obtain ⟨t, ht, hclosed, hseries⟩ := hs.scheduled t' ht'
    obtain ⟨hgoing, hscheduled⟩ := h.scheduled t ht
    exact ⟨hclosed.trans hgoing, fun name => by rw [hseries, hscheduled]⟩
  · rw [hs.world.bootstraps] at hn
    exact h.bootstraps name n hn

/-- A join through a seed of a valid configuration is not refused. -/
lemma Rooted.world_join (hc : c.Valid) (h : s.Rooted c names) {name seed : String}
    (hseed : (name, seed) ∈ c.seeds.toList) :
    ∃ address w, Address.parse? seed = some address ∧
      s.world.join (.ofRemote name) seed = .ok w ∧ w.config = c ∧ w.closed = false ∧
      w.registered = c.clusterSet ∧
      ∀ d, w.bootstrapOf? d = if d = name then some ⟨seed, address⟩ else s.world.bootstrapOf? d := by
  obtain ⟨hmem, hreadable⟩ := hc.readable _ hseed
  obtain ⟨address, haddress⟩ := Option.isSome_iff_exists.mp hreadable
  have hremote : (name == s.world.config.localCluster) = false := by
    rw [h.config, beq_eq_false_iff_ne]
    exact Keyed.contains_eq_false_iff.mp hc.away _ hseed
  have hallowed : s.world.seedAddress (.ofRemote name) seed = .ok address := by
    rw [World.seedAddress, h.going]
    simp only [Cluster.ofRemote, hremote, Address.ofSeed, haddress, Bool.false_eq_true, if_false,
      Bool.or_self]
  set registered : World :=
    { s.world with router := s.world.router.setUp (.ofList [.ofRemote name]) } with hregistered
  refine ⟨address, registered.enrol name ⟨seed, address⟩, haddress, ?_, ?_, ?_, ?_, fun d => ?_⟩
  · rw [World.join, hallowed]
    rfl
  · exact (World.enrol_keeps registered name _).1.trans h.config
  · rw [World.enrol]
    split
    · exact h.going
    · exact h.going
  · have hrouter : (registered.enrol name ⟨seed, address⟩).registered = registered.registered := by
      rw [World.enrol]
      split <;> rfl
    rw [hrouter]
    change s.world.registered.union _ = _
    rw [h.registered, Config.clusterSet_union_ofRemote hmem]
  · exact World.bootstrapOf?_enrol registered name d _

/-- The cluster is joined then. It is scheduled unless it was joined before. -/
lemma Rooted.join (hc : c.Valid) (h : s.Rooted c names) {name seed : String}
    (hseed : (name, seed) ∈ c.seeds.toList) :
    ∃ s', s.join (.ofRemote name) seed = .ok s' ∧
      s'.Rooted c (if name ∈ names then names else names ++ [name]) := by
  obtain ⟨address, w, haddress, hjoin, hconfig, hgoing, hregistered, hboot⟩ := h.world_join hc hseed
  have hbootstraps : ∀ d n, w.bootstrapOf? d = some n →
      c.seeds.get? d = some n.name ∧ Address.parse? n.name = some n.address := by
    intro d n hn
    rw [hboot] at hn
    split at hn
    next hd =>
      subst hd
      obtain rfl := Option.some.inj hn
      exact ⟨Assoc.get?_eq_some_iff.mpr hseed, haddress⟩
    next => exact h.bootstraps d n hn
  have hcontains : ∀ d, w.enrolments.contains d = true ↔ d = name ∨ d ∈ names := by
    intro d
    rw [World.contains_eq_isSome_bootstrapOf?, hboot, ← h.joined,
      World.contains_eq_isSome_bootstrapOf?]
    by_cases hd : d = name <;> simp [hd]
  have hresult : s.join (.ofRemote name) seed =
      .ok (if s.world.enrolments.contains name then { s with world := w }
        else schedule { s with world := w } name) := by
    rw [Session.join, hjoin]
    rfl
  refine ⟨_, hresult, ?_⟩
  by_cases hknown : name ∈ names
  · rw [if_pos ((h.joined name).mpr hknown), if_pos hknown]
    refine ⟨hconfig, hgoing, hregistered, fun d => ?_, h.asked, h.scheduled, hbootstraps⟩
    rw [hcontains]
    exact ⟨fun hd => hd.elim (fun hd => hd ▸ hknown) id, Or.inr⟩
  · rw [if_neg (fun hj => hknown ((h.joined name).mp hj)), if_neg hknown]
    refine ⟨hconfig, hgoing, hregistered, fun d => ?_, ?_, fun t' ht' => ?_, hbootstraps⟩
    · exact (hcontains d).trans (by simp [or_comm])
    · exact congrArg (· ++ [name]) h.asked
    · obtain ⟨t, ht, rfl⟩ := Option.map_eq_some_iff.mp ht'
      obtain ⟨hopen, hscheduled⟩ := h.scheduled t ht
      refine ⟨?_, fun d => ?_⟩
      · rw [Timetable.schedule, if_neg (by simp [hopen])]
        exact hopen
      · rw [Keyed.contains_eq_isSome, Timetable.find?_schedule hopen, List.mem_append,
          List.mem_singleton, ← hscheduled, Keyed.contains_eq_isSome]
        by_cases hd : name = d
        · simp [hd]
        · simp [hd, Ne.symm hd]

/-- All seeds are joined for the first time. -/
lemma Rooted.joinAll_new (hc : c.Valid) (h : s.Rooted c names) {l : List (String × String)}
    (hl : ∀ x ∈ l, x ∈ c.seeds.toList) (hnew : (names ++ l.map Prod.fst).Nodup) :
    ∃ s', s.joinAll l = (.ok (), s') ∧ s'.Rooted c (names ++ l.map Prod.fst) := by
  induction l generalizing s names with
  | nil => exact ⟨s, rfl, (List.append_nil names).symm ▸ h⟩
  | cons x l ih =>
      obtain ⟨name, seed⟩ := x
      obtain ⟨hx, hl⟩ := List.forall_mem_cons.mp hl
      obtain ⟨s₁, hjoin, h₁⟩ := h.join hc hx
      have hname : name ∉ names := fun hmem =>
        List.disjoint_of_nodup_append hnew hmem List.mem_cons_self
      have happend : names ++ ((name, seed) :: l).map Prod.fst =
          names ++ [name] ++ l.map Prod.fst := by simp
      rw [if_neg hname] at h₁
      rw [happend] at hnew ⊢
      rw [joinAll, hjoin]
      exact ih h₁ hl hnew

/-- All seeds are joined again. -/
lemma Rooted.joinAll_known (hc : c.Valid) (h : s.Rooted c names) {l : List (String × String)}
    (hl : ∀ x ∈ l, x ∈ c.seeds.toList) (hknown : ∀ x ∈ l, x.1 ∈ names) :
    ∃ s', s.joinAll l = (.ok (), s') ∧ s'.Rooted c names := by
  induction l generalizing s with
  | nil => exact ⟨s, rfl, h⟩
  | cons x l ih =>
      obtain ⟨name, seed⟩ := x
      obtain ⟨hx, hl⟩ := List.forall_mem_cons.mp hl
      obtain ⟨hname, hknown⟩ := List.forall_mem_cons.mp hknown
      obtain ⟨s₁, hjoin, h₁⟩ := h.join hc hx
      rw [if_pos hname] at h₁
      rw [joinAll, hjoin]
      exact ih h₁ hl hknown

/-! ### Starting -/

/-- Registering the configured clusters roots a session in which nothing has happened. -/
lemma rooted_idle (router : RecordedRouter) (hrouter : router.router.clusters = ∅)
    {timetable? : Option (Timetable Query Query.Answer Unit)}
    (ht : ∀ t ∈ timetable?, t.closed = false ∧ t.series = ∅) :
    Rooted c [] ⟨(World.idle c router).setUp, 0, [], timetable?⟩ := by
  refine ⟨rfl, rfl, ?_, fun name => ?_, rfl, fun t hmem => ⟨(ht t hmem).1, fun name => ?_⟩, nofun⟩
  · change router.router.clusters.union c.clusterSet = c.clusterSet
    rw [hrouter, Keyed.empty_union]
  · exact iff_of_false nofun List.not_mem_nil
  · rw [(ht t hmem).2]
    exact iff_of_false nofun List.not_mem_nil

/-- The first start joins all clusters with seeds. -/
lemma Rooted.start_first (hc : c.Valid) (h : Rooted c [] { s with world := s.world.setUp }) :
    s.start.1 = .ok () ∧ s.start.2.Rooted c c.seeds.keys := by
  obtain ⟨s', hjoin, hs'⟩ := h.joinAll_new hc (fun _ => id) c.seeds.nodup_keys
  have hconfig : s.world.config = c := h.config
  have hstart : s.start = (.ok (), s') := by rw [start, hconfig, hjoin]
  rw [hstart]
  exact ⟨rfl, hs'⟩

/-- Another start changes no roots. -/
lemma Rooted.start_again (hc : c.Valid) (h : s.Rooted c c.seeds.keys) :
    s.start.1 = .ok () ∧ s.start.2.Rooted c c.seeds.keys := by
  have hsetUp : Rooted c c.seeds.keys { s with world := s.world.setUp } := by
    refine ⟨h.config, h.going, ?_, h.joined, h.asked, h.scheduled, h.bootstraps⟩
    change s.world.registered.union s.world.config.clusterSet = c.clusterSet
    rw [h.registered, h.config, Keyed.union_self]
  obtain ⟨s', hjoin, hs'⟩ := hsetUp.joinAll_known hc (fun _ => id)
    fun _ hx => List.mem_map_of_mem hx
  have hstart : s.start = (.ok (), s') := by rw [start, h.config, hjoin]
  rw [hstart]
  exact ⟨rfl, hs'⟩

/-- What holds of a session that was started. -/
structure Started (c : Config) (s : Session) : Prop where
  registered : ∀ k, k ∈ s.world.registered.toList ↔
    k.name ∈ c.clusters ∧ k.isLocal = (k.name == c.localCluster)
  home : s.world.registered.toList.filter Cluster.isLocal = [.ofLocal c.localCluster]
  joined : ∀ name, name ∈ s.world.joined ↔ name ∈ c.clusters ∧ name ≠ c.localCluster
  asked : ∀ name, s.asked.count name =
    if name ∈ c.clusters ∧ name ≠ c.localCluster then 1 else 0
  scheduled : ∀ t ∈ s.timetable?, ∀ name,
    name ∈ t.clusters ↔ name ∈ c.clusters ∧ name ≠ c.localCluster
  bootstraps : ∀ name ∈ c.clusters, name ≠ c.localCluster → ∃ seed address,
    c.seeds.get? name = some seed ∧ Address.parse? seed = some address ∧
      s.world.bootstrapOf? name = some ⟨seed, address⟩

/-- A session in which all clusters with seeds were joined is started. -/
lemma Rooted.started (hc : c.Valid) (h : s.Rooted c c.seeds.keys) : s.Started c where
  registered k := by rw [h.registered, Config.mem_clusterSet_iff]
  home := by rw [h.registered, hc.filter_isLocal, Config.home]
  joined name := by rw [World.joined, Keyed.mem_keys_iff, h.joined, hc.mem_seeds_iff]
  asked name := by
    rw [h.asked, c.seeds.nodup_keys.count]
    exact if_congr hc.mem_seeds_iff rfl rfl
  scheduled t ht name := by
    rw [Timetable.clusters, Keyed.mem_keys_iff, (h.scheduled t ht).2, hc.mem_seeds_iff]
  bootstraps name hname hremote := by
    have hjoined := (h.joined name).mpr (hc.mem_seeds_iff.mpr ⟨hname, hremote⟩)
    rw [World.contains_eq_isSome_bootstrapOf?] at hjoined
    obtain ⟨n, hn⟩ := Option.isSome_iff_exists.mp hjoined
    obtain ⟨hseed, haddress⟩ := h.bootstraps name n hn
    exact ⟨n.name, n.address, hseed, haddress, hn⟩

/-- Neither a start nor what concerns no roots ends this. -/
lemma Rooted.acts (hc : c.Valid) (h : s.Rooted c c.seeds.keys) {l : List Act}
    (hl : ∀ a ∈ l, a = .happen (.move .start) ∨ a.Rootless) : (s.acts l).Rooted c c.seeds.keys := by
  refine acts_induction (P := Rooted c c.seeds.keys) l h fun s a ha hs => ?_
  rcases hl a ha with rfl | ha
  · exact (hs.start_again hc).2
  · exact hs.of_sameRoots (s.sameRoots_act ha)

/-- A configuration that passes the check always starts, whether rounds run by a timetable or where
they are called for, if no clusters were registered before. Then exactly the configured names are
registered, one of them as the cluster of this process, and all others are joined, each through
the address of its seed and with rounds that were asked for once. Nothing of this changes until
discovery ends or somebody registers or joins a cluster, however often it is started again. -/
theorem start_of_valid {router : RecordedRouter} (hcheck : c.check = .ok ())
    (hrouter : router.router.clusters = ∅) :
    c.policy = .ok (.ofMode c.mode) ∧
    ∀ new ∈ [manual, timed], ∃ s, new c router = .ok s ∧ s.start.1 = .ok () ∧ s.start.2.Started c ∧
      ∀ l : List Act, (∀ a ∈ l, a = .happen (.move .start) ∨ a.Rootless) →
        let s' := s.start.2.acts l
        s'.Started c ∧ s'.start.1 = .ok () := by
  have hc := Config.check_eq_ok_iff.mp hcheck
  refine ⟨hc.policy_eq, fun new hnew => ?_⟩
  -- both kinds of sessions begin without any series
  obtain ⟨timetable?, hs, ht⟩ : ∃ timetable?, new c router =
      .ok ⟨.idle c router, 0, [], timetable?⟩ ∧
        ∀ t ∈ timetable?, t.closed = false ∧ t.series = ∅ := by
    rcases List.mem_cons.mp hnew with rfl | hnew
    · refine ⟨none, ?_, nofun⟩
      rw [manual, hcheck]
      rfl
    · obtain rfl := List.mem_singleton.mp hnew
      refine ⟨some (.empty (.ofMode c.mode)), ?_, fun t ht => ?_⟩
      · rw [timed, hcheck, hc.policy_eq]
        rfl
      · obtain rfl := Option.some.inj ht
        exact ⟨rfl, rfl⟩
  have hidle : Rooted c [] ⟨(World.idle c router).setUp, 0, [], timetable?⟩ :=
    rooted_idle router hrouter ht
  obtain ⟨hok, hrooted⟩ := Rooted.start_first (s := ⟨.idle c router, 0, [], timetable?⟩) hc hidle
  refine ⟨_, hs, hok, hrooted.started hc, fun l hl => ?_⟩
  have hlater := hrooted.acts hc hl
  exact ⟨hlater.started hc, (hlater.start_again hc).1⟩

/-! ### A configuration with repeated names -/

/-- Three clusters, one of them configured twice, and rounds at an interval that adapts. -/
def trioConfig : Config :=
  ⟨"europe", 1, ["asia", "europe", "asia", "africa"],
    .ofList [("asia", "::1:0080"), ("africa", "host:2")], .adaptive ⟨0, 0, 1000⟩⟩

/-- A router without clusters. -/
def trioRouter : RecordedRouter :=
  .ofRouter (.ofPlacements (.hashed (.ofLimit 4 (.ofCode String.length)))
    (.ofHash (.ofCode String.length)))

/-- One of the three clusters is that of this process, and the others are joined through their seeds
and scheduled once, also after another start and a round. -/
theorem start_of_valid_trio : ∃ s, timed trioConfig trioRouter = .ok s ∧
    let s' := s.start.2.acts [.happen (.sleep 5000), .happen (.move .start), .update "asia"]
    s'.start.1 = .ok () ∧
    s'.world.registered.toList.filter Cluster.isLocal = [.ofLocal "europe"] ∧
    ⟨"africa", false⟩ ∈ s'.world.registered.toList ∧
    "asia" ∈ s'.world.joined ∧ "europe" ∉ s'.world.joined ∧ s'.asked.count "asia" = 1 ∧
    s'.world.bootstrapOf? "asia" = some ⟨"::1:0080", ⟨"::1", 80⟩⟩ := by
  have hcheck : trioConfig.check = .ok () := by decide +kernel
  have hrouter : trioRouter.router.clusters = ∅ := by decide +kernel
  obtain ⟨-, hstart⟩ := start_of_valid hcheck hrouter
  obtain ⟨s, hs, -, -, hacts⟩ := hstart timed (by simp)
  obtain ⟨hstarted, hok⟩ := hacts
    [.happen (.sleep 5000), .happen (.move .start), .update "asia"] (by simp [Act.Rootless])
  obtain ⟨seed, address, hseed, haddress, hboot⟩ :=
    hstarted.bootstraps "asia" (by decide) (by decide)
  have htext : trioConfig.seeds.get? "asia" = some "::1:0080" := by decide +kernel
  obtain rfl := Option.some.inj (htext.symm.trans hseed)
  have hparsed : Address.parse? "::1:0080" = some ⟨"::1", 80⟩ := by decide +kernel
  obtain rfl := Option.some.inj (hparsed.symm.trans haddress)
  refine ⟨s, hs, hok, hstarted.home, (hstarted.registered _).mpr (by decide),
    (hstarted.joined _).mpr (by decide), fun hlocal => ?_, hstarted.asked "asia", hboot⟩
  exact ((hstarted.joined _).mp hlocal).2 rfl

end Session

end Federation
