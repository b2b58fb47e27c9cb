import Federation.Proofs.Discovery.Connections
import Federation.Proofs.Discovery.Safety

/-!
Complete rounds leak no connection.

* `Course.Wired`: the invariant of a course as far as connections go. It tells of every cluster,
  between its rounds, that it is settled, and during a round what the rest of the round ensures.
* `Course.Wired.step`, `Course.wired_ofMoves`: every move keeps it. Nothing is assumed of the moves.
* `Course.no_leaks`: whatever has happened, without a round under way only live nodes of a cluster
  are connected, all of them after a round that has succeeded, and none once discovery has ended.
-/

namespace Federation

open World

namespace World

variable {w w' : World} {c : String}

/-- What a round leaves connected. -/
def Finished (c : String) : Except Fault Changes → World → Prop :=
  Round.outcome (fun _ w => Settled c w ∧ Linked c w) fun _ w => Settled c w

lemma Finished.settled {r : Except Fault Changes} (h : Finished c r w) : Settled c w := by
  cases r with
  | ok changes => exact h.1
  | error e => exact h

lemma settled_idle (config : Config) (router : RecordedRouter) (c : String) :
    Settled c (idle config router) := by
  refine ⟨⟨⟨rfl, fun hj => ?_, ?_, fun h => h.elim⟩, fun e he => ?_, ?_, ?_, trivial, ?_⟩,
    fun v hv => ?_⟩
  · cases hj
  · exact List.forall_mem_nil _
  · cases he
  · exact List.nodup_nil
  · exact List.forall_mem_nil _
  · exact fun h hh => absurd hh (Finset.notMem_empty h)
  · cases hv

/-! ### The end of discovery -/

lemma mem_live_iff {h : Handle} : h ∈ w.enrolments.toList.flatMap Enrolment.tracked ↔
    ∃ c, h ∈ w.trackedOf c := by
  rw [List.mem_flatMap]
  constructor
  · rintro ⟨e, he, hh⟩
    have hfind := Keyed.find?_eq_some_iff.mpr ⟨he, Eq.refl e.cluster⟩
    exact ⟨e.cluster, (trackedOf_of_find? hfind).symm ▸ hh⟩
  · rintro ⟨c, hh⟩
    cases hf : w.enrolments.find? c with
    | none =>
        rw [trackedOf, hf] at hh
        cases hh
    | some e => exact ⟨e, (Keyed.find?_eq_some_iff.mp hf).1, trackedOf_of_find? hf ▸ hh⟩

/-- When discovery ends, all live nodes are disconnected, and no others. -/
lemma mem_links_shutDown {h : Handle} : h ∈ w.shutDown.network.links ↔
    h ∈ w.network.links ∧ ∀ c, h ∉ w.trackedOf c := by
  refine Network.mem_links_foldl_disconnect.trans (and_congr_right fun _ => ?_)
  rw [mem_live_iff, not_exists]

lemma alternates_shutDown : w.shutDown.network.Alternates c ↔ w.network.Alternates c :=
  Network.alternates_foldl_disconnect

end World

/-! ### Rounds that were begun -/

/-- What is kept true of the connections of a cluster and its latest round. -/
def Progress.Wired (c : String) (w : World) : Option Progress → Prop
  | none => Settled c w
  | some p => p.rest.Ensures (wiring c) (Finished c) w

namespace Progress.Wired

variable {w w' : World} {c : String} {p : Progress} {p? : Option Progress}

lemma of_others (h : Progress.Wired c w p?) (hs : Aside c w w') : Progress.Wired c w' p? := by
  cases p? with
  | none => exact Settled.of_others h hs
  | some p => exact Program.ensures_of_others h hs

lemma finished (h : Progress.Wired c w (some p)) {r : Except Fault Changes}
    (hp : p.rest = .done r) : Finished c r w := by
  rw [Progress.Wired, hp] at h
  exact h w (Aside.refl w)

lemma settled (h : Progress.Wired c w p?) (hrest : p?.all Progress.ended = true) :
    Settled c w := by
  cases p? with
  | none => exact h
  | some p =>
      obtain ⟨rest, calm⟩ := p
      cases rest with
      | done r => exact (h.finished rfl).settled
      | ask q next => cases hrest
      | wait ms next => cases hrest

/-- The next step of a round is for its cluster. -/
lemma isFor (h : Progress.Wired c w (some p)) {q : Query} (hq : p.rest.question? = some q) :
    q.IsFor c :=
  (Program.Ensures.allows_of_question h hq).1

end Progress.Wired

namespace Course

variable {k k' : Course} {c d : String} {m : Move}

/-- What every move keeps true of the connections. -/
def Wired (k : Course) : Prop := ∀ c, Progress.Wired c k.world (k.rounds c)

/-! ### Steps of a course -/

/-- Everything but rounds goes on aside from the rounds. -/
lemma Wired.of_aside (h : k.Wired) (hrounds : k'.rounds = k.rounds)
    (haside : ∀ c, Aside c k.world k'.world) : k'.Wired := by
  intro c
  rw [hrounds]
  exact (h c).of_others (haside c)

/-- Nobody has to be calm for the connections. -/
lemma Wired.disturbed (h : k.Wired) : k.disturbed.Wired := by
  intro c
  have hc := h c
  have hrounds : k.disturbed.rounds c = (k.rounds c).map fun p => { p with calm := false } := rfl
  rw [hrounds]
  cases hp : k.rounds c with
  | none =>
      rw [hp] at hc
      exact hc
  | some p =>
      rw [hp] at hc
      exact hc

lemma Wired.onRouter (h : k.Wired) (call : RouterCall) : (k.onRouter call).Wired :=
  h.of_aside rfl fun _ => aside_router call

/-- A round begins where the cluster is settled. -/
lemma Wired.begin (h : k.Wired) (hrest : k.resting c = true) :
    (k.setRound c (.ofRound c)).Wired := by
  intro d
  by_cases hd : d = c
  · subst hd
    rw [rounds_setRound_self]
    exact Round.update_wired ((h d).settled hrest)
  · rw [rounds_setRound_of_ne hd]
    exact h d

/-- The step of a round is taken aside from the rounds of all other clusters. -/
lemma Wired.aside_advance (h : k.Wired) (hd : d ≠ c) :
    Aside d k.world (k.step (.advance c)).world := by
  cases hp : k.rounds c with
  | none =>
      rw [Course.step, hp]
      exact Aside.refl k.world
  | some p =>
      have hc := h c
      rw [hp] at hc
      rw [step_advance hp]
      change Aside d k.world (Program.step World.answer (p.rest, k.world)).2
      rw [Program.step_snd]
      cases hq : p.rest.question? with
      | none => exact Aside.refl k.world
      | some q => exact aside_answer (hc.isFor hq) hd

lemma Wired.advance (h : k.Wired) : (k.step (.advance c)).Wired := by
  intro d
  by_cases hd : d = c
  · subst hd
    have hc := h d
    cases hp : k.rounds d with
    | none =>
        rw [Course.step, hp]
        exact hc
    | some p =>
        rw [hp] at hc
        rw [step_advance hp, rounds_setRound_self]
        exact Program.Ensures.step hc fun _ _ => trivial
  · have hrounds : (k.step (.advance c)).rounds d = k.rounds d := by
      cases hp : k.rounds c with
      | none => rw [Course.step, hp]
      | some p =>
          rw [step_advance hp, rounds_setRound_of_ne hd]
          rfl
    rw [hrounds]
    exact (h d).of_others (h.aside_advance hd)

/-- Every move keeps the invariant. -/
theorem Wired.step (h : k.Wired) (m : Move) : (k.step m).Wired := by
  cases m with
  | start => exact h.of_aside rfl fun _ => Session.aside_start k.session
  | join cluster seed =>
      exact h.of_aside rfl fun c => settle_induction (P := fun s => Aside c k.world s.world)
        (Aside.refl _) fun _ hs => Session.aside_join hs
  | publish v => exact h.of_aside rfl fun _ => Aside.of_journal rfl
  | takeDown a => exact h.of_aside rfl fun _ => Aside.of_journal rfl
  | bringUp a => exact h.of_aside rfl fun _ => Aside.of_journal rfl
  | behave conduct exceptions => exact h.of_aside rfl fun _ => Aside.of_journal rfl
  | router call =>
      cases call with
      | clear => exact (h.onRouter .clear).disturbed
      | setUp clusters => exact h.onRouter _
      | setLocalNode n => exact h.onRouter _
      | addRoute d n => exact h.onRouter _
      | removeRoute d n => exact h.onRouter _
  | begin c =>
      rw [Course.step]
      split
      next hrest => exact h.begin hrest
      next => exact h
  | advance c => exact h.advance

/-- The invariant holds after every history. -/
theorem wired_ofMoves (config : Config) (router : Router) (moves : List Move) :
    (ofMoves config router moves).Wired := by
  induction moves using List.reverseRecOn with
  | nil => exact fun c => settled_idle config (.ofRouter router) c
  | append_singleton moves m ih =>
      rw [ofMoves_concat]
      exact ih.step m

/-! ### No leaks -/

/-- Whatever has happened, a node that is connected is a live node of its cluster, unless a round
for that is under way: bootstrap nodes do not stay connected. After a round that has succeeded all
live nodes are connected. And if discovery ends while no round is under way, nothing is connected
any more and no name was connected more often than disconnected. -/
theorem no_leaks (config : Config) (router : Router) (moves : List Move) :
    let k := ofMoves config router moves
    (∀ h ∈ k.world.network.links, k.resting h.cluster = true → h ∈ k.world.trackedOf h.cluster) ∧
    (∀ c changes calm, k.rounds c = some ⟨.done (.ok changes), calm⟩ →
      ∀ h ∈ k.world.trackedOf c, h ∈ k.world.network.links) ∧
    ((∀ c, k.resting c = true) → k.world.shutDown.network.links = ∅ ∧
      k.world.shutDown.network.stillConnected = []) := by
  intro k
  have hwired : k.Wired := wired_ofMoves config router moves
  have hlinks : ∀ h ∈ k.world.network.links, k.resting h.cluster = true →
      h ∈ k.world.trackedOf h.cluster :=
    fun h hh hrest => ((hwired h.cluster).settled hrest).links h hh rfl
  refine ⟨hlinks, fun c changes calm hc => ?_, fun hrest => ?_⟩
  · have hfinished := hwired c
    rw [hc] at hfinished
    exact (hfinished.finished rfl).2
  · have hnone : k.world.shutDown.network.links = ∅ := by
      refine Finset.eq_empty_of_forall_notMem fun h hh => ?_
      obtain ⟨hh, hdead⟩ := mem_links_shutDown.mp hh
      exact hdead h.cluster (hlinks h hh (hrest h.cluster))
    exact ⟨hnone, Network.stillConnected_eq_nil (fun c => alternates_shutDown.mpr
      ((hwired c).settled (hrest c)).alternates) hnone⟩

/-- No round of a cluster is under way if none has ever begun. -/
lemma rounds_of_not_begun {config : Config} {router : Router} {moves : List Move}
    (h : .begin c ∉ moves) : (ofMoves config router moves).rounds c = none := by
  induction moves using List.reverseRecOn with
  | nil => rfl
  | append_singleton moves m ih =>
      specialize ih fun hm => h (List.mem_append_left _ hm)
      have hm : m ≠ .begin c := fun he => h (he ▸ List.mem_append_right _ List.mem_cons_self)
      rw [ofMoves_concat]
      generalize ofMoves config router moves = k at ih
      cases m with
      | start | join _ _ | publish _ | takeDown _ | bringUp _ | behave _ _ => exact ih
      | router call =>
          cases call with
          | clear => exact (congrArg (Option.map _) ih).trans rfl
          | setUp _ | setLocalNode _ | addRoute _ _ | removeRoute _ _ => exact ih
      | begin d =>
          have hd : c ≠ d := fun he => hm (he ▸ rfl)
          rw [step]
          split
          next => exact (rounds_setRound_of_ne hd).trans ih
          next => exact ih
      | advance d =>
          cases hp : k.rounds d with
          | none =>
              rw [step, hp]
              exact ih
          | some p =>
              have hd : c ≠ d := by
                rintro rfl
                exact absurd (ih.symm.trans hp) (by simp)
              rw [step_advance hp, rounds_setRound_of_ne hd]
              exact ih

/-- After the failover one node is connected, which is disconnected when discovery ends. -/
theorem no_leaks_failover :
    (∀ c, (ofMoves pairConfig pairRouter failover).resting c = true) ∧
    (ofMoves pairConfig pairRouter failover).world.network.links = {⟨"asia", 2, ⟨"b", ⟨"host", 2⟩⟩⟩} ∧
    (ofMoves pairConfig pairRouter failover).world.shutDown.network.stillConnected = [] := by
  have hrest : ∀ c, (ofMoves pairConfig pairRouter failover).resting c = true := by
    intro c
    by_cases hc : c = "asia"
    · subst hc
      decide +kernel
    · rw [resting, rounds_of_not_begun (by simp [failover, pairRound, hc])]
      rfl
  exact ⟨hrest, by decide +kernel, ((no_leaks pairConfig pairRouter failover).2.2 hrest).2⟩

end Course

end Federation
