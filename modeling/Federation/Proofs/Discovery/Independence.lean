import Federation.Proofs.Discovery.Leaks
import Federation.Proofs.Simulation.Agreement

/-!
Rounds of different clusters do not notice one another.

* `World.updates`: rounds for several clusters, one after the other.
* `Course.Apart`: the invariant of rounds that take their steps in turns. Each of them is where it
  would be if it was alone, in a world that agrees with the real one about its cluster.
* `Course.rounds_independent`: rounds of different clusters that take their steps in any order give
  the results and leave the clusters and routes as they do one after the other.
-/

namespace Federation

open World

/-- Rounds for several clusters, one after the other: their results, and the world after them. -/
def World.updates (w : World) : List String → List (Except Fault Changes) × World
  | [] => ([], w)
  | c :: cs =>
    let (result, _, w) := w.update c
    let (results, w) := w.updates cs
    (result :: results, w)

namespace Course

variable {k k' : Course} {w₀ : World} {c d : String} {cs steps : List String}

/-! ### Beginning and advancing rounds -/

lemma Wired.after (h : k.Wired) (moves : List Move) : (k.after moves).Wired := by
  induction moves generalizing k with
  | nil => exact h
  | cons m moves ih => exact ih (h.step m)

/-- A round that begins takes no step yet. -/
lemma after_map_begin (hcs : cs.Nodup) (hrest : ∀ c ∈ cs, k.resting c = true) :
    (k.after (cs.map .begin)).world = k.world ∧
      (∀ c ∈ cs, (k.after (cs.map .begin)).rounds c = some (.ofRound c)) ∧
      ∀ d ∉ cs, (k.after (cs.map .begin)).rounds d = k.rounds d := by
  induction cs generalizing k with
  | nil => exact ⟨rfl, by simp, fun _ _ => rfl⟩
  | cons c cs ih =>
      obtain ⟨hc, hcs⟩ := List.nodup_cons.mp hcs
      have hne : ∀ d ∈ cs, d ≠ c := fun d hd he => hc (he ▸ hd)
      have hbegin : k.step (.begin c) = k.setRound c (.ofRound c) := by
        rw [step, if_pos (hrest c List.mem_cons_self)]
      have hrest' : ∀ d ∈ cs, (k.setRound c (.ofRound c)).resting d = true := by
        intro d hd
        rw [resting, rounds_setRound_of_ne (hne d hd)]
        exact hrest d (List.mem_cons_of_mem c hd)
      obtain ⟨hworld, hin, hout⟩ := ih hcs hrest'
      rw [List.map_cons, after_cons, hbegin]
      refine ⟨hworld, List.forall_mem_cons.mpr ⟨?_, hin⟩, fun d hd => ?_⟩
      · rw [hout c hc, rounds_setRound_self]
      · rw [List.mem_cons, not_or] at hd
        rw [hout d hd.2, rounds_setRound_of_ne hd.1]

/-- A round is advanced by its own steps only. -/
lemma rounds_advance_of_ne (hd : d ≠ c) : (k.step (.advance c)).rounds d = k.rounds d := by
  cases hp : k.rounds c with
  | none => rw [step, hp]
  | some p =>
      rw [step_advance hp, rounds_setRound_of_ne hd]
      rfl

lemma rounds_after_advance (hd : d ∉ steps) :
    (k.after (steps.map .advance)).rounds d = k.rounds d := by
  induction steps generalizing k with
  | nil => rfl
  | cons c steps ih =>
      rw [List.mem_cons, not_or] at hd
      rw [List.map_cons, after_cons, ih hd.2, rounds_advance_of_ne hd.1]

/-- Rounds that have begun can run one after the other. -/
lemma exists_updates (hcs : cs.Nodup) (hrounds : ∀ c ∈ cs, k.rounds c = some (.ofRound c)) :
    ∃ steps : List String, (∀ c ∈ steps, c ∈ cs) ∧
      (k.after (steps.map .advance)).world = (k.world.updates cs).2 ∧
      cs.map (k.after (steps.map .advance)).rounds =
        (k.world.updates cs).1.map fun r => some ⟨.done r, true⟩ := by
  induction cs generalizing k with
  | nil => exact ⟨[], by simp, rfl, rfl⟩
  | cons c cs ih =>
      obtain ⟨hc, hcs⟩ := List.nodup_cons.mp hcs
      obtain ⟨n, hn⟩ := Program.iterate_step_run World.answer (Round.update c).run k.world
      have hrun : k.after (List.replicate n (.advance c)) =
          (k.inWorld (k.world.update c).2.2).setRound c ⟨.done (k.world.update c).1, true⟩ := by
        rw [after_replicate_advance n (hrounds c List.mem_cons_self)]
        exact congrArg (fun x => (k.inWorld x.2).setRound c ⟨x.1, true⟩) hn
      set k₁ := (k.inWorld (k.world.update c).2.2).setRound c ⟨.done (k.world.update c).1, true⟩
      have hne : ∀ d ∈ cs, d ≠ c := fun d hd he => hc (he ▸ hd)
      have hrounds₁ : ∀ d ∈ cs, k₁.rounds d = some (.ofRound d) := fun d hd =>
        (rounds_setRound_of_ne (hne d hd)).trans (hrounds d (List.mem_cons_of_mem c hd))
      obtain ⟨steps, hsteps, hworld, hresults⟩ := ih hcs hrounds₁
      have hafter : k.after ((List.replicate n c ++ steps).map .advance) =
          k₁.after (steps.map .advance) := by
        rw [List.map_append, List.map_replicate, after, List.foldl_append]
        exact congrArg (fun k : Course => k.after (steps.map .advance)) hrun
      refine ⟨List.replicate n c ++ steps, fun d hd => ?_, ?_, ?_⟩
      · rcases List.mem_append.mp hd with hd | hd
        · exact List.eq_of_mem_replicate hd ▸ List.mem_cons_self
        · exact List.mem_cons_of_mem c (hsteps d hd)
      · rw [hafter]
        exact hworld
      · rw [hafter, List.map_cons, rounds_after_advance fun hm => hc (hsteps c hm), hresults]
        exact congrArg (· :: _) rounds_setRound_self

/-! ### Rounds that take their steps in turns -/

/-- Rounds for the clusters `cs` that have begun in the world `w₀`. Each of them is where it would
be if it was alone. -/
structure Apart (w₀ : World) (cs : List String) (k : Course) : Prop where
  wired : k.Wired
  own : ∀ c ∈ cs, ∃ n rest w, k.rounds c = some ⟨rest, true⟩ ∧
    (Program.step World.answer)^[n] ((Round.update c).run, w₀) = (rest, w) ∧ w.Agree c k.world
  others : ∀ d ∉ cs, w₀.Agree d k.world

/-- The step of a round is not noticed in other clusters. -/
lemma Wired.agree_advance (h : k.Wired) (hd : d ≠ c) :
    k.world.Agree d (k.step (.advance c)).world := by
  cases hp : k.rounds c with
  | none =>
      rw [Course.step, hp]
      exact World.Agree.refl d k.world
  | some p =>
      have hc := h c
      rw [hp] at hc
      rw [step_advance hp]
      exact agree_step (fun q hq => hc.isFor hq) hd

namespace Apart

lemma begin (h : k.Wired) (hcs : cs.Nodup) (hrest : ∀ c ∈ cs, k.resting c = true) :
    (k.after (cs.map .begin)).Apart k.world cs := by
  obtain ⟨hworld, hin, -⟩ := after_map_begin hcs hrest
  refine ⟨h.after _, fun c hc => ⟨0, _, k.world, hin c hc, rfl, ?_⟩, fun d _ => ?_⟩
  · rw [hworld]
    exact World.Agree.refl c k.world
  · rw [hworld]
    exact World.Agree.refl d k.world

/-- A step is the one that the round would take if it was alone, and no other round notices it. -/
lemma advance (h : k.Apart w₀ cs) (hc : c ∈ cs) : (k.step (.advance c)).Apart w₀ cs := by
  refine ⟨h.wired.step _, fun d hd => ?_, fun d hd => ?_⟩
  · obtain ⟨n, rest, w, hrest, hsteps, hagree⟩ := h.own d hd
    by_cases hdc : d = c
    · subst hdc
      have hd := h.wired d
      rw [hrest] at hd
      obtain ⟨hprogram, hworld⟩ := hagree.step fun q hq => hd.isFor hq
      refine ⟨n + 1, (Program.step World.answer (rest, w)).1,
        (Program.step World.answer (rest, w)).2, ?_, ?_, ?_⟩
      · rw [step_advance hrest, rounds_setRound_self, hprogram]
      · rw [Function.iterate_succ_apply', hsteps]
      · rw [step_advance hrest]
        exact hworld
    · refine ⟨n, rest, w, ?_, hsteps, hagree.trans (h.wired.agree_advance hdc)⟩
      rw [rounds_advance_of_ne hdc]
      exact hrest
  · exact (h.others d hd).trans (h.wired.agree_advance fun he => hd (he ▸ hc))

lemma after_advance (h : k.Apart w₀ cs) (hsteps : ∀ c ∈ steps, c ∈ cs) :
    (k.after (steps.map .advance)).Apart w₀ cs := by
  induction steps generalizing k with
  | nil => exact h
  | cons c steps ih =>
      obtain ⟨hc, hsteps⟩ := List.forall_mem_cons.mp hsteps
      exact ih (h.advance hc) hsteps

/-- A round that has ended has had the result and the effect that it would have had alone. -/
lemma ended (h : k.Apart w₀ cs) (hc : c ∈ cs) (hrest : k.resting c = true) :
    k.rounds c = some ⟨.done (w₀.update c).1, true⟩ ∧ (w₀.update c).2.2.Agree c k.world := by
  obtain ⟨n, rest, w, hround, hsteps, hagree⟩ := h.own c hc
  rw [resting, hround] at hrest
  cases rest with
  | done r =>
      obtain ⟨hresult, hworld⟩ := Program.run_of_iterate_step hsteps
      have hresult : (w₀.update c).1 = r := hresult
      have hworld : (w₀.update c).2.2 = w := hworld
      rw [hresult, hworld]
      exact ⟨hround, hagree⟩
  | ask q next => cases hrest
  | wait ms next => cases hrest

/-- Two ways of taking turns come to the same end. -/
lemma agree (h : k.Apart w₀ cs) (h' : k'.Apart w₀ cs) (hrest : ∀ c ∈ cs, k.resting c = true)
    (hrest' : ∀ c ∈ cs, k'.resting c = true) (c : String) : k.world.Agree c k'.world := by
  by_cases hc : c ∈ cs
  · exact (h.ended hc (hrest c hc)).2.symm.trans (h'.ended hc (hrest' c hc)).2
  · exact (h.others c hc).symm.trans (h'.others c hc)

end Apart

/-! ### Independence -/

/-- Whatever has happened, rounds of different clusters that take their steps in any order end with
the same results as one after the other in any order, and leave the same known of every cluster and
the same routes. A round takes no step when it begins, so that it does not matter that all begin
first. And no step of a round changes what is known of another cluster or its routes. -/
theorem rounds_independent (config : Config) (router : Router) (moves : List Move)
    (cs steps order : List String) (hcs : cs.Nodup)
    (hrest : ∀ c ∈ cs, (ofMoves config router moves).resting c = true)
    (hsteps : ∀ c ∈ steps, c ∈ cs)
    (hended : ∀ c ∈ cs, ((ofMoves config router moves).after
      (cs.map .begin ++ steps.map .advance)).resting c = true)
    (horder : order.Perm cs) :
    let k := ofMoves config router moves
    let k' := k.after (cs.map .begin ++ steps.map .advance)
    order.map k'.rounds = (k.world.updates order).1.map (fun r => some ⟨.done r, true⟩) ∧
    k'.world.enrolments = (k.world.updates order).2.enrolments ∧
    k'.world.router.router = (k.world.updates order).2.router.router ∧
    ∀ c d, d ≠ c →
      (k.step (.advance c)).world.enrolments.find? d = k.world.enrolments.find? d ∧
      (k.step (.advance c)).world.routedOf d = k.world.routedOf d := by
  intro k k'
  have hwired : k.Wired := wired_ofMoves config router moves
  have hmem : ∀ {c}, c ∈ order ↔ c ∈ cs := horder.mem_iff
  have hapart : k'.Apart k.world cs := by
    have happend : k' = (k.after (cs.map .begin)).after (steps.map .advance) := List.foldl_append
    rw [happend]
    exact (Apart.begin hwired hcs hrest).after_advance hsteps
  -- one after the other is a way of taking turns
  obtain ⟨hworld, hin, -⟩ := after_map_begin hcs hrest
  obtain ⟨turns, hturns, hfinal, hresults⟩ :=
    exists_updates (horder.nodup_iff.mpr hcs) fun c hc => hin c (hmem.mp hc)
  set k'' := (k.after (cs.map .begin)).after (turns.map .advance)
  rw [hworld] at hfinal hresults
  have hapart' : k''.Apart k.world cs :=
    (Apart.begin hwired hcs hrest).after_advance fun c hc => hmem.mp (hturns c hc)
  have hended' : ∀ c ∈ cs, k''.resting c = true := by
    intro c hc
    have hround : k''.rounds c ∈ order.map k''.rounds := List.mem_map_of_mem (hmem.mpr hc)
    rw [hresults] at hround
    obtain ⟨r, -, hr⟩ := List.mem_map.mp hround
    rw [resting, ← hr]
    rfl
  obtain ⟨henrolments, hrouter⟩ := World.eq_of_agree (hapart.agree hapart' hended hended')
  rw [hfinal] at henrolments hrouter
  refine ⟨?_, henrolments, hrouter, fun c d hd => ?_⟩
  · rw [← hresults]
    refine List.map_congr_left fun c hc => ?_
    have hc := hmem.mp hc
    rw [(hapart.ended hc (hended c hc)).1, (hapart'.ended hc (hended' c hc)).1]
  · have hagree := hwired.agree_advance hd
    exact ⟨hagree.enrolment.symm, hagree.router.nodes.nodesOf_eq.symm⟩

/-! ### Two clusters with nodes of the same names -/

/-- The process belongs to `europe` and reaches two clusters through seeds. -/
def twinConfig : Config :=
  ⟨"europe", 1000, ["europe", "africa", "asia"],
    .ofList [("africa", "host:3"), ("asia", "host:1")], .fixed⟩

/-- Both clusters are joined, and have nodes `a` and `b`. -/
def twins : List Move :=
  [.publish pairView, .publish (.ofList "africa" [⟨"a", ⟨"host", 3⟩⟩, ⟨"b", ⟨"host", 4⟩⟩]), .start]

/-- The rounds of both clusters take turns. -/
def twinTurns : List String := (List.replicate 30 ["asia", "africa"]).flatten

/-- Each round routes the nodes of its own cluster, although they have the same names. -/
theorem rounds_independent_twins :
    let k := ofMoves twinConfig pairRouter twins
    let k' := k.after (["asia", "africa"].map .begin ++ twinTurns.map .advance)
    k'.world.enrolments = (k.world.updates ["africa", "asia"]).2.enrolments ∧
    k'.world.router.router = (k.world.updates ["africa", "asia"]).2.router.router ∧
    (k'.world.routedOf "asia").toList = [⟨"a", ⟨"host", 1⟩⟩, ⟨"b", ⟨"host", 2⟩⟩] ∧
    (k'.world.routedOf "africa").toList = [⟨"a", ⟨"host", 3⟩⟩, ⟨"b", ⟨"host", 4⟩⟩] := by
  have hindependent := rounds_independent twinConfig pairRouter twins ["asia", "africa"] twinTurns
    ["africa", "asia"] (by decide) (by decide +kernel) (by simp [twinTurns]) (by decide +kernel)
    (.swap _ _ _)
  exact ⟨hindependent.2.1, hindependent.2.2.1, by decide +kernel, by decide +kernel⟩

end Course

end Federation
