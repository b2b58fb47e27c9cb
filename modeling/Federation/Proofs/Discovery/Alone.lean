import Federation.Proofs.Placement.Room
import Federation.Proofs.Simulation.Spared

/-!
Parts of a round with nothing else going on.

* `Program.final`: the value of a program and the state that it leaves behind, and what that is of
  programs that follow one another.
* `Program.Asks`: whatever it is answered, a program asks only questions of a kind. Its run keeps
  what the answers to these keep (`Program.Asks.final_induction`), and depends on nothing else than
  how these are answered (`Program.Asks.final_eq`).
* `Round.under`: the result of a part of a round and the state after it, whatever its steps are
  answered. There is one rule for each way in which parts are put together. `Round.alone`: the same
  in a world with nothing else going on.
* `World.Steady`: what no part of a round changes: which clusters are registered and through which
  nodes they are joined, what is published and which nodes can be reached, and that the placement of
  nodes is sound.
* `Round.steady_alone`: a part that runs alone keeps all of this.
-/

namespace Federation

/-! ### Programs -/

namespace Program

variable {Query : Type} {Answer : Query → Type} {α β σ : Type}

/-- The value of a program that nothing interrupts, and the state after it. -/
def final (answer : (q : Query) → σ → Answer q × σ) (p : Program Query Answer α) (s : σ) : α × σ :=
  ((p.run answer s).1, (p.run answer s).2.2)

variable {answer : (q : Query) → σ → Answer q × σ}

/-- A program goes on from where the first part ends. -/
lemma final_bind {p : Program Query Answer α} {a : α} {s s' : σ} (h : p.final answer s = (a, s'))
    (f : α → Program Query Answer β) : (p.bind f).final answer s = (f a).final answer s' := by
  induction p generalizing s with
  | done b =>
      obtain ⟨rfl, rfl⟩ := Prod.mk.inj h
      rfl
  | ask q next ih => exact ih _ h
  | wait ms next ih => exact ih h

/-- Whatever it is answered, the program asks only questions of a kind. -/
def Asks (P : Query → Prop) : Program Query Answer α → Prop
  | done _ => True
  | ask q next => P q ∧ ∀ a, (next a).Asks P
  | wait _ next => next.Asks P

variable {P : Query → Prop} {p : Program Query Answer α} {I : σ → Prop} {s : σ}

lemma asks_true (p : Program Query Answer α) : p.Asks fun _ => True := by
  induction p with
  | done a => trivial
  | ask q next ih => exact ⟨trivial, ih⟩
  | wait ms next ih => exact ih

/-- Programs that follow one another. -/
lemma Asks.bind {f : α → Program Query Answer β} (h : p.Asks P) (hf : ∀ a, (f a).Asks P) :
    (p.bind f).Asks P := by
  induction p with
  | done a => exact hf a
  | ask q next ih => exact ⟨h.1, fun a => ih a (h.2 a)⟩
  | wait ms next ih => exact ih h

/-- What the answers to its questions keep is kept by a program. -/
lemma Asks.final_induction (h : p.Asks P) (hI : ∀ q s, P q → I s → I (answer q s).2) (hs : I s) :
    I (p.final answer s).2 := by
  induction p generalizing s with
  | done a => exact hs
  | ask q next ih => exact ih _ (h.2 _) (hI q s h.1 hs)
  | wait ms next ih => exact ih h hs

/-- A program goes the same way if its questions are answered in the same way. -/
lemma Asks.final_eq {answer' : (q : Query) → σ → Answer q × σ} (h : p.Asks P)
    (hI : ∀ q s, P q → I s → I (answer q s).2)
    (heq : ∀ q s, P q → I s → answer' q s = answer q s) (hs : I s) :
    p.final answer' s = p.final answer s := by
  induction p generalizing s with
  | done a => rfl
  | ask q next ih =>
      calc (ask q next).final answer' s
          = (next (answer' q s).1).final answer' (answer' q s).2 := rfl
        _ = (next (answer q s).1).final answer' (answer q s).2 := by rw [heq q s h.1 hs]
        _ = (next (answer q s).1).final answer (answer q s).2 := ih _ (h.2 _) (hI q s h.1 hs)
  | wait ms next ih => exact ih h hs

end Program

/-! ### Parts of rounds -/

namespace Round

section Under

variable {σ α β : Type} {answer : (q : Query) → σ → q.Answer × σ} {s s' : σ} {r : Round β}
  {f : β → Round α}

/-- The result of a part of a round that nothing interrupts, and the state after it. -/
def under (answer : (q : Query) → σ → q.Answer × σ) (r : Round α) (s : σ) : Except Fault α × σ :=
  r.run.final answer s

lemma under_query_bind (q : Query) (f : q.Answer → Round α) (s : σ) :
    (query q >>= f).under answer s = (f (answer q s).1).under answer (answer q s).2 := rfl

lemma under_bind_ok {b : β} (h : r.under answer s = (.ok b, s')) :
    (r >>= f).under answer s = (f b).under answer s' := Program.final_bind h _

lemma under_bind_error {e : Fault} (h : r.under answer s = (.error e, s')) :
    (r >>= f).under answer s = (.error e, s') := Program.final_bind h _

lemma under_result_bind {f : Except Fault β → Round α} {b : Except Fault β}
    (h : r.under answer s = (b, s')) :
    (result r >>= f).under answer s = (f b).under answer s' := by
  have hrun : (result r >>= f).run = r.run.bind fun b => (f b).run :=
    Program.bind_assoc _ _ _
  rw [under, hrun, Program.final_bind h]
  rfl

lemma under_tryCatch_ok {r : Round α} {f : Fault → Round α} {a : α}
    (h : r.under answer s = (.ok a, s')) : (tryCatch r f).under answer s = (.ok a, s') :=
  Program.final_bind h _

lemma under_tryCatch_error {r : Round α} {f : Fault → Round α} {e : Fault}
    (h : r.under answer s = (.error e, s')) :
    (tryCatch r f).under answer s = (f e).under answer s' := Program.final_bind h _

end Under

variable {α β γ : Type} {w w' w'' : World} {r : Round β} {f : β → Round α}

/-- The result of a part of a round that nothing interrupts, and the world after it. -/
def alone (r : Round α) (w : World) : Except Fault α × World := r.under World.answer w

lemma alone_query_bind (q : Query) (f : q.Answer → Round α) (w : World) :
    (query q >>= f).alone w = (f (w.answer q).1).alone (w.answer q).2 := rfl

lemma alone_require (e : Except Fault α) (w : World) : (require e).alone w = (e, w) := rfl

lemma alone_bind_ok {b : β} (h : r.alone w = (.ok b, w')) :
    (r >>= f).alone w = (f b).alone w' := under_bind_ok h

lemma alone_bind_error {e : Fault} (h : r.alone w = (.error e, w')) :
    (r >>= f).alone w = (.error e, w') := under_bind_error h

/-- A part that cannot fail is repeated for each item of a list. An account `g` is kept of what was
done so far. -/
lemma alone_forM {τ : Type} {I : τ → World → Prop} {g : τ → γ → τ} {f : γ → Round Unit}
    {l : List γ}
    (hf : ∀ x ∈ l, ∀ a w, I a w → ∃ w', (f x).alone w = (.ok (), w') ∧ I (g a x) w') {a : τ}
    (h : I a w) : ∃ w', (l.forM f).alone w = (.ok (), w') ∧ I (l.foldl g a) w' := by
  induction l generalizing a w with
  | nil => exact ⟨w, rfl, h⟩
  | cons x l ih =>
      obtain ⟨w', hx, hw'⟩ := hf x List.mem_cons_self a w h
      have hcons : ((x :: l).forM f).alone w = (l.forM f).alone w' := alone_bind_ok hx
      rw [hcons]
      exact ih (fun y hy => hf y (List.mem_cons_of_mem x hy)) hw'

end Round

/-! ### What stays the same -/

namespace World

variable {w w' u : World} {c : String} {h : Handle}

/-- What no part of a round changes. -/
structure Steady (w w' : World) : Prop where
  closed : w'.closed = w.closed
  registered : w'.registered = w.registered
  bootstrap : ∀ d, (w'.enrolments.find? d).map Enrolment.bootstrap =
    (w.enrolments.find? d).map Enrolment.bootstrap
  network : ∃ journal, w'.network = { w.network with journal }
  sound : w.router.router.nodes.Sound → w'.router.router.nodes.Sound
  limit : w.router.router.nodes.Sound → w'.router.router.limit? = w.router.router.limit?

lemma Steady.refl (w : World) : Steady w w :=
  ⟨rfl, rfl, fun _ => rfl, ⟨_, rfl⟩, id, fun _ => rfl⟩

lemma Steady.trans (h : Steady w w') (h' : Steady w' u) : Steady w u := by
  obtain ⟨j, hj⟩ := h.network
  obtain ⟨j', hj'⟩ := h'.network
  refine ⟨h'.closed.trans h.closed, h'.registered.trans h.registered,
    fun d => (h'.bootstrap d).trans (h.bootstrap d), ⟨j', ?_⟩, fun hs => h'.sound (h.sound hs),
    fun hs => (h'.limit (h.sound hs)).trans (h.limit hs)⟩
  rw [hj', hj]

lemma Steady.joined (h : Steady w w') (d : String) :
    w'.enrolments.contains d = w.enrolments.contains d := by
  have hsome := congrArg Option.isSome (h.bootstrap d)
  rwa [Option.isSome_map, Option.isSome_map, ← Keyed.contains_eq_isSome,
    ← Keyed.contains_eq_isSome] at hsome

/-- A change of what is known of one joined cluster, which keeps its bootstrap node. -/
lemma steady_modify (c : String) (f : Enrolment → Enrolment) (hf : ∀ e, (f e).cluster = e.cluster)
    (hb : ∀ e, (f e).bootstrap = e.bootstrap) :
    Steady w { w with enrolments := w.enrolments.modify c f hf } := by
  refine ⟨rfl, rfl, fun d => ?_, ⟨_, rfl⟩, id, fun _ => rfl⟩
  rw [Enrolments.find?_modify]
  split
  next => rw [Option.map_map, show Enrolment.bootstrap ∘ f = Enrolment.bootstrap from funext hb]
  next => rfl

/-- What is written into the journal alone. -/
lemma Steady.of_record (x : Contact) : Steady w { w with network := w.network.record x } :=
  ⟨rfl, rfl, fun _ => rfl, ⟨_, rfl⟩, id, fun _ => rfl⟩

lemma steady_route : Steady w (w.route h).2 := by
  obtain ⟨x, -, hw⟩ | ⟨p, hp, hw⟩ := route_cases w h
  · rw [hw]
    exact Steady.refl w
  · rw [hw]
    exact ⟨rfl, rfl, fun _ => rfl, ⟨_, rfl⟩, fun hs => (hs.add hp).1, fun hs => (hs.add hp).2⟩

lemma steady_unroute : Steady w (w.unroute h) := by
  obtain ⟨-, hw⟩ | ⟨p, hp, hw⟩ := unroute_cases w h
  · rw [hw]
    exact Steady.refl w
  · rw [hw]
    exact ⟨rfl, rfl, fun _ => rfl, ⟨_, rfl⟩, fun hs => (hs.remove hp).1, fun hs => (hs.remove hp).2⟩

/-- A single step keeps what no part changes. -/
lemma steady_answer (w : World) (q : Query) : Steady w (w.answer q).2 := by
  cases q with
  | isClosed => exact Steady.refl w
  | enrolment _ => exact Steady.refl w
  | routes _ => exact Steady.refl w
  | delay _ => exact Steady.refl w
  | connect _ => exact Steady.of_record _
  | disconnect _ => exact Steady.of_record _
  | membership _ => exact Steady.of_record _
  | build c n =>
      rw [answer, build]
      cases w.enrolments.find? c with
      | none => exact Steady.refl w
      | some e => exact steady_modify c Enrolment.countHandle _ fun _ => rfl
  | track h => exact steady_modify _ _ _ fun _ => rfl
  | untrack h => exact steady_modify _ _ _ fun _ => rfl
  | store c v => exact steady_modify _ _ _ fun _ => rfl
  | route h => exact steady_route
  | unroute h => exact steady_unroute

end World

/-- A part of a round that runs alone keeps what no part changes. -/
lemma Round.steady_alone {α : Type} (r : Round α) (w : World) : World.Steady w (r.alone w).2 :=
  r.run.asks_true.final_induction (fun q _ _ h => h.trans (World.steady_answer _ q))
    (World.Steady.refl w)

end Federation
