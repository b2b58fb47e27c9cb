import Mathlib.Tactic
import Federation.Program

/-!
What a program ensures although it is not alone.

* `Surroundings`: how questions are answered, what others may do between two of them, which
  questions a program may ask, and which answers are counted on.
* `Program.Ensures`: whatever others do and however the questions are answered, the program asks
  nothing that it may not ask, and its value and the last state satisfy a condition, also after
  others have gone on.
* `Program.ensures_of_others`, `Program.Ensures.mono`, `Program.ensures_bind`: others may go on,
  conditions may be weakened, and programs follow one another.
* `Program.step`, `Program.Ensures.step`: one step of a program keeps what it ensures.
* `Program.iterate_step_run`, `Program.run_of_iterate_step`: enough steps in a row are a run.
* `Program.exchanges`, `Program.Ensures.run`: in a run whose answers were all counted on, the
  value and the last state satisfy the condition.
* `Program.advance_keeps`: what all answers keep true, up to the next wait.
  `Program.Ensures.advance`, `Program.Ensures.advance_induction`: what the program ensures, and what
  all questions that may be asked keep true.
-/

namespace Federation

/-- What surrounds a program: how questions are answered, what others may do between them, what may
be asked in which state, and which answers are counted on. -/
structure Surroundings (Query : Type) (Answer : Query → Type) (σ : Type) where
  answer : (q : Query) → σ → Answer q × σ
  others : σ → σ → Prop
  refl : ∀ s, others s s
  trans : ∀ {s t u}, others s t → others t u → others s u
  allows : Query → σ → Prop
  admits : (q : Query) → Answer q → Prop

namespace Program

variable {Query : Type} {Answer : Query → Type} {α β σ : Type}

/-- The program asks only what it may ask, and ends as it should, as long as the answers are those
that are counted on. -/
def Ensures (E : Surroundings Query Answer σ) (post : α → σ → Prop) :
    Program Query Answer α → σ → Prop
  | done a, s => ∀ s', E.others s s' → post a s'
  | ask q next, s => ∀ s', E.others s s' → E.allows q s' ∧
      (E.admits q (E.answer q s').1 →
        (next (E.answer q s').1).Ensures E post (E.answer q s').2)
  | wait _ next, s => next.Ensures E post s

variable {E : Surroundings Query Answer σ} {post : α → σ → Prop} {p : Program Query Answer α}
  {s s' : σ}

/-- Others may go on before the program does. -/
lemma ensures_of_others (h : p.Ensures E post s) (hs : E.others s s') : p.Ensures E post s' := by
  induction p generalizing s s' with
  | done a => exact fun t ht => h t (E.trans hs ht)
  | ask q next ih => exact fun t ht => h t (E.trans hs ht)
  | wait ms next ih => exact ih h hs

/-- A condition may be weakened. It holds whatever others do from then on. -/
lemma Ensures.mono {post' : α → σ → Prop} (h : p.Ensures E post s)
    (hpost : ∀ a t, (∀ u, E.others t u → post a u) → post' a t) : p.Ensures E post' s := by
  induction p generalizing s with
  | done a => exact fun t ht => hpost a t fun u hu => h u (E.trans ht hu)
  | ask q next ih => exact fun t ht => ⟨(h t ht).1, fun ha => ih _ ((h t ht).2 ha)⟩
  | wait ms next ih => exact ih h

/-- A program goes on from where the first part ends. -/
lemma ensures_bind {f : α → Program Query Answer β} {post : β → σ → Prop}
    (h : p.Ensures E (fun a t => (f a).Ensures E post t) s) : (p.bind f).Ensures E post s := by
  induction p generalizing s with
  | done a => exact h s (E.refl s)
  | ask q next ih => exact fun t ht => ⟨(h t ht).1, fun ha => ih _ ((h t ht).2 ha)⟩
  | wait ms next ih => exact ih h

/-! ### Steps -/

/-- One question, or the end of a wait. -/
def step (answer : (q : Query) → σ → Answer q × σ) :
    Program Query Answer α × σ → Program Query Answer α × σ
  | (done a, s) => (done a, s)
  | (ask q next, s) => (next (answer q s).1, (answer q s).2)
  | (wait _ next, s) => (next, s)

/-- The question that the next step asks, if it asks one. -/
def question? : Program Query Answer α → Option Query
  | ask q _ => some q
  | _ => none

/-- A step keeps what the program ensures. -/
lemma Ensures.step (h : p.Ensures E post s)
    (ha : ∀ q ∈ p.question?, E.admits q (E.answer q s).1) :
    (step E.answer (p, s)).1.Ensures E post (step E.answer (p, s)).2 := by
  cases p with
  | done a => exact h
  | ask q next => exact (h s (E.refl s)).2 (ha q rfl)
  | wait ms next => exact h

/-- What the next step asks is allowed. -/
lemma Ensures.allows_of_question (h : p.Ensures E post s) {q : Query} (hq : p.question? = some q) :
    E.allows q s := by
  cases p with
  | done a => cases hq
  | ask q' next =>
      obtain rfl := Option.some.inj hq
      exact (h s (E.refl s)).1
  | wait ms next => cases hq

/-- A step changes the state by the answer to its question, or not at all. -/
lemma step_snd (answer : (q : Query) → σ → Answer q × σ) (p : Program Query Answer α) (s : σ) :
    (step answer (p, s)).2 = p.question?.elim s fun q => (answer q s).2 := by
  cases p <;> rfl

/-! ### Runs -/

/-- Enough steps in a row bring a program to its end, with the value and the state of a run. -/
theorem iterate_step_run (answer : (q : Query) → σ → Answer q × σ) (p : Program Query Answer α)
    (s : σ) : ∃ n, (step answer)^[n] (p, s) = (done (p.run answer s).1, (p.run answer s).2.2) := by
  induction p generalizing s with
  | done a => exact ⟨0, rfl⟩
  | ask q next ih =>
      obtain ⟨n, hn⟩ := ih (answer q s).1 (answer q s).2
      exact ⟨n + 1, hn⟩
  | wait ms next ih =>
      obtain ⟨n, hn⟩ := ih s
      exact ⟨n + 1, hn⟩

/-- A program that has come to its end step by step has run. -/
theorem run_of_iterate_step {answer : (q : Query) → σ → Answer q × σ} {a : α} {t : σ} {n : ℕ}
    (h : (step answer)^[n] (p, s) = (done a, t)) :
    (p.run answer s).1 = a ∧ (p.run answer s).2.2 = t := by
  induction n generalizing p s with
  | zero =>
      obtain ⟨rfl, rfl⟩ := Prod.mk.inj h
      exact ⟨rfl, rfl⟩
  | succ n ih =>
      rw [Function.iterate_succ_apply] at h
      cases p with
      | done a => exact ih h
      | ask q next => exact ih (p := next (answer q s).1) (s := (answer q s).2) h
      | wait ms next => exact ih (p := next) (s := s) h

/-- The questions of a run with their answers, the first one first. -/
def exchanges (answer : (q : Query) → σ → Answer q × σ) :
    Program Query Answer α → σ → List ((q : Query) × Answer q)
  | done _, _ => []
  | ask q next, s =>
    ⟨q, (answer q s).1⟩ :: (next (answer q s).1).exchanges answer (answer q s).2
  | wait _ next, s => next.exchanges answer s

/-- Every answer of a run was given in a state with a property that all answers keep. -/
lemma exists_of_mem_exchanges {answer : (q : Query) → σ → Answer q × σ} {I : σ → Prop}
    (hI : ∀ q s, I s → I (answer q s).2) (hs : I s) {x : (q : Query) × Answer q}
    (hx : x ∈ p.exchanges answer s) : ∃ t, I t ∧ (answer x.1 t).1 = x.2 := by
  induction p generalizing s with
  | done a => cases hx
  | ask q next ih =>
      rcases List.mem_cons.mp hx with rfl | hx
      · exact ⟨s, hs, rfl⟩
      · exact ih _ (hI q s hs) hx
  | wait ms next ih => exact ih hs hx

/-- A run without others ends as it should. -/
theorem Ensures.run (h : p.Ensures E post s)
    (hx : ∀ x ∈ p.exchanges E.answer s, E.admits x.1 x.2) :
    post (p.run E.answer s).1 (p.run E.answer s).2.2 := by
  induction p generalizing s with
  | done a => exact h s (E.refl s)
  | ask q next ih =>
      have hq := (h s (E.refl s)).2 (hx _ List.mem_cons_self)
      exact ih _ hq fun x hm => hx x (List.mem_cons_of_mem _ hm)
  | wait ms next ih => exact ih h hx

/-! ### Up to the next wait -/

/-- What all answers keep true holds at the next wait. -/
lemma advance_keeps {answer : (q : Query) → σ → Answer q × σ} {I : σ → Prop}
    (hI : ∀ q t, I t → I (answer q t).2) (hs : I s) : I (p.advance answer s).2 := by
  induction p generalizing s with
  | done a => exact hs
  | ask q next ih => exact ih _ (hI q s hs)
  | wait ms next ih =>
      cases ms with
      | zero => exact ih hs
      | succ ms => exact hs

/-- A program that has stopped ends as it should, or is still about to. -/
def EnsuresPaused (E : Surroundings Query Answer σ) (post : α → σ → Prop) :
    Pause Query Answer α → σ → Prop
  | .finished a, s => post a s
  | .waiting _ rest, s => rest.Ensures E post s

/-- Whatever is answered up to the next wait, the program keeps what it ensures. -/
theorem Ensures.advance (h : p.Ensures E post s) (hadmits : ∀ q a, E.admits q a) :
    EnsuresPaused E post (p.advance E.answer s).1 (p.advance E.answer s).2 := by
  induction p generalizing s with
  | done a => exact h s (E.refl s)
  | ask q next ih => exact ih _ ((h s (E.refl s)).2 (hadmits q _))
  | wait ms next ih =>
      cases ms with
      | zero => exact ih h
      | succ ms => exact h

/-- What all questions that may be asked keep true holds at the next wait. -/
theorem Ensures.advance_induction {I : σ → Prop} (h : p.Ensures E post s)
    (hadmits : ∀ q a, E.admits q a) (hs : I s)
    (hI : ∀ q t, E.allows q t → I t → I (E.answer q t).2) : I (p.advance E.answer s).2 := by
  induction p generalizing s with
  | done a => exact hs
  | ask q next ih =>
      obtain ⟨hq, hnext⟩ := h s (E.refl s)
      exact ih _ (hnext (hadmits q _)) (hI q s hq hs)
  | wait ms next ih =>
      cases ms with
      | zero => exact ih h hs
      | succ ms => exact hs

end Program

end Federation
