import Federation.Discovery.Round
import Federation.Proofs.Program.Ensures

/-!
What the parts of a round ensure.

* `Round.Ensures`: what a part ensures where it succeeds, and what where it fails.
* `Round.ensures_query_bind`, `Round.ensures_pause_bind`, `Round.ensures_require_bind`,
  `Round.ensures_result_bind`: a part that begins with a single step, one rule for each kind of
  step.
* `Round.ensures_bind`, `Round.ensures_tryCatch`, `Round.ensures_forM`: parts that follow one
  another, that are tried, and that are repeated for each item of a list.
-/

namespace Federation

namespace Round

variable {α β γ σ τ : Type} {E : Surroundings Query Query.Answer σ} {s : σ}

/-- A condition on values and one on faults, taken together. -/
def outcome (post : α → σ → Prop) (fail : Fault → σ → Prop) : Except Fault α → σ → Prop
  | .ok a => post a
  | .error e => fail e

/-- What a part ensures where it succeeds, and what where it fails. -/
def Ensures (E : Surroundings Query Query.Answer σ) (post : α → σ → Prop) (fail : Fault → σ → Prop)
    (r : Round α) (s : σ) : Prop :=
  r.run.Ensures E (outcome post fail) s

variable {post : α → σ → Prop} {fail : Fault → σ → Prop} {r : Round β} {f : β → Round α}

/-! ### Ends -/

lemma ensures_pure {a : α} (h : ∀ t, E.others s t → post a t) :
    (pure a : Round α).Ensures E post fail s := h

lemma ensures_throw {e : Fault} (h : ∀ t, E.others s t → fail e t) :
    (throw e : Round α).Ensures E post fail s := h

/-! ### Single steps -/

lemma ensures_query_bind {q : Query} {f : q.Answer → Round α}
    (h : ∀ t, E.others s t → E.allows q t ∧ (E.admits q (E.answer q t).1 →
      (f (E.answer q t).1).Ensures E post fail (E.answer q t).2)) :
    (query q >>= f).Ensures E post fail s := h

lemma ensures_pause_bind {ms : ℕ} {f : Unit → Round α} (h : (f ()).Ensures E post fail s) :
    (pause ms >>= f).Ensures E post fail s := h

lemma ensures_require_bind {e : Except Fault β}
    (hok : ∀ b, e = .ok b → (f b).Ensures E post fail s)
    (herror : ∀ x, e = .error x → ∀ t, E.others s t → fail x t) :
    (require e >>= f).Ensures E post fail s := by
  cases e with
  | ok b => exact hok b rfl
  | error x => exact herror x rfl

/-! ### Parts in a row -/

lemma ensures_of_others {r : Round α} {t : σ} (h : r.Ensures E post fail s) (ht : E.others s t) :
    r.Ensures E post fail t :=
  Program.ensures_of_others h ht

lemma Ensures.mono {r : Round α} {post' : α → σ → Prop} {fail' : Fault → σ → Prop}
    (h : r.Ensures E post fail s) (hpost : ∀ a t, post a t → post' a t)
    (hfail : ∀ e t, fail e t → fail' e t) : r.Ensures E post' fail' s := by
  refine Program.Ensures.mono h fun a t ht => ?_
  cases a with
  | ok a => exact hpost a t (ht t (E.refl t))
  | error e => exact hfail e t (ht t (E.refl t))

lemma ensures_bind (h : r.Ensures E (fun b t => (f b).Ensures E post fail t) fail s) :
    (r >>= f).Ensures E post fail s := by
  refine Program.ensures_bind (Program.Ensures.mono h fun b t ht => ?_)
  cases b with
  | ok b => exact ht t (E.refl t)
  | error e => exact ht

lemma ensures_result_bind {f : Except Fault β → Round α}
    (h : r.Ensures E (fun b t => (f (.ok b)).Ensures E post fail t)
      (fun e t => (f (.error e)).Ensures E post fail t) s) :
    (result r >>= f).Ensures E post fail s := by
  have hrun : (result r >>= f).run = r.run.bind fun b => (f b).run :=
    Program.bind_assoc _ _ _
  rw [Ensures, hrun]
  refine Program.ensures_bind (Program.Ensures.mono h fun b t ht => ?_)
  cases b with
  | ok b => exact ht t (E.refl t)
  | error e => exact ht t (E.refl t)

lemma ensures_tryCatch {r : Round α} {f : Fault → Round α}
    (h : r.Ensures E post (fun e t => (f e).Ensures E post fail t) s) :
    (tryCatch r f).Ensures E post fail s := by
  refine Program.ensures_bind (Program.Ensures.mono h fun a t ht => ?_)
  cases a with
  | ok a => exact ht
  | error e => exact ht t (E.refl t)

/-- A part that is repeated for each item of a list. An account `g` is kept of what was done so
far. -/
lemma ensures_forM {I : τ → σ → Prop} {g : τ → γ → τ} {f : γ → Round Unit} {l : List γ}
    (hf : ∀ x ∈ l, ∀ a t, I a t → (f x).Ensures E (fun _ u => I (g a x) u) fail t)
    (hI : ∀ a t u, I a t → E.others t u → I a u) (a : τ) (h : I a s) :
    (l.forM f).Ensures E (fun _ t => I (l.foldl g a) t) fail s := by
  induction l generalizing a s with
  | nil => exact ensures_pure fun t ht => hI a s t h ht
  | cons x l ih =>
      refine ensures_bind ((hf x List.mem_cons_self a s h).mono (fun _ t ht => ?_) fun _ _ he => he)
      exact ih (fun y hy => hf y (List.mem_cons_of_mem x hy)) _ ht

end Round

end Federation
