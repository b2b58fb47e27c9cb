import Federation.Discovery.Round
import Federation.Proofs.Program.Ensures

/-!
Where a round pauses.

* `Program.WaitsFor`: after every wait a program asks a question of a kind. Programs that follow one
  another keep to it (`Program.WaitsFor.bind`), and so does what is left of a program that waits
  (`Program.WaitsFor.advance`).
* `Round.update_waits`: a round waits only for the answers of nodes that it has asked for their
  views.
-/

namespace Federation

namespace Program

variable {Query : Type} {Answer : Query → Type} {α β σ : Type} {P : Query → Prop}
  {p : Program Query Answer α}

/-- After every wait the program asks a question of a kind. -/
def WaitsFor (P : Query → Prop) : Program Query Answer α → Prop
  | done _ => True
  | ask _ next => ∀ a, (next a).WaitsFor P
  | wait _ next => (∃ q ∈ next.question?, P q) ∧ next.WaitsFor P

/-- A program goes on with its next question whatever follows it. -/
lemma question?_bind {f : α → Program Query Answer β} {q : Query} (h : q ∈ p.question?) :
    q ∈ (p.bind f).question? := by
  cases p with
  | done a => cases h
  | ask q' next => exact h
  | wait ms next => cases h

/-- Programs that follow one another. -/
lemma WaitsFor.bind {f : α → Program Query Answer β} (h : p.WaitsFor P)
    (hf : ∀ a, (f a).WaitsFor P) : (p.bind f).WaitsFor P := by
  induction p with
  | done a => exact hf a
  | ask q next ih => exact fun a => ih a (h a)
  | wait ms next ih =>
      obtain ⟨⟨q, hq, hP⟩, hnext⟩ := h
      exact ⟨⟨q, question?_bind hq, hP⟩, ih hnext⟩

/-- A program that waits is about to ask a question of that kind. -/
theorem WaitsFor.advance {answer : (q : Query) → σ → Answer q × σ} {s : σ} {ms : ℕ}
    {rest : Program Query Answer α} (h : p.WaitsFor P)
    (hwait : (p.advance answer s).1 = .waiting ms rest) :
    (∃ q ∈ rest.question?, P q) ∧ rest.WaitsFor P := by
  induction p generalizing s with
  | done a => cases hwait
  | ask q next ih => exact ih _ (h _) hwait
  | wait ms' next ih =>
      cases ms' with
      | zero => exact ih h.2 hwait
      | succ ms' =>
          obtain ⟨-, rfl⟩ := Pause.waiting.inj hwait
          exact h

end Program

namespace Round

variable {α β γ : Type} {c : String} {h : Handle} {r : Round β} {f : β → Round α}

/-- The part waits only for the answers of nodes that it has asked for their views. -/
def Waits (r : Round α) : Prop := r.run.WaitsFor fun q => ∃ h, q = .membership h

/-! ### Rules -/

lemma waits_pure (a : α) : (pure a : Round α).Waits := trivial

lemma waits_throw (e : Fault) : (throw e : Round α).Waits := trivial

lemma waits_query_bind {q : Query} {f : q.Answer → Round α} (h : ∀ a, (f a).Waits) :
    (query q >>= f).Waits := h

lemma waits_require (e : Except Fault α) : (require e).Waits := trivial

lemma waits_bind (hr : r.Waits) (hf : ∀ b, (f b).Waits) : (r >>= f).Waits :=
  Program.WaitsFor.bind hr fun
    | .ok b => hf b
    | .error _ => trivial

lemma waits_result_bind {f : Except Fault β → Round α} (hr : r.Waits) (hf : ∀ b, (f b).Waits) :
    (result r >>= f).Waits := by
  have hrun : (result r >>= f).run = r.run.bind fun b => (f b).run :=
    Program.bind_assoc _ _ _
  rw [Waits, hrun]
  exact Program.WaitsFor.bind hr hf

lemma waits_tryCatch {r : Round α} {f : Fault → Round α} (hr : r.Waits) (hf : ∀ e, (f e).Waits) :
    (tryCatch r f).Waits :=
  Program.WaitsFor.bind hr fun
    | .ok _ => trivial
    | .error e => hf e

lemma waits_forM {f : γ → Round Unit} {l : List γ} (hf : ∀ x, (f x).Waits) : (l.forM f).Waits := by
  induction l with
  | nil => exact waits_pure ()
  | cons x l ih => exact waits_bind (hf x) fun _ => ih

/-! ### Parts of a round -/

lemma requestView_waits : (requestView c h).Waits := by
  refine waits_query_bind fun ms => ⟨⟨.membership h, rfl, h, rfl⟩, ?_⟩
  refine waits_query_bind fun answered => waits_bind (waits_require answered) fun v => ?_
  rw [requireCluster]
  split
  next => exact waits_pure v
  next => exact waits_throw _

lemma askBootstrap_waits : (askBootstrap c h).Waits := by
  refine waits_query_bind fun reached => ?_
  cases reached with
  | error e => exact waits_throw _
  | ok a =>
      refine waits_result_bind requestView_waits fun answered => waits_query_bind fun _ => ?_
      exact waits_require _

lemma retire_waits : (retire h).Waits := by
  refine waits_query_bind fun _ => waits_query_bind fun _ => ?_
  exact waits_query_bind fun _ => waits_pure ()

lemma askInTurn_waits {l : List Handle} : (askInTurn c l).Waits := by
  induction l with
  | nil => exact waits_throw _
  | cons h rest ih =>
      refine waits_result_bind requestView_waits fun answered => ?_
      split
      next v => exact waits_pure v
      next => exact waits_bind retire_waits fun _ => ih
      next e _ => exact waits_throw e

lemma retireNamed_waits {name : String} : (retireNamed c name).Waits := by
  refine waits_query_bind fun e? => ?_
  split
  next h _ => exact retire_waits
  next => exact waits_pure ()

lemma retireUnlisted_waits {v : View} : (retireUnlisted c v).Waits := by
  refine waits_query_bind fun e? => ?_
  cases e? with
  | some e => exact waits_forM fun _ => retire_waits
  | none => exact waits_pure ()

lemma enlist_waits {m : Member} : (enlist c m).Waits := by
  refine waits_bind retireNamed_waits fun _ => waits_query_bind fun h => ?_
  refine waits_query_bind fun routed => waits_bind (waits_require routed) fun _ => ?_
  exact waits_query_bind fun _ => waits_query_bind fun reached => waits_require reached

lemma reconcile_waits {baseline : Option View} {v : View} : (reconcile c baseline v).Waits := by
  refine waits_bind (waits_forM fun _ => retireNamed_waits) fun _ => ?_
  have hjoin := waits_bind (waits_forM (l := (v.changesSince baseline).joining) fun m =>
    enlist_waits (c := c) (m := m)) fun _ => waits_pure (v.changesSince baseline)
  cases baseline with
  | none => exact waits_bind retireUnlisted_waits fun _ => hjoin
  | some p => exact hjoin

/-- A round waits only for the answers of nodes that it has asked for their views. -/
theorem update_waits (c : String) : (update c).Waits := by
  refine waits_query_bind fun closed => ?_
  split
  next => exact waits_throw _
  next =>
    refine waits_tryCatch (waits_query_bind fun e? => ?_) fun e => waits_query_bind fun _ => ?_
    · cases e? with
      | none => exact waits_throw _
      | some e =>
          refine waits_query_bind fun routed => waits_bind ?_ fun v => ?_
          · rw [askForView]
            split
            next => exact askBootstrap_waits
            next => exact askInTurn_waits
          · exact waits_bind reconcile_waits fun changes => waits_query_bind fun _ => waits_pure _
    · exact waits_throw e

end Round

end Federation
