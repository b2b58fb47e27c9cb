import Federation.Proofs.Discovery.Alone

/-!
What the parts of a round ask.

* `Query.Ordinary`: all questions but those for the view of a node.
* `Round.retire_ordinary`, `Round.reconcile_ordinary`: nobody is asked for a view while nodes leave,
  nor while a view is applied.
-/

namespace Federation

/-- A question that is not for the view of a node. -/
def Query.Ordinary : Query → Prop
  | membership _ => False
  | _ => True

namespace Round

variable {α β γ : Type} {c : String} {h : Handle} {r : Round β} {f : β → Round α}

/-- The part asks nobody for a view. -/
def Ordinary (r : Round α) : Prop := r.run.Asks Query.Ordinary

/-! ### Rules -/

lemma ordinary_pure (a : α) : (pure a : Round α).Ordinary := trivial

lemma ordinary_query_bind {q : Query} {f : q.Answer → Round α} (hq : q.Ordinary)
    (hf : ∀ a, (f a).Ordinary) : (query q >>= f).Ordinary := ⟨hq, hf⟩

lemma ordinary_require (e : Except Fault α) : (require e).Ordinary := trivial

lemma ordinary_bind (hr : r.Ordinary) (hf : ∀ b, (f b).Ordinary) : (r >>= f).Ordinary :=
  Program.Asks.bind hr fun
    | .ok b => hf b
    | .error _ => trivial

lemma ordinary_forM {f : γ → Round Unit} {l : List γ} (hf : ∀ x, (f x).Ordinary) :
    (l.forM f).Ordinary := by
  induction l with
  | nil => exact ordinary_pure ()
  | cons x l ih => exact ordinary_bind (hf x) fun _ => ih

/-! ### Parts of a round -/

lemma retire_ordinary : (retire h).Ordinary :=
  ordinary_query_bind trivial fun _ => ordinary_query_bind trivial fun _ =>
    ordinary_query_bind trivial fun _ => ordinary_pure ()

lemma retireNamed_ordinary {name : String} : (retireNamed c name).Ordinary := by
  refine ordinary_query_bind trivial fun e? => ?_
  split
  next h _ => exact retire_ordinary
  next => exact ordinary_pure ()

lemma retireUnlisted_ordinary {v : View} : (retireUnlisted c v).Ordinary := by
  refine ordinary_query_bind trivial fun e? => ?_
  cases e? with
  | some e => exact ordinary_forM fun _ => retire_ordinary
  | none => exact ordinary_pure ()

lemma enlist_ordinary {m : Member} : (enlist c m).Ordinary := by
  refine ordinary_bind retireNamed_ordinary fun _ => ordinary_query_bind trivial fun h => ?_
  refine ordinary_query_bind trivial fun routed => ?_
  refine ordinary_bind (ordinary_require routed) fun _ => ?_
  exact ordinary_query_bind trivial fun _ => ordinary_query_bind trivial fun reached =>
    ordinary_require reached

/-- Nobody is asked while a view is applied. -/
theorem reconcile_ordinary {baseline : Option View} {v : View} :
    (reconcile c baseline v).Ordinary := by
  refine ordinary_bind (ordinary_forM fun _ => retireNamed_ordinary) fun _ => ?_
  have hjoin := ordinary_bind (ordinary_forM (l := (v.changesSince baseline).joining) fun m =>
    enlist_ordinary (c := c) (m := m)) fun _ => ordinary_pure (v.changesSince baseline)
  cases baseline with
  | none => exact ordinary_bind retireUnlisted_ordinary fun _ => hjoin
  | some p => exact hjoin

end Round

end Federation
