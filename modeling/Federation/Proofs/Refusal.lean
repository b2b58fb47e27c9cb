import Mathlib.Tactic
import Federation.Fault

/-!
Changes that may be refused.

* `map_eq_ok_iff`, `map_eq_error_iff`, `bind_eq_ok_iff`: when a computed change is not refused, and
  when it is.
* `settle`: the answer to a change and the state after it. A refused change leaves the state as it
  was, which is what all histories of changes in this library are made of. `settle_related`: what
  relates two states through changes that are refused alike.
* `exists_split_concat_iff`: what some step of a history has brought about, and no later step has
  undone, after one more step.
-/

namespace Federation

lemma map_eq_ok_iff {α β : Type} {f : α → β} {r : Except Fault α} {b : β} :
    r.map f = .ok b ↔ ∃ a, r = .ok a ∧ f a = b := by
  cases r <;> simp [Except.map]

lemma map_eq_error_iff {α β : Type} {f : α → β} {r : Except Fault α} {e : Fault} :
    r.map f = .error e ↔ r = .error e := by
  cases r <;> simp [Except.map]

lemma bind_eq_ok_iff {α β : Type} {f : α → Except Fault β} {r : Except Fault α} {b : β} :
    (r >>= f) = .ok b ↔ ∃ a, r = .ok a ∧ f a = .ok b := by
  cases r <;> simp [bind, Except.bind]

variable {σ : Type}

/-- The answer to a change of the state `s`, and the state after it. -/
def settle (s : σ) : Except Fault σ → Except Fault Unit × σ
  | .ok s' => (.ok (), s')
  | .error e => (.error e, s)

@[simp] lemma settle_ok (s s' : σ) : settle s (.ok s') = (.ok (), s') := rfl

@[simp] lemma settle_error (s : σ) (e : Fault) : settle s (.error e) = (.error e, s) := rfl

/-- The answer alone decides whether the state has changed at all. -/
lemma settle_snd_of_error {s : σ} {r : Except Fault σ} {e : Fault} (h : (settle s r).1 = .error e) :
    (settle s r).2 = s := by
  cases r with
  | ok s' => simp at h
  | error e' => rfl

/-- What a change keeps wherever it is not refused is kept by its settlement. -/
lemma settle_induction {P : σ → Prop} {s : σ} {r : Except Fault σ} (hs : P s)
    (hr : ∀ s', r = .ok s' → P s') : P (settle s r).2 := by
  cases r with
  | ok s' => exact hr s' rfl
  | error e => exact hs

/-- Changes of two states that are refused alike are answered alike, and what relates the states
wherever the changes are not refused relates them after their settlement. -/
lemma settle_related {R : σ → σ → Prop} {s t : σ} {r q : Except Fault σ} (hst : R s t)
    (hrefused : ∀ e, r = .error e ↔ q = .error e) (hok : ∀ s' t', r = .ok s' → q = .ok t' → R s' t') :
    (settle s r).1 = (settle t q).1 ∧ R (settle s r).2 (settle t q).2 := by
  cases r with
  | error e =>
      rw [(hrefused e).mp rfl]
      exact ⟨rfl, hst⟩
  | ok s' =>
      cases q with
      | error e => cases (hrefused e).mpr rfl
      | ok t' => exact ⟨rfl, hok s' t' rfl rfl⟩

/-- Something that the step `a` brings about after the steps before it (`P`) is still there at the
end of a history if no later step undoes it (`D`). One more step either is `a` itself or leaves what
was there unless it undoes it. -/
lemma exists_split_concat_iff {α : Type} {P : List α → α → Prop} {D : α → Prop}
    {l : List α} {a x : α} :
    (∃ earlier later, l ++ [x] = earlier ++ a :: later ∧ P earlier a ∧
        ∀ y ∈ later, ¬D y) ↔
      (x = a ∧ P l x) ∨
        ((∃ earlier later, l = earlier ++ a :: later ∧ P earlier a ∧
          ∀ y ∈ later, ¬D y) ∧ ¬D x) := by
  constructor
  · rintro ⟨earlier, later, h, hmade, hlater⟩
    rcases List.eq_nil_or_concat later with rfl | ⟨later, y, rfl⟩
    · obtain ⟨rfl, rfl⟩ := List.append_singleton_inj.mp h
      exact Or.inl ⟨rfl, hmade⟩
    · rw [List.concat_eq_append, ← List.cons_append, ← List.append_assoc] at h
      obtain ⟨rfl, rfl⟩ := List.append_singleton_inj.mp h
      exact Or.inr ⟨⟨earlier, later, rfl, hmade, fun y hy => hlater y (by simp [hy])⟩,
        hlater x (by simp)⟩
  · rintro (⟨rfl, hmade⟩ | ⟨⟨earlier, later, rfl, hmade, hlater⟩, hx⟩)
    · exact ⟨l, [], rfl, hmade, by simp⟩
    · refine ⟨earlier, later ++ [x], by simp, hmade, fun y hy => ?_⟩
      rcases List.mem_append.mp hy with hy | hy
      · exact hlater y hy
      · rw [List.mem_singleton.mp hy]
        exact hx

end Federation
