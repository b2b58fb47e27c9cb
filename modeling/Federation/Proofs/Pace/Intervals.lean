import Federation.Pace.Policy
import Federation.Proofs.Pace.Estimate

/-!
The intervals between the rounds of a series.

* `Duration.max_ofSeconds`: the longer one of two spans of full seconds.
* `Policy.waitAfter`: what is waited for after several rounds, one after the other.
* `Policy.minInterval_le_waitAfter`: it is never less than a second. `Policy.fixed_waitAfter`: a
  fixed interval stays what it was.
* `Adaptation.waitAfter_of_failed`: an adaptive interval stays what it was while all rounds fail.
* `Adaptation.Capped`: a span is in full seconds and within the limit. The limit of valid settings
  leaves room for the second that is waited for at least (`Adaptation.one_le_limit`), so that an
  adaptive interval is capped from the first round on that succeeds (`Adaptation.capped_waitAfter`).
-/

namespace Federation

/-! ### The longer one of two spans -/

namespace Duration

lemma le_max_right (d d' : Duration) : d'.toNanos ≤ (d.max d').toNanos := by
  rw [max]
  split
  next => exact le_rfl
  next h => exact (not_le.mp h).le

lemma max_eq_left {d d' : Duration} (h : d'.toNanos ≤ d.toNanos) : d.max d' = d := by
  rw [max]
  split
  next h' => exact ext_toNanos (le_antisymm h h')
  next => rfl

lemma max_ofSeconds (s t : UInt64) : (ofSeconds s).max (ofSeconds t) = ofSeconds (Max.max s t) := by
  have hle : (ofSeconds s).toNanos ≤ (ofSeconds t).toNanos ↔ s ≤ t := by
    rw [toNanos_ofSeconds, toNanos_ofSeconds, UInt64.le_iff_toNat_le]
    exact Nat.mul_le_mul_right_iff (by decide)
  have hmax : Max.max s t = if s ≤ t then t else s := rfl
  rw [max, hmax, apply_ite ofSeconds]
  exact if_congr hle rfl rfl

end Duration

/-! ### Rounds one after the other -/

namespace Policy

variable (p : Policy) (first : Duration) (outcomes : List Outcome)

/-- What is waited for after rounds with these outcomes, the oldest one first, where `first` is the
interval with which the series begins. -/
def waitAfter : Duration :=
  outcomes.foldl (fun previous outcome => p.nextWait outcome previous) first

lemma waitAfter_concat (outcome : Outcome) :
    p.waitAfter first (outcomes ++ [outcome]) = p.nextWait outcome (p.waitAfter first outcomes) :=
  List.foldl_concat _ _ _ _

lemma minInterval_le_firstWait (config : Config) :
    minInterval.toNanos ≤ (p.firstWait config).toNanos := Duration.le_max_right _ _

lemma minInterval_le_nextWait (outcome : Outcome) (previous : Duration) :
    minInterval.toNanos ≤ (p.nextWait outcome previous).toNanos := Duration.le_max_right _ _

variable {first}

/-- No interval is shorter than a second. -/
lemma minInterval_le_waitAfter (h : minInterval.toNanos ≤ first.toNanos) :
    minInterval.toNanos ≤ (p.waitAfter first outcomes).toNanos := by
  induction outcomes using List.reverseRecOn with
  | nil => exact h
  | append_singleton outcomes outcome _ =>
      rw [waitAfter_concat]
      exact p.minInterval_le_nextWait _ _

/-- Fixed intervals are all the same. -/
lemma fixed_waitAfter (h : minInterval.toNanos ≤ first.toNanos) :
    fixed.waitAfter first outcomes = first := by
  induction outcomes using List.reverseRecOn with
  | nil => rfl
  | append_singleton outcomes outcome ih =>
      rw [waitAfter_concat, ih]
      exact Duration.max_eq_left h

lemma minInterval_secs_le {d : Duration} (h : minInterval.toNanos ≤ d.toNanos) :
    1 ≤ d.secs.toNat := Duration.secs_mono h

end Policy

/-! ### Adaptive intervals -/

namespace Adaptation

variable {a : Adaptation}

lemma one_le_limit (h : a.check = .ok ()) : 1 ≤ a.limit.toNat := by
  have hlimit : ¬a.upperLimitMs < 1000 := by
    intro hlt
    rw [check, violations, if_pos hlt] at h
    cases h
  rw [toNat_limit]
  rw [UInt64.lt_iff_toNat_lt] at hlimit
  change ¬a.upperLimitMs.toNat < 1000 at hlimit
  omega

/-- A failed round keeps the interval. -/
lemma nextWait_none {d : Duration} (h : Policy.minInterval.toNanos ≤ d.toNanos) :
    (Policy.adaptive a).nextWait none d = d := Duration.max_eq_left h

lemma nextWait_some (changes : ℕ) (d : Duration) : (Policy.adaptive a).nextWait (some changes) d =
    .ofSeconds (max (a.estimateSeconds changes d.secs) 1) := Duration.max_ofSeconds _ _

lemma secs_nextWait_some (changes : ℕ) (d : Duration) :
    ((Policy.adaptive a).nextWait (some changes) d).secs.toNat =
      max (a.estimateSeconds changes d.secs).toNat 1 := by
  rw [nextWait_some]
  exact UInt64.toNat_max _ _

/-- While all rounds fail the interval stays what it was. -/
lemma waitAfter_of_failed {first : Duration} {outcomes : List Outcome}
    (h : Policy.minInterval.toNanos ≤ first.toNanos) (hfailed : ∀ o ∈ outcomes, o = none) :
    (Policy.adaptive a).waitAfter first outcomes = first := by
  induction outcomes using List.reverseRecOn with
  | nil => rfl
  | append_singleton outcomes outcome ih =>
      rw [List.forall_mem_append] at hfailed
      obtain rfl : outcome = none := hfailed.2 _ List.mem_cons_self
      rw [Policy.waitAfter_concat, ih hfailed.1]
      exact nextWait_none h

/-- A span is in full seconds and within the limit. -/
structure Capped (a : Adaptation) (d : Duration) : Prop where
  nanos : d.nanos = 0
  secs : d.secs.toNat ≤ a.upperLimitMs.toNat / 1000

lemma capped_nextWait_some (ha : a.check = .ok ()) (changes : ℕ) (d : Duration) :
    a.Capped ((Policy.adaptive a).nextWait (some changes) d) := by
  refine ⟨?_, ?_⟩
  · rw [nextWait_some]
    rfl
  · rw [secs_nextWait_some, ← toNat_limit]
    exact max_le (toNat_estimateSeconds_le changes d.secs) (one_le_limit ha)

/-- Once a round succeeded the interval is in full seconds and within the limit for good. -/
lemma capped_waitAfter {first : Duration} {outcomes : List Outcome} (ha : a.check = .ok ())
    (h : Policy.minInterval.toNanos ≤ first.toNanos) (hsome : ∃ o ∈ outcomes, o ≠ none) :
    a.Capped ((Policy.adaptive a).waitAfter first outcomes) := by
  induction outcomes using List.reverseRecOn with
  | nil =>
      obtain ⟨o, ho, -⟩ := hsome
      exact (List.not_mem_nil ho).elim
  | append_singleton outcomes outcome ih =>
      rw [Policy.waitAfter_concat]
      cases outcome with
      | some changes => exact capped_nextWait_some ha changes _
      | none =>
          -- the round that succeeded is an earlier one
          have hearlier : ∃ o ∈ outcomes, o ≠ none := by
            obtain ⟨o, ho, hne⟩ := hsome
            rcases List.mem_append.mp ho with ho | ho
            · exact ⟨o, ho, hne⟩
            · exact (hne (List.mem_singleton.mp ho)).elim
          rw [nextWait_none (Policy.minInterval_le_waitAfter _ outcomes h)]
          exact ih hearlier

end Adaptation

end Federation
