import Federation.Proofs.Pace.Intervals

/-!
Adaptive intervals while every round brings the same number of changes.

* `Adaptation.steady`: what is waited for after so many rounds.
* `Adaptation.secs_steady_zero`: without changes it grows by the increment up to the limit.
* `Adaptation.nextWait_mono`: a longer interval is followed by no shorter one, so that intervals go
  up for good or down for good (`Adaptation.steady_mono_or_anti`).
* `Adaptation.nextWait_congr`: with changes only the class of an interval counts for the next one.
  As there are three classes, the third interval is the last new one (`Adaptation.steady_three`).
* `Adaptation.steady_settles`: both together, and the closed form without changes.
-/

namespace Federation.Adaptation

variable {a : Adaptation} {first d d' : Duration} {changes : ℕ}

/-- What is waited for after so many rounds, each with the same number of changes. -/
def steady (a : Adaptation) (changes : ℕ) (first : Duration) (rounds : ℕ) : Duration :=
  (Policy.adaptive a).waitAfter first (.replicate rounds (some changes))

lemma steady_succ (k : ℕ) : a.steady changes first (k + 1) =
    (Policy.adaptive a).nextWait (some changes) (a.steady changes first k) := by
  rw [steady, List.replicate_succ', Policy.waitAfter_concat]
  rfl

lemma minInterval_le_steady (h : Policy.minInterval.toNanos ≤ first.toNanos) (k : ℕ) :
    Policy.minInterval.toNanos ≤ (a.steady changes first k).toNanos :=
  Policy.minInterval_le_waitAfter _ _ h

/-! ### Without changes -/

lemma secs_nextWait_zero (ha : a.check = .ok ()) (h : Policy.minInterval.toNanos ≤ d.toNanos) :
    ((Policy.adaptive a).nextWait (some 0) d).secs.toNat =
      min a.limit.toNat (d.secs.toNat + a.increment.toNat) := by
  have hlimit := one_le_limit ha
  have hsecs := Policy.minInterval_secs_le h
  rw [secs_nextWait_some, toNat_estimateSeconds_zero]
  omega

/-- Without changes the interval grows by the increment, up to the limit. -/
lemma secs_steady_zero (ha : a.check = .ok ()) (h : Policy.minInterval.toNanos ≤ first.toNanos)
    (k : ℕ) : (a.steady 0 first (k + 1)).secs.toNat =
      min a.limit.toNat (first.secs.toNat + (k + 1) * a.increment.toNat) := by
  induction k with
  | zero =>
      rw [steady_succ, secs_nextWait_zero ha (minInterval_le_steady h 0), zero_add, one_mul]
      rfl
  | succ k ih =>
      rw [steady_succ, secs_nextWait_zero ha (minInterval_le_steady h _), ih,
        Nat.succ_mul (k + 1)]
      -- the product is the same on both sides
      generalize (k + 1) * a.increment.toNat = grown
      omega

/-! ### Up or down -/

/-- A longer interval is followed by no shorter one. -/
lemma nextWait_mono (h : d.toNanos ≤ d'.toNanos) :
    ((Policy.adaptive a).nextWait (some changes) d).toNanos ≤
      ((Policy.adaptive a).nextWait (some changes) d').toNanos := by
  have hsecs := estimateSeconds_mono (a := a) changes (Duration.secs_mono h)
  rw [nextWait_some, nextWait_some, Duration.toNanos_ofSeconds, Duration.toNanos_ofSeconds,
    UInt64.toNat_max, UInt64.toNat_max]
  exact Nat.mul_le_mul_right _ (max_le_max_right _ hsecs)

variable (a changes first) in
/-- Intervals go the way that the first round has shown. -/
lemma steady_mono_or_anti : Monotone (fun k => (a.steady changes first k).toNanos) ∨
    Antitone fun k => (a.steady changes first k).toNanos := by
  refine (le_total (a.steady changes first 0).toNanos (a.steady changes first 1).toNanos).imp ?_ ?_
  · intro h
    refine monotone_nat_of_le_succ fun k => ?_
    induction k with
    | zero => exact h
    | succ k ih =>
        rw [steady_succ k, steady_succ (k + 1)]
        exact nextWait_mono ih
  · intro h
    refine antitone_nat_of_succ_le fun k => ?_
    induction k with
    | zero => exact h
    | succ k ih =>
        rw [steady_succ k, steady_succ (k + 1)]
        exact nextWait_mono ih

/-! ### With changes -/

/-- The place of the class of an interval. -/
def levelOf (a : Adaptation) (d : Duration) : ℕ := (a.frequency d.secs.toNat).level

lemma levelOf_le : a.levelOf d ≤ 2 := Frequency.level_le _

lemma levelOf_mono (h : d.toNanos ≤ d'.toNanos) : a.levelOf d ≤ a.levelOf d' :=
  frequency_mono (Duration.secs_mono h)

/-- After changes only the class of an interval counts for the next one. -/
lemma nextWait_congr (hchanges : changes ≠ 0) (h : a.levelOf d = a.levelOf d') :
    (Policy.adaptive a).nextWait (some changes) d =
      (Policy.adaptive a).nextWait (some changes) d' := by
  have hshare : (a.estimateSeconds changes d.secs).toNat =
      (a.estimateSeconds changes d'.secs).toNat := by
    rw [toNat_estimateSeconds hchanges, toNat_estimateSeconds hchanges, share, share]
    rw [levelOf, levelOf] at h
    rw [h]
  rw [nextWait_some, nextWait_some, UInt64.toNat_inj.mp hshare]

lemma steady_congr (hchanges : changes ≠ 0) {i j : ℕ}
    (h : a.levelOf (a.steady changes first i) = a.levelOf (a.steady changes first j)) :
    a.steady changes first (i + 1) = a.steady changes first (j + 1) := by
  rw [steady_succ i, steady_succ j]
  exact nextWait_congr hchanges h

/-- There are three classes, and intervals go through them in one direction only. -/
lemma levelOf_steady_two (hchanges : changes ≠ 0) :
    a.levelOf (a.steady changes first 2) = a.levelOf (a.steady changes first 3) := by
  -- a class that is kept once is kept for good
  have h₁ : a.levelOf (a.steady changes first 0) = a.levelOf (a.steady changes first 1) →
      a.levelOf (a.steady changes first 1) = a.levelOf (a.steady changes first 2) :=
    fun h => congrArg a.levelOf (steady_congr hchanges h)
  have h₂ : a.levelOf (a.steady changes first 1) = a.levelOf (a.steady changes first 2) →
      a.levelOf (a.steady changes first 2) = a.levelOf (a.steady changes first 3) :=
    fun h => congrArg a.levelOf (steady_congr hchanges h)
  have hle : ∀ k, a.levelOf (a.steady changes first k) ≤ 2 := fun k => levelOf_le
  have hle₀ := hle 0
  have hle₃ := hle 3
  rcases steady_mono_or_anti a first changes with hmono | hanti
  · have hup₁ := levelOf_mono (a := a) (hmono (show 0 ≤ 1 by decide))
    have hup₂ := levelOf_mono (a := a) (hmono (show 1 ≤ 2 by decide))
    have hup₃ := levelOf_mono (a := a) (hmono (show 2 ≤ 3 by decide))
    omega
  · have hdown₁ := levelOf_mono (a := a) (hanti (show 0 ≤ 1 by decide))
    have hdown₂ := levelOf_mono (a := a) (hanti (show 1 ≤ 2 by decide))
    have hdown₃ := levelOf_mono (a := a) (hanti (show 2 ≤ 3 by decide))
    omega

lemma steady_three (hchanges : changes ≠ 0) (k : ℕ) :
    a.steady changes first (3 + k) = a.steady changes first 3 := by
  induction k with
  | zero => rfl
  | succ k ih =>
      have hlevel : a.levelOf (a.steady changes first (3 + k)) =
          a.levelOf (a.steady changes first 2) := by
        rw [levelOf_steady_two hchanges, ih]
      exact steady_congr hchanges hlevel

/-- While every round brings the same number of changes, intervals go up for good or down for good.
Without changes they grow by the increment up to the limit, in numbers without a bound; with changes
nothing is new after the third one. -/
theorem steady_settles (a : Adaptation) (ha : a.check = .ok ()) (changes : ℕ) (first : Duration)
    (hfirst : Policy.minInterval.toNanos ≤ first.toNanos) :
    let x := a.steady changes first
    (x 0 = first ∧ ∀ k, x (k + 1) = (a.estimate changes (x k)).max Policy.minInterval) ∧
    (changes = 0 → ∀ k, 1 ≤ k → (x k).nanos = 0 ∧
      (x k).secs.toNat = min (a.upperLimitMs.toNat / 1000)
        (first.secs.toNat + k * (a.movingBoundaryMs.toNat / 1000))) ∧
    (Monotone (fun k => (x k).toNanos) ∨ Antitone fun k => (x k).toNanos) ∧
    (0 < changes → ∀ k, 3 ≤ k → x k = x 3) := by
  intro x
  refine ⟨⟨rfl, steady_succ⟩, ?_, steady_mono_or_anti a first changes, ?_⟩
  · rintro rfl k hk
    obtain ⟨k, rfl⟩ := Nat.exists_eq_add_of_le' hk
    rw [← toNat_limit, ← toNat_increment]
    refine ⟨?_, secs_steady_zero ha hfirst k⟩
    have hcapped := capped_nextWait_some ha 0 (a.steady 0 first k)
    rw [← steady_succ] at hcapped
    exact hcapped.nanos
  · intro hchanges k hk
    obtain ⟨k, rfl⟩ := Nat.exists_eq_add_of_le hk
    exact steady_three hchanges.ne' k

/-- By the standard settings an interval of twenty seconds and a half reaches the limit without
changes, and with six changes in every round it settles. -/
theorem steady_settles_standard :
    let first : Duration := .ofMillis 20500
    standard.check = .ok () ∧ Policy.minInterval.toNanos ≤ first.toNanos ∧
    (standard.steady 0 first 3).secs.toNat = 50 ∧ (standard.steady 0 first 40).secs.toNat = 300 ∧
    standard.steady 6 first 40 = standard.steady 6 first 3 :=
  have hfirst : Policy.minInterval.toNanos ≤ (Duration.ofMillis 20500).toNanos := by decide
  have hstable := (steady_settles standard rfl 0 _ hfirst).2.1 rfl
  have hchurn := (steady_settles standard rfl 6 _ hfirst).2.2.2 (by decide)
  ⟨rfl, hfirst, (hstable 3 (by decide)).2, (hstable 40 (by decide)).2, hchurn 40 (by decide)⟩

end Federation.Adaptation
