import Mathlib.Tactic
import Federation.Pace.Estimate

/-!
The arithmetic of estimated waits.

* `Duration.ext_toNanos`, `Duration.toNanos_ofSeconds`, `Duration.secs_mono`: spans as numbers of
  nanoseconds.
* `Churn.level`, `Frequency.level`: the classes in their order. `Churn.toNat_multiplier`: the table
  of multipliers in closed form.
* `Adaptation.toNat_limit` and so on: what the words stand for. No sum or product of them leaves the
  64 bits, and where the growth does so, it is past the limit anyway.
* `Adaptation.share`: the seconds that are waited for after changes, by the two classes.
* `Adaptation.exactSeconds?`: the same computation in numbers without a bound, which fails where one
  of them does not fit into a word.
* `Adaptation.estimate_exact_and_ordered`: it never fails and comes to what the words come to, and
  estimates are ordered as waits and numbers of changes are.
-/

namespace Federation

/-! ### Spans of time -/

namespace Duration

/-- A span is determined by its nanoseconds. -/
lemma ext_toNanos {d d' : Duration} (h : d.toNanos = d'.toNanos) : d = d' := by
  obtain ⟨secs, nanos, hnanos⟩ := d
  obtain ⟨secs', nanos', hnanos'⟩ := d'
  simp only [toNanos] at h
  have hsecs : secs.toNat = secs'.toNat := by omega
  obtain rfl := UInt64.toNat_inj.mp hsecs
  obtain rfl : nanos = nanos' := by omega
  rfl

lemma toNanos_ofSeconds (s : UInt64) : (ofSeconds s).toNanos = s.toNat * 1000000000 := by
  rw [toNanos]
  exact Nat.add_zero _

/-- A longer span has no fewer full seconds. -/
lemma secs_mono {d d' : Duration} (h : d.toNanos ≤ d'.toNanos) : d.secs.toNat ≤ d'.secs.toNat := by
  have hd := d.nanos_lt
  have hd' := d'.nanos_lt
  simp only [toNanos] at h
  omega

end Duration

/-! ### Classes -/

/-- The place of a class, by the number of changes. -/
def Churn.level : Churn → ℕ
  | veryLow => 0
  | low => 1
  | high => 2
  | veryHigh => 3

/-- The place of a class, by the wait. -/
def Frequency.level : Frequency → ℕ
  | veryFrequent => 0
  | frequent => 1
  | lessFrequent => 2

/-- More changes are of no lower class. -/
lemma Churn.level_ofCount_mono {n m : ℕ} (h : n ≤ m) : (ofCount n).level ≤ (ofCount m).level := by
  simp only [ofCount]
  split_ifs <;> simp only [level] <;> omega

/-- The class of a wait of so many seconds against two thresholds. -/
def Frequency.ofNumbers (secs p₁ p₂ : ℕ) : Frequency :=
  if secs < p₁ then veryFrequent else if secs < p₂ then frequent else lessFrequent

lemma Frequency.ofSeconds_eq (secs p₁ p₂ : UInt64) :
    ofSeconds secs p₁ p₂ = ofNumbers secs.toNat p₁.toNat p₂.toNat := by
  simp only [ofSeconds, ofNumbers, UInt64.lt_iff_toNat_lt]

lemma Frequency.level_le (f : Frequency) : f.level ≤ 2 := by
  cases f <;> simp [level]

/-- A longer wait is of no lower class. -/
lemma Frequency.level_ofNumbers_mono {s s' p₁ p₂ : ℕ} (h : s ≤ s') :
    (ofNumbers s p₁ p₂).level ≤ (ofNumbers s' p₁ p₂).level := by
  simp only [ofNumbers]
  split_ifs <;> simp only [level] <;> omega

/-- The table has no gaps: multipliers go up with the wait, and down with the changes in whole
rows. -/
lemma Churn.toNat_multiplier (c : Churn) (f : Frequency) :
    (c.multiplier f).toNat = 3 * (3 - c.level) + f.level + 1 := by
  cases c <;> cases f <;> rfl

/-! ### Words -/

/-- A number, if a word of 64 bits can hold it. -/
def fitting? (n : ℕ) : Option ℕ := if n < UInt64.size then some n else none

lemma fitting?_of_lt {n : ℕ} (h : n < UInt64.size) : fitting? n = some n := if_pos h

lemma toNat_add_of_lt {a b : UInt64} (h : a.toNat + b.toNat < UInt64.size) :
    (a + b).toNat = a.toNat + b.toNat := by
  rw [UInt64.toNat_add]
  exact Nat.mod_eq_of_lt h

lemma toNat_mul_of_lt {a b : UInt64} (h : a.toNat * b.toNat < UInt64.size) :
    (a * b).toNat = a.toNat * b.toNat := by
  rw [UInt64.toNat_mul]
  exact Nat.mod_eq_of_lt h

/-- A sum that stopped at the largest word is as good as the true one below any bound that is a
word. -/
lemma min_toNat_addSaturating (l a b : UInt64) :
    min l.toNat (addSaturating a b).toNat = min l.toNat (a.toNat + b.toNat) := by
  rw [addSaturating]
  split
  next h => rw [toNat_add_of_lt h]
  next h =>
    have hl : l.toNat < UInt64.size := l.toNat_lt
    have hlast : (UInt64.ofNat (UInt64.size - 1)).toNat = UInt64.size - 1 := rfl
    rw [hlast]
    omega

namespace Adaptation

variable (a : Adaptation)

lemma toNat_limit : a.limit.toNat = a.upperLimitMs.toNat / 1000 := UInt64.toNat_div _ _

lemma toNat_increment : a.increment.toNat = a.movingBoundaryMs.toNat / 1000 := UInt64.toNat_div _ _

/-- The seconds of the baseline are far from the largest word. -/
lemma baseline_lt : a.baselineMs.toNat / 1000 ≤ UInt64.size / 1000 :=
  Nat.div_le_div_right a.baselineMs.toNat_lt.le

lemma toNat_lowerThreshold : a.lowerThreshold.toNat = a.baselineMs.toNat / 1000 / 2 := by
  rw [lowerThreshold, UInt64.toNat_div, UInt64.toNat_div]
  rfl

lemma toNat_upperThreshold :
    a.upperThreshold.toNat = a.baselineMs.toNat / 1000 + a.baselineMs.toNat / 1000 / 2 := by
  have hb := a.baseline_lt
  have hbaseline : (a.baselineMs / 1000).toNat = a.baselineMs.toNat / 1000 := UInt64.toNat_div _ _
  rw [upperThreshold, toNat_add_of_lt, hbaseline, toNat_lowerThreshold]
  rw [hbaseline, toNat_lowerThreshold]
  simp only [UInt64.size] at hb ⊢
  omega

lemma thresholds_lt : a.lowerThreshold.toNat + a.upperThreshold.toNat < UInt64.size := by
  have hb := a.baseline_lt
  rw [toNat_lowerThreshold, toNat_upperThreshold]
  simp only [UInt64.size] at hb ⊢
  omega

lemma toNat_unit : a.unit.toNat = (a.lowerThreshold.toNat + a.upperThreshold.toNat) / 12 := by
  rw [unit, UInt64.toNat_div, toNat_add_of_lt a.thresholds_lt]
  rfl

/-- No multiple of the unit in the table is larger than the sum of the thresholds. -/
lemma multiple_lt (c : Churn) (f : Frequency) :
    (c.multiplier f).toNat * a.unit.toNat < UInt64.size := by
  have hle : (c.multiplier f).toNat ≤ 12 := by
    have hf := f.level_le
    rw [c.toNat_multiplier]
    omega
  calc (c.multiplier f).toNat * a.unit.toNat
      ≤ 12 * a.unit.toNat := Nat.mul_le_mul_right _ hle
    _ ≤ a.lowerThreshold.toNat + a.upperThreshold.toNat := by
        rw [toNat_unit]
        exact Nat.mul_div_le _ 12
    _ < UInt64.size := a.thresholds_lt

/-! ### Estimates -/

/-- The class of a wait of so many seconds. -/
def frequency (secs : ℕ) : Frequency :=
  .ofNumbers secs a.lowerThreshold.toNat a.upperThreshold.toNat

/-- The seconds that are waited for after changes, by their class and that of the wait before. -/
def share (c : Churn) (f : Frequency) : ℕ :=
  min a.limit.toNat ((3 * (3 - c.level) + f.level + 1) * a.unit.toNat)

variable {a}

/-- Without changes the wait grows by the increment, up to the limit. -/
lemma toNat_estimateSeconds_zero (previous : UInt64) :
    (a.estimateSeconds 0 previous).toNat =
      min a.limit.toNat (previous.toNat + a.increment.toNat) := by
  rw [estimateSeconds, if_pos rfl, UInt64.toNat_min, min_toNat_addSaturating]

lemma toNat_estimateSeconds {changes : ℕ} (h : changes ≠ 0) (previous : UInt64) :
    (a.estimateSeconds changes previous).toNat =
      a.share (.ofCount changes) (a.frequency previous.toNat) := by
  rw [estimateSeconds, if_neg h, UInt64.toNat_min, Frequency.ofSeconds_eq,
    toNat_mul_of_lt (a.multiple_lt _ _), Churn.toNat_multiplier]
  rfl

lemma toNat_estimateSeconds_le (changes : ℕ) (previous : UInt64) :
    (a.estimateSeconds changes previous).toNat ≤ a.limit.toNat := by
  by_cases h : changes = 0
  · subst h
    rw [toNat_estimateSeconds_zero]
    exact min_le_left _ _
  · rw [toNat_estimateSeconds h]
    exact min_le_left _ _

lemma frequency_mono {s s' : ℕ} (h : s ≤ s') : (a.frequency s).level ≤ (a.frequency s').level :=
  Frequency.level_ofNumbers_mono h

lemma share_le {c c' : Churn} {f f' : Frequency}
    (h : 3 * (3 - c.level) + f.level ≤ 3 * (3 - c'.level) + f'.level) :
    a.share c f ≤ a.share c' f' :=
  min_le_min_left _ (Nat.mul_le_mul_right _ (Nat.add_le_add_right h 1))

/-- After a longer wait no less is waited for. -/
lemma estimateSeconds_mono (changes : ℕ) {s s' : UInt64} (h : s.toNat ≤ s'.toNat) :
    (a.estimateSeconds changes s).toNat ≤ (a.estimateSeconds changes s').toNat := by
  by_cases hc : changes = 0
  · subst hc
    rw [toNat_estimateSeconds_zero, toNat_estimateSeconds_zero]
    exact min_le_min_left _ (Nat.add_le_add_right h _)
  · rw [toNat_estimateSeconds hc, toNat_estimateSeconds hc]
    have hf : (a.frequency s.toNat).level ≤ (a.frequency s'.toNat).level := frequency_mono h
    exact share_le (by omega)

/-- After more changes no more is waited for. -/
lemma estimateSeconds_anti {c₁ c₂ : ℕ} (hc : 1 ≤ c₁) (h : c₁ ≤ c₂) (s : UInt64) :
    (a.estimateSeconds c₂ s).toNat ≤ (a.estimateSeconds c₁ s).toNat := by
  rw [toNat_estimateSeconds (by omega), toNat_estimateSeconds (by omega)]
  have hlevel := Churn.level_ofCount_mono h
  exact share_le (by omega)

/-- A higher class of changes counts for more than any difference between the waits before. -/
lemma estimateSeconds_of_level_lt {c₁ c₂ : ℕ} (hc : 1 ≤ c₁) (h : c₁ ≤ c₂)
    (hlevel : (Churn.ofCount c₁).level < (Churn.ofCount c₂).level) (s₁ s₂ : UInt64) :
    (a.estimateSeconds c₂ s₂).toNat ≤ (a.estimateSeconds c₁ s₁).toNat := by
  rw [toNat_estimateSeconds (by omega), toNat_estimateSeconds (by omega)]
  have hf := (a.frequency s₂.toNat).level_le
  have htop : (Churn.ofCount c₂).level ≤ 3 := by
    cases Churn.ofCount c₂ <;> simp [Churn.level]
  exact share_le (by omega)

lemma toNanos_estimate (changes : ℕ) (d : Duration) :
    (a.estimate changes d).toNanos = (a.estimateSeconds changes d.secs).toNat * 1000000000 :=
  Duration.toNanos_ofSeconds _

/-! ### In numbers without a bound -/

/-- The seconds to wait after a round with `changes` changes that was waited for `previous` seconds,
computed in numbers without a bound. Each sum and each product has to fit into a word, only that of
the wait and the increment need not. -/
def exactSeconds? (a : Adaptation) (changes previous : ℕ) : Option ℕ :=
  let baseline := a.baselineMs.toNat / 1000
  let increment := a.movingBoundaryMs.toNat / 1000
  let limit := a.upperLimitMs.toNat / 1000
  let lower := baseline / 2
  (fitting? (baseline + lower)).bind fun upper =>
    if changes = 0 then some (min limit (previous + increment))
    else
      let multiplier := (Churn.ofCount changes).multiplier (.ofNumbers previous lower upper)
      (fitting? (lower + upper)).bind fun thresholds =>
        (fitting? (multiplier.toNat * (thresholds / 12))).map fun product => min limit product

/-- Every number that is needed fits into a word, and words come to the same as numbers. -/
lemma exactSeconds?_eq (changes : ℕ) (previous : UInt64) :
    a.exactSeconds? changes previous.toNat = some (a.estimateSeconds changes previous).toNat := by
  have hupper : a.upperThreshold.toNat < UInt64.size := a.upperThreshold.toNat_lt
  have hsum := a.thresholds_lt
  rw [exactSeconds?]
  simp only [← toNat_lowerThreshold, ← toNat_limit, ← toNat_increment]
  have hupper_eq : a.baselineMs.toNat / 1000 + a.lowerThreshold.toNat = a.upperThreshold.toNat := by
    rw [toNat_lowerThreshold, toNat_upperThreshold]
  rw [hupper_eq, fitting?_of_lt hupper, Option.bind_some]
  split
  next h =>
    subst h
    rw [toNat_estimateSeconds_zero]
  next h =>
    rw [fitting?_of_lt hsum, Option.bind_some, ← toNat_unit, fitting?_of_lt (a.multiple_lt _ _),
      Option.map_some, toNat_estimateSeconds h, Churn.toNat_multiplier]
    rfl

/-- For all settings, valid or not, the computation leaves the 64 bits at most where the wait grows,
and there it makes no difference. It comes to full seconds within the limit. After a longer wait the
estimate is no shorter, after more changes it is no longer, and a higher class of changes makes it
no longer whatever was waited for before. -/
theorem estimate_exact_and_ordered (a : Adaptation) :
    (∀ changes (d : Duration), (a.estimate changes d).nanos = 0 ∧
      a.exactSeconds? changes d.secs.toNat = some (a.estimate changes d).secs.toNat ∧
      (a.estimate changes d).secs.toNat ≤ a.upperLimitMs.toNat / 1000) ∧
    (∀ changes (d d' : Duration), d.toNanos ≤ d'.toNanos →
      (a.estimate changes d).toNanos ≤ (a.estimate changes d').toNanos) ∧
    ∀ c₁ c₂, 1 ≤ c₁ → c₁ ≤ c₂ → ∀ d₁ d₂ : Duration,
      (a.estimate c₂ d₁).toNanos ≤ (a.estimate c₁ d₁).toNanos ∧
      ((Churn.ofCount c₁).level < (Churn.ofCount c₂).level →
        (a.estimate c₂ d₂).toNanos ≤ (a.estimate c₁ d₁).toNanos) := by
  refine ⟨fun changes d => ⟨rfl, exactSeconds?_eq changes d.secs, ?_⟩, fun changes d d' h => ?_,
    fun c₁ c₂ hc h d₁ d₂ => ⟨?_, fun hlevel => ?_⟩⟩
  · rw [← toNat_limit]
    exact toNat_estimateSeconds_le changes d.secs
  · rw [toNanos_estimate, toNanos_estimate]
    exact Nat.mul_le_mul_right _ (estimateSeconds_mono changes (Duration.secs_mono h))
  · rw [toNanos_estimate, toNanos_estimate]
    exact Nat.mul_le_mul_right _ (estimateSeconds_anti hc h d₁.secs)
  · rw [toNanos_estimate, toNanos_estimate]
    exact Nat.mul_le_mul_right _ (estimateSeconds_of_level_lt hc h hlevel d₁.secs d₂.secs)

/-- At the largest settings there are, where growing from the longest wait leaves the 64 bits. -/
theorem estimate_exact_and_ordered_largest :
    let a : Adaptation := ⟨18446744073709551615, 18446744073709551615, 18446744073709551615⟩
    let short : Duration := .ofSeconds 1
    let long : Duration := ⟨18446744073709551615, 999999999, by decide⟩
    UInt64.size ≤ long.secs.toNat + a.increment.toNat ∧
    (a.estimate 0 short).toNanos ≤ (a.estimate 0 long).toNanos ∧
    (a.estimate 6 short).toNanos ≤ (a.estimate 1 short).toNanos ∧
    (a.estimate 6 long).toNanos ≤ (a.estimate 1 short).toNanos :=
  have h := estimate_exact_and_ordered ⟨18446744073709551615, 18446744073709551615,
    18446744073709551615⟩
  have hcounts := h.2.2 1 6 (by decide) (by decide) (.ofSeconds 1)
    ⟨18446744073709551615, 999999999, by decide⟩
  ⟨by decide +kernel, h.2.1 0 _ _ (by decide +kernel), hcounts.1, hcounts.2 (by decide)⟩

end Adaptation

end Federation
