import Federation.Pace.Duration

/-!
How long to wait for the next round, judged by the last one.

* `Adaptation`: the settings, in milliseconds. Their parts below a second do not count.
* `Churn`, `Frequency`: how much changed, and how short the last wait was against two thresholds,
  half of the baseline and one and a half of it.
* `Adaptation.estimate`: without changes the wait grows by the increment; otherwise it is a multiple
  of a twelfth of the sum of the thresholds, smaller for more churn and larger for a longer wait
  before. The wait never exceeds the limit.

The arithmetic is on words of 64 bits. Only the growth can leave them, and there it stops at the
largest word.
-/

namespace Federation

/-- The settings of the adaptive mode: the wait around which the thresholds lie, by how much it
grows without changes, and the longest one. -/
structure Adaptation where
  baselineMs : UInt64
  movingBoundaryMs : UInt64
  upperLimitMs : UInt64
deriving DecidableEq

/-- How many members left or joined: at most one, two or three, four or five, or more. -/
inductive Churn where
  | veryLow
  | low
  | high
  | veryHigh
deriving DecidableEq

/-- The class of a number of changes. -/
def Churn.ofCount (n : Nat) : Churn :=
  if n < 2 then veryLow else if n < 4 then low else if n < 6 then high else veryHigh

/-- How often rounds came: the wait was below both thresholds, between them, or above both. -/
inductive Frequency where
  | veryFrequent
  | frequent
  | lessFrequent
deriving DecidableEq

/-- The class of a wait of `secs` seconds against two thresholds. -/
def Frequency.ofSeconds (secs p₁ p₂ : UInt64) : Frequency :=
  if secs < p₁ then veryFrequent else if secs < p₂ then frequent else lessFrequent

/-- The multiple of the unit that is waited for. -/
def Churn.multiplier : Churn → Frequency → UInt64
  | veryHigh, .veryFrequent => 1
  | veryHigh, .frequent => 2
  | veryHigh, .lessFrequent => 3
  | high, .veryFrequent => 4
  | high, .frequent => 5
  | high, .lessFrequent => 6
  | low, .veryFrequent => 7
  | low, .frequent => 8
  | low, .lessFrequent => 9
  | veryLow, .veryFrequent => 10
  | veryLow, .frequent => 11
  | veryLow, .lessFrequent => 12

/-- The sum of two words, or the largest word if it does not fit. -/
def addSaturating (a b : UInt64) : UInt64 :=
  if a.toNat + b.toNat < UInt64.size then a + b else UInt64.ofNat (UInt64.size - 1)

namespace Adaptation

/-- The settings where none are given. -/
def standard : Adaptation := ⟨60000, 10000, 300000⟩

/-- The seconds of the increment. -/
def increment (a : Adaptation) : UInt64 := a.movingBoundaryMs / 1000

/-- The seconds of the longest wait. -/
def limit (a : Adaptation) : UInt64 := a.upperLimitMs / 1000

/-- The lower threshold, in seconds. -/
def lowerThreshold (a : Adaptation) : UInt64 := a.baselineMs / 1000 / 2

/-- The upper threshold, in seconds. -/
def upperThreshold (a : Adaptation) : UInt64 := a.baselineMs / 1000 + a.lowerThreshold

/-- The unit of which a wait after changes is a multiple, in seconds. -/
def unit (a : Adaptation) : UInt64 := (a.lowerThreshold + a.upperThreshold) / 12

/-- The seconds to wait after a round with `changes` changes that was waited for `previous`
seconds. -/
def estimateSeconds (a : Adaptation) (changes : Nat) (previous : UInt64) : UInt64 :=
  if changes = 0 then min a.limit (addSaturating previous a.increment)
  else
    let frequency := Frequency.ofSeconds previous a.lowerThreshold a.upperThreshold
    min a.limit ((Churn.ofCount changes).multiplier frequency * a.unit)

/-- How long to wait after a round with `changes` changes that was waited for `previous`. -/
def estimate (a : Adaptation) (changes : Nat) (previous : Duration) : Duration :=
  .ofSeconds (a.estimateSeconds changes previous.secs)

/-- How long to wait after each of several rounds, where `previous` was waited for before the first
one. -/
def estimates (a : Adaptation) (previous : Duration) : List Nat → List Duration
  | [] => []
  | changes :: rounds =>
    let next := a.estimate changes previous
    next :: a.estimates next rounds

end Adaptation

end Federation
