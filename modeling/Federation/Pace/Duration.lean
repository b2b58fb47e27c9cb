/-!
Spans of time.

* `Duration`: whole seconds in 64 bits and nanoseconds below a second.
* `Duration.ofMillis`, `Duration.ofSeconds`: the span of so many milliseconds or seconds.
* `Duration.ofParts?`: seconds and any number of nanoseconds, with full seconds carried over.
* `Duration.wholeMillis` drops what is less than a millisecond, `Duration.ceilMillis` counts it as
  one.
-/

namespace Federation

/-- A span of time, in full seconds and the nanoseconds beyond them. -/
structure Duration where
  secs : UInt64
  nanos : Nat
  nanos_lt : nanos < 1000000000 := by omega
deriving DecidableEq

namespace Duration

/-- So many seconds. -/
def ofSeconds (secs : UInt64) : Duration := ⟨secs, 0, by decide⟩

/-- So many milliseconds. -/
def ofMillis (ms : UInt64) : Duration :=
  ⟨ms / 1000, ms.toNat % 1000 * 1000000, by omega⟩

/-- So many seconds and nanoseconds, if the seconds fit into 64 bits with the carry. -/
def ofParts? (secs : UInt64) (nanos : Nat) : Option Duration :=
  let total := secs.toNat + nanos / 1000000000
  if total < UInt64.size then
    some ⟨UInt64.ofNat total, nanos % 1000000000, Nat.mod_lt _ (by decide)⟩
  else none

/-- The number of nanoseconds. -/
def toNanos (d : Duration) : Nat := d.secs.toNat * 1000000000 + d.nanos

/-- The number of full milliseconds. -/
def wholeMillis (d : Duration) : Nat := d.toNanos / 1000000

/-- The number of milliseconds, a part of one counted as a full one. -/
def ceilMillis (d : Duration) : Nat := (d.toNanos + 999999) / 1000000

/-- The longer one of two spans. -/
def max (a b : Duration) : Duration := if a.toNanos ≤ b.toNanos then b else a

end Duration

end Federation
