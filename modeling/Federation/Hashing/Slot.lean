/-!
Hash functions into a range of slots.

* `HashFunction`: gives each text a slot below any positive bound.
* `HashFunction.ofCode`: the function that reduces a code of the text modulo the bound. The bound
  `0` has no slots; the answer for it is `0`.
-/

namespace Federation

/-- A function from texts to slots below a bound. -/
structure HashFunction where
  slot : String → Nat → Nat
  slot_lt : ∀ s n, 0 < n → slot s n < n

namespace HashFunction

/-- The slot is a code of the text modulo the number of slots. -/
def ofCode (code : String → Nat) : HashFunction where
  slot s n := if n = 0 then 0 else code s % n
  slot_lt s n hn := by
    rw [if_neg (by omega)]
    exact Nat.mod_lt _ hn

end HashFunction

end Federation
