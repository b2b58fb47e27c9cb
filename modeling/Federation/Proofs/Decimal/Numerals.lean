import Mathlib.Tactic

/-!
Numbers and their decimal digits.

* `Numeral.toList_toString`: a number is written with its digits.
* `Numeral.Padded`: a zero stands in front of other digits.
* `Numeral.not_padded_toDigits`: the digits of a number are not padded.
* `Numeral.toDigits_ofDigitChars`: digits that are not padded are the digits of the number that they
  denote.
-/

namespace Federation.Numeral

variable {l : List Char} {n : ℕ}

lemma toList_toString (n : ℕ) : (toString n).toList = Nat.toDigits 10 n := by
  rw [Nat.toString_eq_ofList_toDigits, String.toList_ofList]

lemma isDigit_of_mem_toDigits {d : Char} (h : d ∈ Nat.toDigits 10 n) : d.isDigit = true :=
  Nat.isDigit_of_mem_toDigits (by decide) (by decide) h

/-- A zero stands in front of other digits. -/
def Padded (l : List Char) : Prop := ∃ rest, rest ≠ [] ∧ l = '0' :: rest

instance : DecidablePred Padded
  | [] => isFalse (by rintro ⟨_, -, h⟩; cases h)
  | c :: rest => decidable_of_iff (rest ≠ [] ∧ c = '0') (by simp [Padded, and_comm])

/-- Only the digits of zero begin with a zero. -/
lemma eq_zero_of_toDigits_eq_cons (h : Nat.toDigits 10 n = '0' :: l) : n = 0 := by
  induction n using Nat.strong_induction_on generalizing l with
  | _ n ih =>
      by_cases hn : n < 10
      · rw [Nat.toDigits_of_lt_base hn] at h
        exact Nat.digitChar_eq_zero.mp (List.cons.inj h).1
      · -- the digits of a larger number begin with those of its tenth part
        rw [Nat.toDigits_of_base_le (by decide) (Nat.le_of_not_lt hn)] at h
        obtain ⟨c, rest, hrest⟩ := List.exists_cons_of_ne_nil (Nat.toDigits_ne_nil (n := n / 10))
        rw [hrest, List.cons_append, List.cons.injEq] at h
        have htenth : n / 10 = 0 := ih _ (by omega) (hrest.trans (by rw [h.1]))
        omega

lemma not_padded_toDigits (n : ℕ) : ¬Padded (Nat.toDigits 10 n) := by
  rintro ⟨rest, hrest, h⟩
  obtain rfl := eq_zero_of_toDigits_eq_cons h
  rw [Nat.toDigits_zero, List.cons.injEq] at h
  exact hrest h.2.symm

lemma digitChar_toNat_sub {c : Char} (h : c.isDigit = true) :
    Nat.digitChar (c.toNat - '0'.toNat) = c ∧ c.toNat - '0'.toNat < 10 := by
  have hbounds : 48 ≤ c.toNat ∧ c.toNat ≤ 57 := Char.isDigit_iff_toNat.mp h
  have hlt : c.toNat - 48 < 10 := by omega
  refine ⟨Char.toNat_inj.mp ?_, hlt⟩
  change (Nat.digitChar (c.toNat - 48)).toNat = c.toNat
  rw [Nat.toNat_digitChar_of_lt_ten hlt]
  omega

/-- Digits behind those of a number that is not zero make up a larger number with them. -/
lemma toDigits_append (hn : 0 < n) (h : ∀ d ∈ l, d.isDigit = true) :
    Nat.toDigits 10 n ++ l = Nat.toDigits 10 (Nat.ofDigitChars 10 l n) := by
  induction l generalizing n with
  | nil => rw [Nat.ofDigitChars_nil, List.append_nil]
  | cons d l ih =>
      obtain ⟨hchar, hlt⟩ := digitChar_toNat_sub (h d List.mem_cons_self)
      have happend := Nat.toDigits_append_toDigits (by decide : 1 < 10) hn hlt
      rw [Nat.toDigits_of_lt_base hlt, hchar] at happend
      rw [Nat.ofDigitChars_cons, ← ih (by omega) fun x hx => h x (List.mem_cons_of_mem d hx),
        ← happend, List.append_assoc, List.singleton_append]

/-- Digits that are not padded are those of the number that they denote. -/
lemma toDigits_ofDigitChars (hne : l ≠ []) (h : ∀ d ∈ l, d.isDigit = true) (hl : ¬Padded l) :
    Nat.toDigits 10 (Nat.ofDigitChars 10 l 0) = l := by
  obtain ⟨d, rest, rfl⟩ := List.exists_cons_of_ne_nil hne
  obtain ⟨hchar, hlt⟩ := digitChar_toNat_sub (h d List.mem_cons_self)
  rw [Nat.ofDigitChars_cons, Nat.mul_zero, Nat.zero_add]
  by_cases hd : d.toNat - '0'.toNat = 0
  · -- a zero is the only digit
    rw [hd] at hchar ⊢
    have hrest : rest = [] := by_contra fun hrest => hl ⟨rest, hrest, by rw [← hchar]; rfl⟩
    rw [hrest, Nat.ofDigitChars_nil, Nat.toDigits_of_lt_base (by decide), hchar]
  · rw [← toDigits_append (Nat.pos_of_ne_zero hd) fun x hx => h x (List.mem_cons_of_mem d hx),
      Nat.toDigits_of_lt_base hlt, hchar, List.singleton_append]

end Federation.Numeral
