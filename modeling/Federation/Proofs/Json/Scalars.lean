import Mathlib.Tactic
import Federation.Json.Reader
import Federation.Json.Writer
import Federation.Proofs.Decimal.Numerals

/-!
Texts and numbers, read as they are written.

* `Json.readText_escape`: a character is read from the characters that stand for it, and
  `Json.readText_flatMap_escape`: so is a text up to its closing quote.
* `Json.EndsNumber`: what follows is no part of a number.
* `Json.readNumber_toString`: a whole number is read from its digits and sign.
-/

namespace Federation.Json

variable {l : List Char} {c : Char} {n : ℕ}

/-! ### Texts -/

lemma hexValue?_hexDigit (n : ℕ) : hexValue? (hexDigit n) = some (n % 16) := by
  have hdigits : ∀ k < 16, hexValue? (Nat.digitChar k) = some k := by decide
  exact hdigits _ (Nat.mod_lt n (by decide))

lemma hexValue4?_hexDigit (h : n < 256) :
    hexValue4? '0' '0' (hexDigit (n / 16)) (hexDigit n) = some n := by
  have hzero : hexValue? '0' = some 0 := rfl
  simp only [hexValue4?, hzero, hexValue?_hexDigit, Option.bind_eq_bind, Option.bind_some,
    Option.pure_def, Option.some.injEq]
  omega

/-- A control character is read from its number. -/
lemma readText_control (h : c.toNat < 0x20) (l : List Char) :
    readText ('\\' :: 'u' :: '0' :: '0' :: hexDigit (c.toNat / 16) :: hexDigit c.toNat :: l) =
      (readText l).map fun r => (c :: r.1, r.2) := by
  have hupper : isUpperHalf c.toNat = false := by simp [isUpperHalf]; omega
  have hlower : isLowerHalf c.toNat = false := by simp [isLowerHalf]; omega
  rw [readText, hexValue4?_hexDigit (by omega)]
  simp only [hupper, hlower, Bool.false_eq_true, if_false, Char.ofNat_toNat]

/-- A character that is not escaped is read from itself. -/
lemma readText_self (hquote : c ≠ '"') (hslash : c ≠ '\\') (h : ¬c.toNat < 0x20) (l : List Char) :
    readText (c :: l) = (readText l).map fun r => (c :: r.1, r.2) := by
  rw [readText.eq_4 c l hquote (fun _ _ _ _ _ he => absurd he hslash)
    fun _ _ he => absurd he hslash, if_neg h]

lemma readText_escape (c : Char) (l : List Char) :
    readText (escape c ++ l) = (readText l).map fun r => (c :: r.1, r.2) := by
  -- a letter after a backslash is read by evaluation
  fun_cases escape c with
  | case8 c h =>
      rw [if_pos h]
      exact readText_control h l
  | case9 c h hquote hslash =>
      rw [if_neg h]
      exact readText_self hquote hslash h l
  | _ => rfl

lemma readText_flatMap_escape (s rest : List Char) :
    readText (s.flatMap escape ++ '"' :: rest) = some (s, rest) := by
  induction s with
  | nil => rfl
  | cons c s ih => rw [List.flatMap_cons, List.append_assoc, readText_escape, ih, Option.map_some]

lemma renderText_append (s : String) (l : List Char) :
    renderText s ++ l = '"' :: (s.toList.flatMap escape ++ '"' :: l) := by
  rw [renderText, List.append_assoc, List.cons_append, List.singleton_append]

/-! ### Numbers -/

/-- No character that could belong to a number comes first. -/
def EndsNumber (rest : List Char) : Prop :=
  ∀ c ∈ rest.head?, c.isDigit = false ∧ c ≠ '.' ∧ c ≠ 'e' ∧ c ≠ 'E'

lemma endsNumber_nil : EndsNumber [] := by rintro _ ⟨⟩

lemma endsNumber_cons (h : c.isDigit = false ∧ c ≠ '.' ∧ c ≠ 'e' ∧ c ≠ 'E') (l : List Char) :
    EndsNumber (c :: l) := by
  rintro _ ⟨⟩
  exact h

lemma spanDigits_append {rest : List Char} (hl : ∀ d ∈ l, d.isDigit = true)
    (hrest : EndsNumber rest) : spanDigits (l ++ rest) = (l, rest) := by
  rw [spanDigits, List.span_eq_takeWhile_dropWhile, List.takeWhile_append_of_pos hl,
    List.dropWhile_append_of_pos hl]
  cases rest with
  | nil => simp
  | cons c rest => simp [(hrest c rfl).1]

lemma readFraction_of_ends {rest : List Char} (h : EndsNumber rest) :
    readFraction rest = some ([], rest) := by
  cases rest with
  | nil => rfl
  | cons c rest => exact readFraction.eq_2 _ fun _ he => (h c rfl).2.1 (List.cons.inj he).1

lemma readExponent_of_ends {rest : List Char} (h : EndsNumber rest) :
    readExponent rest = some (none, rest) := by
  cases rest with
  | nil => rfl
  | cons c rest =>
      obtain ⟨-, -, hlow, hhigh⟩ := h c rfl
      simp [readExponent, hlow, hhigh]

lemma digitsValue_toDigits (n : ℕ) : digitsValue (Nat.toDigits 10 n) = n := by
  rw [digitsValue, ← Nat.ofDigitChars_eq_foldl, Nat.ofDigitChars_ten_toDigits]

/-- A number is read from its digits, except that no zero has a minus sign. -/
lemma readUnsigned_toDigits {negative : Bool} {rest : List Char} (hn : negative = true → n ≠ 0)
    (hrest : EndsNumber rest) : readUnsigned negative (Nat.toDigits 10 n ++ rest) =
      some (int (if negative then -(n : ℤ) else n), rest) := by
  have hspan : spanDigits (Nat.toDigits 10 n ++ rest) = (Nat.toDigits 10 n, rest) :=
    spanDigits_append (fun d hd => Numeral.isDigit_of_mem_toDigits hd) hrest
  have hzero : (!(negative && n == 0)) = true := by
    cases negative <;> simp_all
  rw [readUnsigned, hspan]
  split
  next h => exact absurd (Prod.mk.inj h).1 Nat.toDigits_ne_nil
  next d ds _ h =>
    exact absurd ⟨d :: ds, List.cons_ne_nil d ds, (Prod.mk.inj h).1⟩ (Numeral.not_padded_toDigits n)
  next h =>
    obtain ⟨rfl, rfl⟩ := Prod.mk.inj h
    simp only [readFraction_of_ends hrest, readExponent_of_ends hrest, List.append_nil,
      digitsValue_toDigits, List.isEmpty_nil, Option.isNone_none, Bool.true_and, hzero, if_true]

lemma toList_toString_natCast (n : ℕ) : (toString (n : ℤ)).toList = Nat.toDigits 10 n :=
  Numeral.toList_toString n

lemma toList_toString_negSucc (n : ℕ) :
    (toString (Int.negSucc n)).toList = '-' :: Nat.toDigits 10 (n + 1) := by
  change ("-" ++ toString (n + 1)).toList = _
  rw [String.toList_append, Numeral.toList_toString]
  rfl

lemma exists_toDigits_eq_cons (n : ℕ) :
    ∃ d ds, Nat.toDigits 10 n = d :: ds ∧ d.isDigit = true := by
  obtain ⟨d, ds, h⟩ := List.exists_cons_of_ne_nil (Nat.toDigits_ne_nil (b := 10) (n := n))
  exact ⟨d, ds, h, Numeral.isDigit_of_mem_toDigits (h ▸ List.mem_cons_self)⟩

/-- A number starts with a minus sign or a digit. -/
lemma exists_toString_eq_cons (n : ℤ) :
    ∃ c l, (toString n).toList = c :: l ∧ (c = '-' ∨ c.isDigit = true) := by
  cases n with
  | ofNat n =>
      obtain ⟨d, ds, h, hd⟩ := exists_toDigits_eq_cons n
      exact ⟨d, ds, (toList_toString_natCast n).trans h, .inr hd⟩
  | negSucc n => exact ⟨'-', _, toList_toString_negSucc n, .inl rfl⟩

/-- A whole number is read from its sign and its digits. -/
lemma readNumber_toString (n : ℤ) {rest : List Char} (hrest : EndsNumber rest) :
    readNumber ((toString n).toList ++ rest) = some (int n, rest) := by
  cases n with
  | ofNat n =>
      have hsign : ∀ l, Nat.toDigits 10 n ++ rest ≠ '-' :: l := by
        obtain ⟨d, ds, h, hd⟩ := exists_toDigits_eq_cons n
        rintro l he
        rw [h, List.cons_append, List.cons.injEq] at he
        exact absurd (he.1 ▸ hd) (by decide)
      rw [Int.ofNat_eq_natCast, toList_toString_natCast, readNumber.eq_2 _ hsign]
      exact readUnsigned_toDigits Bool.false_ne_true.elim hrest
  | negSucc n =>
      rw [toList_toString_negSucc, List.cons_append, readNumber,
        readUnsigned_toDigits (fun _ => Nat.succ_ne_zero n) hrest]
      rfl

end Federation.Json
