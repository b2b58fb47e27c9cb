import Mathlib.Data.Nat.Digits.Defs
import Federation.Address

/-!
The grammar of addresses.

* `Address.decimal`: the number that a run of decimal digits denotes, by the weights of its places.
* `Address.Denotes`: a text is a host that is not empty, a colon and the decimal digits of a port.
  `Address.parse?_eq_some_iff`: exactly these texts are read, each as the address that it denotes.
* `Address.IsText`: the texts that denote an address. `Address.isSome_parse?_iff`: exactly these are
  read.
-/

namespace Federation

namespace Address

variable {a : Address} {s : String} {l before after : List Char}

/-- The number that a run of decimal digits denotes, where the last digit counts once and each other
one ten times as much as the one after it. -/
def decimal (l : List Char) : Nat := Nat.ofDigits 10 (l.reverse.map fun d => d.toNat - '0'.toNat)

/-- A text is the host of an address, a colon and decimal digits that denote its port. -/
def Denotes (s : String) (a : Address) : Prop :=
  ∃ port : String, s = a.host ++ ":" ++ port ∧ a.host ≠ "" ∧ port ≠ "" ∧
    (∀ d ∈ port.toList, d.isDigit = true) ∧ decimal port.toList = a.port.toNat

/-- A text is a host that is not empty, a colon and a run of decimal digits that is not empty either
and denotes a number below 65536. -/
def IsText (s : String) : Prop :=
  ∃ host port : String, s = host ++ ":" ++ port ∧ host ≠ "" ∧ port ≠ "" ∧
    (∀ d ∈ port.toList, d.isDigit = true) ∧ decimal port.toList < 65536

/-! ### Ports -/

lemma digitsValue_eq (l : List Char) : digitsValue l = decimal l := by
  rw [decimal, Nat.ofDigits_eq_foldr, List.foldr_map, List.foldr_reverse, digitsValue]
  exact congrArg (fun f => l.foldl f 0) (funext₂ fun n d => Nat.add_comm _ _)

/-- The port that digits denote, if there are any and it is not too large. -/
lemma readPort?_eq_some_iff {p : UInt16} : readPort? l = some p ↔
    l ≠ [] ∧ (∀ d ∈ l, d.isDigit = true) ∧ decimal l = p.toNat := by
  rw [readPort?, digitsValue_eq]
  by_cases hdigits : l ≠ [] ∧ ∀ d ∈ l, d.isDigit = true
  · rw [if_neg (by simpa using hdigits), ← and_assoc, and_iff_right hdigits]
    constructor
    · intro h
      obtain ⟨hlt, hp⟩ := Option.ite_none_right_eq_some.mp h
      rw [← Option.some.inj hp, UInt16.toNat_ofNat_of_lt' hlt]
    · intro h
      rw [h, if_pos p.toNat_lt, UInt16.ofNat_toNat]
  · rw [if_pos (by simpa [or_iff_not_imp_left] using hdigits), ← and_assoc]
    exact iff_of_false (by simp) fun h => hdigits h.1

/-! ### Hosts -/

lemma splitAtLastColon_eq_none_iff : splitAtLastColon l = none ↔ ':' ∉ l := by
  induction l with
  | nil => simp [splitAtLastColon]
  | cons c l ih =>
      rw [splitAtLastColon, List.mem_cons, not_or, ← ih, eq_comm (a := ':')]
      cases splitAtLastColon l <;> simp

/-- A text is split at its last colon. -/
lemma splitAtLastColon_eq_some_iff :
    splitAtLastColon l = some (before, after) ↔ l = before ++ ':' :: after ∧ ':' ∉ after := by
  induction l generalizing before with
  | nil => simp [splitAtLastColon]
  | cons c l ih =>
      rw [splitAtLastColon]
      cases before with
      | nil =>
          rw [List.nil_append, List.cons.injEq]
          cases hl : splitAtLastColon l with
          | none =>
              have hcolon := splitAtLastColon_eq_none_iff.mp hl
              by_cases hc : c = ':'
              · simp only [hc, if_true, Option.some.injEq, Prod.mk.injEq, true_and]
                exact ⟨fun h => ⟨h, h ▸ hcolon⟩, fun h => h.1⟩
              · simp [hc]
          | some x =>
              refine iff_of_false (by simp) ?_
              rintro ⟨⟨-, rfl⟩, hafter⟩
              cases hl.symm.trans (splitAtLastColon_eq_none_iff.mpr hafter)
      | cons b before =>
          rw [List.cons_append, List.cons.injEq, and_assoc, ← ih]
          cases splitAtLastColon l with
          | none => by_cases hc : c = ':' <;> simp [hc]
          | some x => simp [and_assoc, Prod.ext_iff]

/-! ### Addresses -/

/-- Exactly the texts of the grammar are read, and each as the address that it denotes. -/
theorem parse?_eq_some_iff : parse? s = some a ↔ Denotes s a := by
  rw [parse?]
  constructor
  · intro h
    split at h
    next => cases h
    next host port hsplit =>
      obtain ⟨htext, -⟩ := splitAtLastColon_eq_some_iff.mp hsplit
      obtain ⟨hhost, h⟩ := Option.ite_none_left_eq_some.mp h
      obtain ⟨p, hp, rfl⟩ := Option.map_eq_some_iff.mp h
      obtain ⟨hport, hdigits, hvalue⟩ := readPort?_eq_some_iff.mp hp
      refine ⟨String.ofList port, ?_, by simpa using hhost, by simpa using hport,
        by simpa using hdigits, by simpa using hvalue⟩
      rw [← String.toList_inj, htext]
      simp
  · rintro ⟨port, rfl, hhost, hport, hdigits, hvalue⟩
    have hcolon : ':' ∉ port.toList := fun h => absurd (hdigits _ h) (by decide)
    have hsplit : splitAtLastColon (a.host ++ ":" ++ port).toList =
        some (a.host.toList, port.toList) := splitAtLastColon_eq_some_iff.mpr ⟨by simp, hcolon⟩
    have hread : readPort? port.toList = some a.port :=
      readPort?_eq_some_iff.mpr ⟨by simpa using hport, hdigits, hvalue⟩
    rw [hsplit]
    simp [hread, hhost]

/-- Exactly the texts that denote an address are read. -/
theorem isSome_parse?_iff : (parse? s).isSome = true ↔ IsText s := by
  rw [Option.isSome_iff_exists]
  constructor
  · rintro ⟨a, h⟩
    obtain ⟨port, hs, hhost, hport, hdigits, hvalue⟩ := parse?_eq_some_iff.mp h
    exact ⟨a.host, port, hs, hhost, hport, hdigits, hvalue ▸ a.port.toNat_lt⟩
  · rintro ⟨host, port, hs, hhost, hport, hdigits, hlt⟩
    exact ⟨⟨host, .ofNat (decimal port.toList)⟩, parse?_eq_some_iff.mpr
      ⟨port, hs, hhost, hport, hdigits, (UInt16.toNat_ofNat_of_lt' hlt).symm⟩⟩

instance : DecidablePred IsText := fun _ => decidable_of_iff _ isSome_parse?_iff

end Address

end Federation
