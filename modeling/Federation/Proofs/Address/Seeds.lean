import Federation.Seed
import Federation.Proofs.Address.Grammar
import Federation.Proofs.Decimal.Numerals

/-!
Seeds and the text of addresses.

* `Address.ofSeed_eq_ok_iff`, `Address.ofSeed_eq_error_iff`: a seed is an address exactly if its
  text denotes one, and is refused otherwise.
* `Address.denotes_render_iff`: the text of an address denotes it unless the host is empty.
* `Address.render_eq_iff`: a text is that of the address that it denotes exactly if no zeros are put
  in front of its port.
* `Address.ofSeed_undoes_render`: reading and writing seeds.
-/

namespace Federation.Address

variable {a : Address} {s : String}

/-! ### Reading -/

lemma ofSeed_eq_ok_iff : ofSeed s = .ok a ↔ Denotes s a := by
  rw [← parse?_eq_some_iff, ofSeed]
  cases parse? s <;> simp

/-- There is one way only in which a seed can be refused. -/
lemma ofSeed_eq_error_iff {e : Fault} :
    ofSeed s = .error e ↔ ¬IsText s ∧ e = .invalidSeed s := by
  rw [← isSome_parse?_iff, ofSeed]
  cases parse? s <;> simp [eq_comm]

/-! ### Writing -/

/-- The digits with which the port of an address is written. -/
def portText (a : Address) : String := toString a.port.toNat

lemma toList_portText (a : Address) : a.portText.toList = Nat.toDigits 10 a.port.toNat :=
  Numeral.toList_toString _

lemma decimal_eq_ofDigitChars (l : List Char) : decimal l = Nat.ofDigitChars 10 l 0 := by
  rw [← digitsValue_eq, digitsValue, Nat.ofDigitChars_eq_foldl]

lemma denotes_render_iff : Denotes a.render a ↔ a.host ≠ "" := by
  constructor
  · rintro ⟨-, -, hhost, -⟩
    exact hhost
  · intro hhost
    refine ⟨a.portText, rfl, hhost, ?_, ?_, ?_⟩
    · intro h
      exact Nat.toDigits_ne_nil (a.toList_portText.symm.trans (congrArg String.toList h))
    · intro d hd
      rw [toList_portText] at hd
      exact Numeral.isDigit_of_mem_toDigits hd
    · rw [toList_portText, decimal_eq_ofDigitChars, Nat.ofDigitChars_ten_toDigits]

/-- Digits that denote the port are those with which it is written, unless they are padded. -/
lemma portText_eq_iff {port : String} (hne : port ≠ "") (h : ∀ d ∈ port.toList, d.isDigit = true)
    (hvalue : decimal port.toList = a.port.toNat) :
    a.portText = port ↔ ¬Numeral.Padded port.toList := by
  rw [decimal_eq_ofDigitChars] at hvalue
  rw [← String.toList_inj, toList_portText, ← hvalue]
  constructor
  · intro he
    rw [← he]
    exact Numeral.not_padded_toDigits _
  · exact Numeral.toDigits_ofDigitChars (by simpa using hne) h

/-- The text that an address is read from ends in digits behind its last colon, and is the text with
which the address is written unless these digits are padded. -/
lemma render_eq_iff (h : Denotes s a) : ∃ port : String, s = a.host ++ ":" ++ port ∧
    ':' ∉ port.toList ∧ (a.render = s ↔ ¬Numeral.Padded port.toList) := by
  obtain ⟨port, rfl, -, hne, hdigits, hvalue⟩ := h
  refine ⟨port, rfl, fun hcolon => absurd (hdigits _ hcolon) (by decide), ?_⟩
  rw [← portText_eq_iff hne hdigits hvalue, render, String.append_right_inj, portText]

/-! ### Both -/

/-- Seeds are exactly the texts that consist of a host, a colon and the decimal digits of a port.
Each is the address of this host and port, where the host reaches to the last colon, and any other
text is refused with the text itself. What is written for an address is read as this address unless
its host is empty. What is read from a seed and written again is read as the same address, and is
the seed itself unless zeros are put in front of the port. -/
theorem ofSeed_undoes_render :
    (∀ s, (∃ a, ofSeed s = .ok a) ↔ IsText s) ∧
    (∀ s a, ofSeed s = .ok a ↔ Denotes s a) ∧
    (∀ s e, ofSeed s = .error e ↔ ¬IsText s ∧ e = .invalidSeed s) ∧
    (∀ a, ofSeed a.render = .ok a ↔ a.host ≠ "") ∧
    ∀ s a, ofSeed s = .ok a → ofSeed a.render = .ok a ∧
      ∃ port : String, s = a.host ++ ":" ++ port ∧ ':' ∉ port.toList ∧
        (a.render = s ↔ ¬Numeral.Padded port.toList) := by
  refine ⟨fun s => ?_, fun s a => ofSeed_eq_ok_iff, fun s e => ofSeed_eq_error_iff,
    fun a => ofSeed_eq_ok_iff.trans denotes_render_iff, fun s a h => ?_⟩
  · rw [← isSome_parse?_iff, Option.isSome_iff_exists]
    exact exists_congr fun a => ofSeed_eq_ok_iff.trans parse?_eq_some_iff.symm
  · rw [ofSeed_eq_ok_iff] at h
    obtain ⟨-, -, hhost, -⟩ := id h
    exact ⟨ofSeed_eq_ok_iff.mpr (denotes_render_iff.mpr hhost), render_eq_iff h⟩

/-- A host may hold colons, and a port of any length is read if its value is small enough. The
digits of other scripts are no digits here, and the largest port is not exceeded. -/
theorem ofSeed_undoes_render_padded :
    let a : Address := ⟨"::1", 6000⟩
    ofSeed "::1:0000006000" = .ok a ∧ ofSeed a.render = .ok a ∧ a.render = "::1:6000" ∧
    ofSeed "host:65536" = .error (.invalidSeed "host:65536") ∧
    ofSeed "host:٣" = .error (.invalidSeed "host:٣") := by
  intro a
  obtain ⟨-, hread, hrefused, -, hagain⟩ := ofSeed_undoes_render
  have ha : ofSeed "::1:0000006000" = .ok a := by decide +kernel
  exact ⟨ha, (hagain _ a ha).1, by decide +kernel,
    (hrefused _ _).mpr ⟨by decide +kernel, rfl⟩, (hrefused _ _).mpr ⟨by decide +kernel, rfl⟩⟩

end Federation.Address
