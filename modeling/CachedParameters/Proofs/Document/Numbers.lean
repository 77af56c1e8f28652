import CachedParameters.Document.Number
import CachedParameters.Document
import CachedParameters.Proofs.Text.Utf8
import CachedParameters.Text.Numeral
import Mathlib.Data.List.Basic

/-!
# Whole numbers are read back

A whole number is written with the digits of its magnitude, the first of which is zero only for zero
itself, so the reader takes all of them and no more. The magnitudes in question fit a machine word,
so no digit is left out of the significand.

## Main results

- `absorbWhole_digits`: digits are taken into a significand as long as their number fits a word.
- `readNumber_digits`: what was written for a magnitude is read as a numeral of its digits.
- `wholeValue?_positive`, `wholeValue?_negative`: such a numeral stands for the number.
-/

namespace CachedParameters.Document

open Text (bytes)

/-- What does not continue a whole number. -/
def StopsNumber (rest : List UInt8) : Prop :=
  ∀ byte ∈ rest.head?, isDigit byte = false ∧ byte ≠ 0x2E ∧ byte ≠ 0x65 ∧ byte ≠ 0x45

/-- The digits of a magnitude, as bytes. -/
def digitBytes (n : ℕ) : List UInt8 := bytes (Nat.toDigits 10 n)

/-! ### Digits -/

/-- A digit is one byte, which the reader knows as a digit of the same value. -/
theorem digit_byte {c : Char} (h : c.isDigit = true) :
    String.utf8EncodeChar c = [UInt8.ofNat c.toNat] ∧ isDigit (UInt8.ofNat c.toNat) = true ∧
      digitOf (UInt8.ofNat c.toNat) = Numeral.digitValue c := by
  have hlow : c.toNat < 0x80 := Nat.lt_of_le_of_lt (Char.isDigit_iff_toNat.mp h).2 (by decide)
  refine ⟨Text.utf8EncodeChar_of_lt hlow, ?_⟩
  revert h
  apply Text.forall_of_ascii ?_ hlow
  decide

theorem isDigit_of_mem_digitBytes {n : ℕ} : ∀ byte ∈ digitBytes n, isDigit byte = true := by
  intro byte hbyte
  obtain ⟨c, hc, hmem⟩ := List.mem_flatMap.mp hbyte
  have hdigit := digit_byte (Nat.isDigit_of_mem_toDigits (by decide) (by decide) hc)
  rw [hdigit.1, List.mem_singleton] at hmem
  rw [hmem]
  exact hdigit.2.1

/-- There is a first digit, which is not zero unless the magnitude is. -/
theorem exists_digitBytes_eq_cons (n : ℕ) :
    ∃ first rest, digitBytes n = first :: rest ∧ (0 < n → first ≠ 0x30) := by
  induction n using Nat.strongRecOn with
  | ind n ih =>
    rcases Nat.lt_or_ge n 10 with hsmall | hlarge
    · have hone : ∀ n < 10, digitBytes n = [UInt8.ofNat (n + 0x30)] ∧
          (0 < n → UInt8.ofNat (n + 0x30) ≠ 0x30) := by decide
      exact ⟨_, [], hone n hsmall⟩
    · obtain ⟨first, rest, hfront, hne⟩ := ih (n / 10) (by omega)
      refine ⟨first, rest ++ bytes [(n % 10).digitChar], ?_, fun _ => hne (by omega)⟩
      rw [digitBytes, Nat.toDigits_of_base_le (by decide) hlarge, Text.bytes_append, ← digitBytes,
        hfront, List.cons_append]

/-! ### The significand -/

/-- Digits are taken into a significand as long as their number fits a word. -/
theorem absorbWhole_digits {digits : List Char} (hdigits : ∀ c ∈ digits, c.isDigit = true)
    {significand : ℕ} (hlt : Nat.ofDigitChars 10 digits significand < 0x10000000000000000) :
    absorbWhole significand (bytes digits) = (Nat.ofDigitChars 10 digits significand, 0) := by
  induction digits generalizing significand with
  | nil => rfl
  | cons c rest ih =>
      obtain ⟨hbyte, -, hvalue⟩ := digit_byte (hdigits c List.mem_cons_self)
      rw [Nat.ofDigitChars_cons] at hlt ⊢
      have hstart : 10 * significand + Numeral.digitValue c < 0x10000000000000000 :=
        Nat.lt_of_le_of_lt (Numeral.le_ofDigitChars rest _) hlt
      rw [Text.bytes_cons, hbyte, List.singleton_append, absorbWhole, hvalue, if_pos hstart]
      exact ih (fun d hd => hdigits d (List.mem_cons_of_mem c hd)) hlt

/-- The digits of a word are taken into the significand without a loss. -/
theorem absorbWhole_digitBytes {n : ℕ} (h : n < 0x10000000000000000) :
    absorbWhole 0 (digitBytes n) = (n, 0) := by
  rw [digitBytes, absorbWhole_digits, Nat.ofDigitChars_ten_toDigits]
  · exact fun c hc => Nat.isDigit_of_mem_toDigits (by decide) (by decide) hc
  · rwa [Nat.ofDigitChars_ten_toDigits]

theorem wholeValue?_positive {n : ℕ} (h : n < 0x10000000000000000) :
    Numeric.wholeValue? ⟨false, digitBytes n, []⟩ = some (.integer n) := by
  simp only [Numeric.wholeValue?, absorbWhole_digitBytes h]
  rfl

/-- The digits behind a minus sign stand for a number below zero. -/
theorem wholeValue?_negative {n : ℕ} (hpos : 0 < n) (h : n ≤ 0x8000000000000000) :
    Numeric.wholeValue? ⟨true, digitBytes n, []⟩ = some (.integer (-n)) := by
  have hrange : ¬ (n = 0 ∨ 0x8000000000000000 < n) := by omega
  simp only [Numeric.wholeValue?, absorbWhole_digitBytes (Nat.lt_of_le_of_lt h (by decide)),
    if_true, Bool.not_true, Bool.false_eq_true, if_false, if_neg hrange]

/-! ### Reading -/

/-- The digits of a magnitude end where the number does. -/
theorem takeWhile_digitBytes (n : ℕ) {rest : List UInt8} (h : StopsNumber rest) :
    (digitBytes n ++ rest).takeWhile isDigit = digitBytes n ∧
      (digitBytes n ++ rest).dropWhile isDigit = rest := by
  rw [List.takeWhile_append_of_pos isDigit_of_mem_digitBytes,
    List.dropWhile_append_of_pos isDigit_of_mem_digitBytes]
  cases rest with
  | nil => exact ⟨List.append_nil _, rfl⟩
  | cons byte rest =>
      have hbyte : ¬ isDigit byte = true := by
        rw [(h byte rfl).1]
        exact Bool.false_ne_true
      rw [List.takeWhile_cons_of_neg hbyte, List.dropWhile_cons_of_neg hbyte, List.append_nil]
      exact ⟨rfl, rfl⟩

/-- A numeral without point and exponent is read as the number that it stands for. -/
theorem readFraction_of_stops {n : Numeric} {value : Document}
    (hvalue : n.wholeValue? = some value) {rest : List UInt8} (h : StopsNumber rest)
    (place : Position) : readFraction n ⟨rest, place⟩ = .ok (value, ⟨rest, place⟩) := by
  have hhead : ∀ byte ∈ [0x2E, 0x65, 0x45], (rest.head? == some byte) = false := by
    intro byte hbyte
    rw [beq_eq_false_iff_ne]
    intro hhead
    obtain ⟨-, hpoint, hsmall, hlarge⟩ := h byte hhead
    simp only [List.mem_cons, List.not_mem_nil, or_false] at hbyte
    rcases hbyte with rfl | rfl | rfl
    · exact hpoint rfl
    · exact hsmall rfl
    · exact hlarge rfl
  simp only [readFraction, readMagnitude, hhead 0x2E (by decide), hhead 0x65 (by decide),
    hhead 0x45 (by decide), Bool.false_eq_true, if_false, Bool.or_self, hvalue]

/-- What was written for a magnitude is read as the number that its digits stand for. -/
theorem readNumber_digits {negative : Bool} {n : ℕ} {value : Document}
    (hvalue : Numeric.wholeValue? ⟨negative, digitBytes n, []⟩ = some value) {rest : List UInt8}
    (h : StopsNumber rest) (place : Position) :
    ∃ later, readNumber negative ⟨digitBytes n ++ rest, place⟩ = .ok (value, ⟨rest, later⟩) := by
  rcases Nat.eq_zero_or_pos n with rfl | hpos
  · have hnext : rest.head?.any isDigit = false := by
      cases rest with
      | nil => rfl
      | cons byte rest => exact (h byte rfl).1
    have hread : readNumber negative ⟨digitBytes 0 ++ rest, place⟩ =
        readFraction ⟨negative, digitBytes 0, []⟩ ⟨rest, place.after 0x30⟩ := by
      change readNumber negative ⟨0x30 :: rest, place⟩ = _
      simp only [readNumber, hnext, if_true, Bool.false_eq_true, if_false]
      rfl
    exact ⟨_, hread.trans (readFraction_of_stops hvalue h _)⟩
  · obtain ⟨first, front, hfront, hne⟩ := exists_digitBytes_eq_cons n
    obtain ⟨htake, hdrop⟩ := takeWhile_digitBytes n h
    have hdigit : isDigit first = true :=
      isDigit_of_mem_digitBytes first (hfront ▸ List.mem_cons_self)
    have hread : readNumber negative ⟨digitBytes n ++ rest, place⟩ =
        readFraction ⟨negative, digitBytes n, []⟩
          ⟨rest, place.afterAll (digitBytes n)⟩ := by
      rw [hfront, List.cons_append] at htake hdrop ⊢
      simp only [readNumber, if_neg (hne hpos), hdigit, if_true, Cursor.skipWhile, htake, hdrop]
    exact ⟨_, hread.trans (readFraction_of_stops hvalue h _)⟩

end CachedParameters.Document
