/-!
# Whole numbers as text

`Numeral.read` accepts an optional plus sign followed by one or more ASCII digits whose value
lies below a bound. Digits are taken from left to right, so of two faults the earlier one is
reported.

## Main results

- `Numeral.eq_of_read_toString`: a number that was printed is read back or refused, never
  mistaken for another.
- `Numeral.read_toString`: a number below the bound is read back as it was printed.
-/

namespace CachedParameters.Numeral

/-- Why a text is not a whole number: there is nothing to read, a character is not a digit or a sign
stands alone, or the value reaches the bound. -/
inductive Fault where
  | empty | invalidDigit | tooLarge
  deriving DecidableEq, Repr

/-- The wording of a fault, as messages about settings and page tokens quote it. -/
def Fault.message : Fault → String
  | .empty => "cannot parse integer from empty string"
  | .invalidDigit => "invalid digit found in string"
  | .tooLarge => "number too large to fit in target type"

/-- The numbers of an unsigned machine word lie below this bound. It is written in hexadecimal
digits so that it means the same wherever numerals are overloaded. -/
def wordBound : Nat := 0x10000000000000000

def digitValue (c : Char) : Nat := c.toNat - '0'.toNat

/-- Appends digits to the number `value` as long as it stays below `bound`. The bound is checked
after each digit, as a machine word would overflow there, so a text that is too large is refused
even if something behind it is no digit. -/
def readDigits (bound value : Nat) : List Char → Except Fault Nat
  | [] => .ok value
  | c :: rest =>
    if c.isDigit then
      if 10 * value + digitValue c < bound then
        readDigits bound (10 * value + digitValue c) rest
      else .error .tooLarge
    else .error .invalidDigit

/-- Reads a whole number below `bound`: at least one decimal digit, with a plus sign in front or
none. Blanks are refused, so whoever allows them trims first. -/
def read (bound : Nat) (text : String) : Except Fault Nat :=
  match text.toList with
  | [] => .error .empty
  | ['+'] => .error .invalidDigit
  | '+' :: digits => readDigits bound 0 digits
  | digits => readDigits bound 0 digits

/-- Digits that are read have the value that their places give them. -/
theorem eq_ofDigitChars_of_readDigits {bound value result : Nat} {digits : List Char}
    (h : readDigits bound value digits = .ok result) :
    result = Nat.ofDigitChars 10 digits value := by
  induction digits generalizing value with
  | nil => simpa [readDigits] using h.symm
  | cons c rest ih =>
    rw [readDigits] at h
    split at h
    · split at h
      · rw [Nat.ofDigitChars_cons]
        exact ih h
      · simp at h
    · simp at h

/-- A number that was printed is read back or refused, never mistaken for another. -/
theorem eq_of_read_toString {bound n result : Nat}
    (h : read bound (toString n) = .ok result) : result = n := by
  have hdigit : ∀ c ∈ Nat.toDigits 10 n, c.isDigit = true := fun c hc =>
    Nat.isDigit_of_mem_toDigits (by decide) (by decide) hc
  rw [read, Nat.toString_eq_ofList_toDigits, String.toList_ofList] at h
  split at h
  · simp at h
  · simp at h
  · rename_i digits heq
    have := hdigit '+' (heq ▸ List.mem_cons_self)
    simp at this
  · rw [eq_ofDigitChars_of_readDigits h, Nat.ofDigitChars_ten_toDigits]

theorem le_ofDigitChars (digits : List Char) (value : Nat) :
    value ≤ Nat.ofDigitChars 10 digits value := by
  induction digits generalizing value with
  | nil => exact Nat.le_refl value
  | cons c rest ih =>
    rw [Nat.ofDigitChars_cons]
    exact Nat.le_trans (by omega) (ih _)

/-- Digits are read if the whole number lies below the bound: so does then every start of it. -/
theorem readDigits_of_lt {bound value : Nat} {digits : List Char}
    (hdigits : ∀ c ∈ digits, c.isDigit = true)
    (hlt : Nat.ofDigitChars 10 digits value < bound) :
    readDigits bound value digits = .ok (Nat.ofDigitChars 10 digits value) := by
  induction digits generalizing value with
  | nil => rfl
  | cons c rest ih =>
    rw [Nat.ofDigitChars_cons] at hlt ⊢
    have hstart : 10 * value + digitValue c < bound :=
      Nat.lt_of_le_of_lt (le_ofDigitChars rest _) hlt
    rw [readDigits, if_pos (hdigits c List.mem_cons_self), if_pos hstart]
    exact ih (fun d hd => hdigits d (List.mem_cons_of_mem c hd)) hlt

/-- A number below the bound is read back as it was printed. -/
theorem read_toString {bound n : Nat} (h : n < bound) : read bound (toString n) = .ok n := by
  have hdigit : ∀ c ∈ Nat.toDigits 10 n, c.isDigit = true := fun c hc =>
    Nat.isDigit_of_mem_toDigits (by decide) (by decide) hc
  have hread : readDigits bound 0 (Nat.toDigits 10 n) = .ok n := by
    rw [readDigits_of_lt hdigit (by rwa [Nat.ofDigitChars_ten_toDigits]),
      Nat.ofDigitChars_ten_toDigits]
  rw [read, Nat.toString_eq_ofList_toDigits, String.toList_ofList]
  split
  · rename_i heq
    exact absurd heq Nat.toDigits_ne_nil
  · rename_i heq
    have := hdigit '+' (heq ▸ List.mem_cons_self)
    simp at this
  · rename_i digits _ heq
    have := hdigit '+' (heq ▸ List.mem_cons_self)
    simp at this
  · exact hread

end CachedParameters.Numeral
