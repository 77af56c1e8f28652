import CachedParameters.Proofs.Real.Interval
import CachedParameters.Real
import Mathlib.Data.List.TakeWhile

/-!
# The text of a real number determines the number

A text is read back as a rational number: the digits of its mantissa as one whole number, shifted
by the exponent and by the number of digits behind the point. What is read rounds to the number
that was written, and no two numbers have a rounding in common.

## Main results

- `textValue_chars`: the text of a decimal has the value of the decimal, in every layout.
- `chars_injective`: different numbers have different texts.
- `point_or_exponent_mem_chars`: every text holds a point or an exponent.
- `isNumeric_of_mem_chars`: a text is made of digits, signs, points and exponent marks.
-/

namespace CachedParameters.Real

/-! ### Reading -/

/-- The number that the sign and digits of an exponent stand for. -/
def exponentValue : List Char → ℤ
  | '-' :: digits => -(Nat.ofDigitChars 10 digits 0 : ℤ)
  | '+' :: digits => Nat.ofDigitChars 10 digits 0
  | _ => 0

/-- The number that a text without a sign stands for. -/
def textValue (text : List Char) : ℚ :=
  let mantissa := text.takeWhile (· ≠ 'e')
  let whole := mantissa.takeWhile (· ≠ '.')
  let places := (mantissa.dropWhile (· ≠ '.')).drop 1
  Nat.ofDigitChars 10 (whole ++ places) 0 *
    10 ^ (exponentValue ((text.dropWhile (· ≠ 'e')).drop 1) - places.length)

/-- What stands before a mark is taken off a text, and the mark with it. -/
theorem takeWhile_mark {mark : Char} {front : List Char} (h : mark ∉ front) (back : List Char) :
    (front ++ mark :: back).takeWhile (· ≠ mark) = front ∧
      ((front ++ mark :: back).dropWhile (· ≠ mark)).drop 1 = back := by
  have hall : ∀ c ∈ front, (decide (c ≠ mark)) = true := by
    intro c hc
    exact decide_eq_true fun he => h (he ▸ hc)
  constructor
  · rw [List.takeWhile_append_of_pos hall]
    simp
  · rw [List.dropWhile_append_of_pos hall]
    simp

/-- A text without a mark is taken whole. -/
theorem takeWhile_no_mark {mark : Char} {text : List Char} (h : mark ∉ text) :
    text.takeWhile (· ≠ mark) = text ∧ (text.dropWhile (· ≠ mark)).drop 1 = [] := by
  have hall : ∀ c ∈ text, (decide (c ≠ mark)) = true := by
    intro c hc
    exact decide_eq_true fun he => h (he ▸ hc)
  constructor
  · exact List.takeWhile_eq_self_iff.mpr hall
  · rw [List.dropWhile_eq_nil_iff.mpr hall]
    rfl

theorem not_mem_of_isDigit {text : List Char} (h : ∀ c ∈ text, c.isDigit = true) :
    'e' ∉ text ∧ '.' ∉ text :=
  ⟨fun he => absurd (h _ he) (by decide), fun hp => absurd (h _ hp) (by decide)⟩

/-- The value of digits on both sides of a point. -/
theorem textValue_point (whole places : List Char) (hwhole : ∀ c ∈ whole, c.isDigit = true)
    (hplaces : ∀ c ∈ places, c.isDigit = true) :
    textValue (whole ++ '.' :: places) =
      Nat.ofDigitChars 10 (whole ++ places) 0 * 10 ^ (-places.length : ℤ) := by
  obtain ⟨hwe, hwp⟩ := not_mem_of_isDigit hwhole
  obtain ⟨hpe, -⟩ := not_mem_of_isDigit hplaces
  have hnone : 'e' ∉ whole ++ '.' :: places := by simp [hwe, hpe]
  obtain ⟨htake, hdrop⟩ := takeWhile_no_mark hnone
  obtain ⟨hfront, hback⟩ := takeWhile_mark hwp places
  simp only [textValue, htake, hdrop, hfront, hback, exponentValue, zero_sub]

/-- The value of digits with an exponent, without and with a point. -/
theorem textValue_exponent (whole expo : List Char) (hwhole : ∀ c ∈ whole, c.isDigit = true) :
    textValue (whole ++ 'e' :: expo) =
      Nat.ofDigitChars 10 whole 0 * 10 ^ exponentValue expo := by
  obtain ⟨hwe, hwp⟩ := not_mem_of_isDigit hwhole
  obtain ⟨htake, hdrop⟩ := takeWhile_mark hwe expo
  obtain ⟨hfront, hback⟩ := takeWhile_no_mark hwp
  simp only [textValue, htake, hdrop, hfront, hback, List.append_nil, List.length_nil,
    Nat.cast_zero, sub_zero]

/-- The value of digits on both sides of a point with an exponent. -/
theorem textValue_point_exponent (whole places expo : List Char)
    (hwhole : ∀ c ∈ whole, c.isDigit = true) (hplaces : ∀ c ∈ places, c.isDigit = true) :
    textValue (whole ++ '.' :: (places ++ 'e' :: expo)) =
      Nat.ofDigitChars 10 (whole ++ places) 0 * 10 ^ (exponentValue expo - places.length) := by
  obtain ⟨hwe, hwp⟩ := not_mem_of_isDigit hwhole
  obtain ⟨hpe, -⟩ := not_mem_of_isDigit hplaces
  have hnone : 'e' ∉ whole ++ '.' :: places := by simp [hwe, hpe]
  have hsplit : whole ++ '.' :: (places ++ 'e' :: expo) =
      (whole ++ '.' :: places) ++ 'e' :: expo := by simp
  obtain ⟨htake, hdrop⟩ := takeWhile_mark hnone expo
  obtain ⟨hfront, hback⟩ := takeWhile_mark hwp places
  rw [hsplit]
  simp only [textValue, htake, hdrop, hfront, hback]

/-- An exponent is read as it was written. -/
theorem exponentValue_exponentText (exponent : ℤ) :
    exponentValue (exponentText exponent) = exponent := by
  rw [exponentText]
  split
  · rw [exponentValue, Nat.ofDigitChars_ten_toDigits]
    omega
  · rw [exponentValue, Nat.ofDigitChars_ten_toDigits]
    omega

theorem isDigit_toDigits (n : ℕ) : ∀ c ∈ Nat.toDigits 10 n, c.isDigit = true :=
  fun _ hc => Nat.isDigit_of_mem_toDigits (by decide) (by decide) hc

theorem isDigit_zero : ∀ c ∈ ['0'], c.isDigit = true :=
  List.forall_mem_singleton.mpr rfl

theorem isDigit_replicate (n : ℕ) : ∀ c ∈ List.replicate n '0', c.isDigit = true := by
  intro c hc
  rw [List.eq_of_mem_replicate hc]
  rfl

/-- Digits followed by zeros and an empty place behind the point. -/
theorem textValue_zeros_behind {digits : List Char} (hdigits : ∀ c ∈ digits, c.isDigit = true)
    (zeros : ℕ) :
    textValue (digits ++ List.replicate zeros '0' ++ ['.', '0']) =
      Nat.ofDigitChars 10 digits 0 * 10 ^ (zeros : ℤ) := by
  have hall : ∀ c ∈ digits ++ List.replicate zeros '0', c.isDigit = true := by
    intro c hc
    rcases List.mem_append.mp hc with hc | hc
    · exact hdigits c hc
    · exact isDigit_replicate zeros c hc
  have hplace : Nat.ofDigitChars 10 (digits ++ List.replicate zeros '0' ++ ['0']) 0 =
      10 ^ zeros * Nat.ofDigitChars 10 digits 0 * 10 := by
    rw [Nat.ofDigitChars_append, Nat.ofDigitChars_append, Nat.ofDigitChars_replicate_zero,
      Nat.ofDigitChars_cons, Nat.ofDigitChars_nil, mul_comm 10]
    rfl
  rw [textValue_point _ _ hall isDigit_zero, hplace]
  push_cast
  rw [List.length_singleton, Nat.cast_one, zpow_neg_one, zpow_natCast]
  field_simp

/-- Zeros between the point and the digits. -/
theorem textValue_zeros_before {digits : List Char} (hdigits : ∀ c ∈ digits, c.isDigit = true)
    (zeros : ℕ) :
    textValue ('0' :: '.' :: (List.replicate zeros '0' ++ digits)) =
      Nat.ofDigitChars 10 digits 0 * 10 ^ (-(zeros + digits.length : ℕ) : ℤ) := by
  have hall : ∀ c ∈ List.replicate zeros '0' ++ digits, c.isDigit = true := by
    intro c hc
    rcases List.mem_append.mp hc with hc | hc
    · exact isDigit_replicate zeros c hc
    · exact hdigits c hc
  have hvalue : Nat.ofDigitChars 10 (['0'] ++ (List.replicate zeros '0' ++ digits)) 0 =
      Nat.ofDigitChars 10 digits 0 := by
    rw [Nat.ofDigitChars_append, Nat.ofDigitChars_append, Nat.ofDigitChars_cons,
      Nat.ofDigitChars_nil, Nat.ofDigitChars_replicate_zero]
    rfl
  have hpoint := textValue_point ['0'] _ isDigit_zero hall
  rw [hvalue, List.length_append, List.length_replicate] at hpoint
  exact hpoint

/-- **A text has the value of its decimal**, in every layout: where the point stands and whether
there is an exponent makes no difference. -/
theorem textValue_chars (layout : Layout) (d : Decimal) : textValue (d.chars layout) = d.value := by
  have hdigits := isDigit_toDigits d.digits
  have hne : Nat.toDigits 10 d.digits ≠ [] := Nat.toDigits_ne_nil
  have hvalue : d.value =
      (Nat.ofDigitChars 10 (Nat.toDigits 10 d.digits) 0 : ℕ) * 10 ^ d.exponent := by
    rw [Nat.ofDigitChars_ten_toDigits, Decimal.value]
  rw [hvalue, Decimal.chars]
  generalize Nat.toDigits 10 d.digits = digits at hdigits hne
  split
  · split
    · rename_i _ hwhole
      rw [textValue_zeros_behind hdigits, Int.toNat_of_nonneg hwhole]
    · split
      · rename_i _ hfraction hleading
        have htake : ∀ c ∈ digits.take ((d.exponent + digits.length - 1).toNat + 1),
            c.isDigit = true := fun c hc => hdigits c (List.mem_of_mem_take hc)
        have hdrop : ∀ c ∈ digits.drop ((d.exponent + digits.length - 1).toNat + 1),
            c.isDigit = true := fun c hc => hdigits c (List.mem_of_mem_drop hc)
        rw [textValue_point _ _ htake hdrop, List.take_append_drop, List.length_drop]
        congr 2
        omega
      · rename_i _ hfraction hleading
        rw [textValue_zeros_before hdigits]
        congr 2
        omega
  · match digits, hne with
    | [digit], _ =>
        have hexponent := textValue_exponent [digit]
          (exponentText (d.exponent + [digit].length - 1)) hdigits
        rw [exponentValue_exponentText] at hexponent
        refine hexponent.trans ?_
        congr 2
        rw [List.length_singleton, Nat.cast_one, add_sub_cancel_right]
    | digit :: second :: rest, _ =>
        obtain ⟨hdigit, hplaces⟩ := List.forall_mem_cons.mp hdigits
        have hexponent := textValue_point_exponent [digit] (second :: rest)
          (exponentText (d.exponent + (digit :: second :: rest).length - 1))
          (List.forall_mem_singleton.mpr hdigit) hplaces
        rw [exponentValue_exponentText] at hexponent
        refine hexponent.trans ?_
        congr 2
        rw [List.length_cons (a := digit)]
        push_cast
        ring

/-! ### Characters -/

/-- The characters that numbers are made of. -/
def IsNumeric (c : Char) : Prop := c.isDigit = true ∨ c ∈ ['-', '+', '.', 'e']

instance (c : Char) : Decidable (IsNumeric c) := inferInstanceAs (Decidable (_ ∨ _))

theorem isNumeric_exponentText (exponent : ℤ) : ∀ c ∈ exponentText exponent, IsNumeric c := by
  refine List.forall_mem_cons.mpr ⟨?_, fun c hc => Or.inl (isDigit_toDigits _ c hc)⟩
  split <;> decide

/-- A text that can only be that of a real number: it begins with a digit, has a point or an
exponent mark, and is made of characters of numbers. -/
structure IsToken (text : List Char) : Prop where
  head : ∃ c rest, text = c :: rest ∧ c.isDigit = true
  marked : '.' ∈ text ∨ 'e' ∈ text
  numeric : ∀ c ∈ text, IsNumeric c

/-- Digits, a mark and more of a number make a token. -/
theorem isToken_of_mark (front back : List Char) {mark : Char} (hne : front ≠ [])
    (hfront : ∀ c ∈ front, c.isDigit = true) (hmark : mark = '.' ∨ mark = 'e')
    (hback : ∀ c ∈ back, IsNumeric c) : IsToken (front ++ mark :: back) := by
  obtain ⟨c, rest, rfl⟩ := List.exists_cons_of_ne_nil hne
  refine ⟨⟨c, rest ++ mark :: back, rfl, hfront c List.mem_cons_self⟩, ?_, ?_⟩
  · rcases hmark with rfl | rfl
    · exact Or.inl (List.mem_append_right _ List.mem_cons_self)
    · exact Or.inr (List.mem_append_right _ List.mem_cons_self)
  · refine List.forall_mem_append.mpr ⟨fun c hc => Or.inl (hfront c hc), ?_⟩
    refine List.forall_mem_cons.mpr ⟨?_, hback⟩
    rcases hmark with rfl | rfl <;> decide

/-- The text of a decimal is a token, in every layout. -/
theorem isToken_decimal (layout : Layout) (d : Decimal) : IsToken (d.chars layout) := by
  have hdigits := isDigit_toDigits d.digits
  have hne : Nat.toDigits 10 d.digits ≠ [] := Nat.toDigits_ne_nil
  rw [Decimal.chars]
  generalize Nat.toDigits 10 d.digits = digits at hdigits hne
  split
  · split
    · refine isToken_of_mark _ ['0'] (List.append_ne_nil_of_left_ne_nil hne _) ?_
        (Or.inl rfl) fun c hc => Or.inl (isDigit_zero c hc)
      exact List.forall_mem_append.mpr ⟨hdigits, isDigit_replicate _⟩
    · split
      · refine isToken_of_mark _ _ ?_ (fun c hc => hdigits c (List.mem_of_mem_take hc))
          (Or.inl rfl) fun c hc => Or.inl (hdigits c (List.mem_of_mem_drop hc))
        rw [Ne, List.take_eq_nil_iff]
        exact not_or.mpr ⟨Nat.succ_ne_zero _, hne⟩
      · refine isToken_of_mark ['0'] _ (List.cons_ne_nil _ _) isDigit_zero (Or.inl rfl) ?_
        refine List.forall_mem_append.mpr ⟨?_, fun c hc => Or.inl (hdigits c hc)⟩
        exact fun c hc => Or.inl (isDigit_replicate _ c hc)
  · match digits, hne with
    | [digit], _ =>
        exact isToken_of_mark [digit] _ (List.cons_ne_nil _ _) hdigits (Or.inr rfl)
          (isNumeric_exponentText _)
    | digit :: second :: rest, _ =>
        obtain ⟨hdigit, hplaces⟩ := List.forall_mem_cons.mp hdigits
        refine isToken_of_mark [digit] _ (List.cons_ne_nil _ _)
          (List.forall_mem_singleton.mpr hdigit) (Or.inl rfl) ?_
        refine List.forall_mem_append.mpr ⟨fun c hc => Or.inl (hplaces c hc), ?_⟩
        exact List.forall_mem_cons.mpr ⟨by decide, isNumeric_exponentText _⟩

/-! ### Numbers with a sign -/

/-- The text of a number without its sign. -/
def unsignedChars (x : Float) : List Char :=
  if isZero x then ['0', '.', '0'] else (magnitude x).shortest.chars documentLayout

/-- The text of a number is its sign and the rest. -/
theorem chars_eq (x : Float) :
    chars x = (if isNegative x then ['-'] else []) ++ unsignedChars x := by
  simp only [chars, unsignedChars]
  split <;> rfl

/-- What stands behind the sign is a token. -/
theorem isToken_unsignedChars (x : Float) : IsToken (unsignedChars x) := by
  rw [unsignedChars]
  split
  · exact isToken_of_mark ['0'] ['0'] (List.cons_ne_nil _ _) isDigit_zero (Or.inl rfl)
      fun c hc => Or.inl (isDigit_zero c hc)
  · exact isToken_decimal _ _

/-- What stands behind the sign is read as a number that rounds to the magnitude. -/
theorem rounds_unsignedChars (x : Float) :
    (Binary.ofOrdinal (ordinal x)).Rounds (textValue (unsignedChars x)) := by
  rw [unsignedChars]
  split
  · rename_i hzero
    have hvalue : textValue ['0', '.', '0'] = 0 := by
      have hpoint := textValue_point ['0'] ['0'] isDigit_zero isDigit_zero
      have hdigits : Nat.ofDigitChars 10 ['0', '0'] 0 = 0 := by decide
      rw [List.singleton_append, List.singleton_append, hdigits, Nat.cast_zero, zero_mul]
        at hpoint
      exact hpoint
    rw [hvalue, isZero_iff.mp hzero]
    exact Binary.rounds_ofOrdinal_zero
  · rename_i hpos
    have hordinal : 0 < ordinal x := Nat.pos_of_ne_zero fun h => hpos (isZero_iff.mpr h)
    rw [textValue_chars, magnitude_eq_ofOrdinal]
    exact Binary.rounds_shortest hordinal (ordinal_lt x)

/-- A token has no sign, so a signed text tells its sign and its token apart. -/
theorem sign_append_inj {a b : Bool} {front back : List Char} (hfront : IsToken front)
    (hback : IsToken back)
    (h : (if a then ['-'] else []) ++ front = (if b then ['-'] else []) ++ back) :
    a = b ∧ front = back := by
  obtain ⟨c, cs, rfl, hc⟩ := hfront.head
  obtain ⟨d, ds, rfl, hd⟩ := hback.head
  cases a <;> cases b
  · exact ⟨rfl, h⟩
  · obtain ⟨rfl, -⟩ := List.cons.inj h
    exact absurd hc (by decide)
  · obtain ⟨rfl, -⟩ := List.cons.inj h
    exact absurd hd (by decide)
  · exact ⟨rfl, (List.cons.inj h).2⟩

/-- **Different numbers have different texts**: sign and ordinal can be recovered from a text. -/
theorem chars_injective : Function.Injective chars := by
  intro x y h
  rw [chars_eq, chars_eq] at h
  obtain ⟨hsign, hrest⟩ := sign_append_inj (isToken_unsignedChars x) (isToken_unsignedChars y) h
  have hrounds := rounds_unsignedChars x
  rw [hrest] at hrounds
  exact eq_of_ordinal_eq hsign (hrounds.unique (rounds_unsignedChars y))

theorem point_or_exponent_mem_chars (x : Float) : '.' ∈ chars x ∨ 'e' ∈ chars x := by
  rw [chars_eq]
  exact (isToken_unsignedChars x).marked.imp (List.mem_append_right _) (List.mem_append_right _)

/-- A text is made of digits, signs, points and exponent marks. -/
theorem isNumeric_of_mem_chars {x : Float} {c : Char} (h : c ∈ chars x) : IsNumeric c := by
  rw [chars_eq] at h
  rcases List.mem_append.mp h with hsign | hrest
  · split at hsign
    · rw [List.mem_singleton.mp hsign]
      decide
    · exact absurd hsign List.not_mem_nil
  · exact (isToken_unsignedChars x).numeric c hrest

end CachedParameters.Real
