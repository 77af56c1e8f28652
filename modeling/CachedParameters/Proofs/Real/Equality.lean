import CachedParameters.Proofs.Real.Interval

/-!
# Equality of numbers

Two binary64 numbers are equal as numbers if they have one value, which both zeros have. The
comparison takes the words apart into sign, significand and exponent and compares these. Apart from
NaN, which equals nothing, a word can be put together again from its parts, so equal numbers are the
same number unless they are zeros.

## Main results

- `Real.eq_of_unpack_eq`: the parts of a number other than NaN determine it.
- `Real.eq_or_isZero_of_beq`: equal numbers are the same, or both of them are zeros.
-/

namespace CachedParameters.Real

open Float.Model Float.Model.UnpackedFloat

variable {x y : Float} {u v : UnpackedFloat}

/-! ### The parts of a word -/

theorem toNat_unpackMantissa (x : Float) :
    (@unpackMantissa .binary64 x.toBits.toBitVec).toNat =
      ordinal x % 0x10000000000000 := by
  simp [unpackMantissa, ordinal]

/-- The exponent with its bias. -/
theorem toNat_unpackExponent (x : Float) :
    (@unpackExponent .binary64 x.toBits.toBitVec).toNat =
      ordinal x / 0x10000000000000 := by
  simp [unpackExponent, ordinal]
  omega

/-- The sign bit is set for negative numbers. -/
theorem unpackSign_eq_zero_iff (x : Float) :
    @unpackSign .binary64 x.toBits.toBitVec = 0#1 ↔ isNegative x = false := by
  have hlt := x.toBits.toNat_lt
  rw [← BitVec.toNat_inj]
  unfold unpackSign
  simp [isNegative]
  omega

theorem toNat_hidden_append (mantissa : BitVec 52) :
    (1#1 ++ mantissa).toNat = 0x10000000000000 + mantissa.toNat := by
  rw [BitVec.toNat_append, ← Nat.shiftLeft_add_eq_or_of_lt mantissa.isLt]
  rfl

/-! ### Putting a word together -/

/-- Whether the sign of a number in parts is negative. -/
def partsNegative : UnpackedFloat → Bool
  | .infinity sign | .zero sign | .finite sign _ _ _ => sign == .negative
  | .notANumber => false

/-- The lower 63 bits of the word of a number in parts, unless it is NaN. A significand without the
hidden bit belongs to the least exponent. -/
def partsOrdinal : UnpackedFloat → ℕ
  | .infinity _ => 0x7FF * 0x10000000000000
  | .notANumber | .zero _ => 0
  | .finite _ significand exponent _ =>
    if significand < 0x10000000000000 then significand
    else (exponent + 1075).toNat * 0x10000000000000 + (significand - 0x10000000000000)

def signOf (x : Float) : Sign := if isNegative x then .negative else .positive

/-- How the word of a number is taken apart. The greatest exponent belongs to the infinities and to
NaN, the least one to the zeros and to the significands without the hidden bit. -/
inductive Unpacks (x : Float) : UnpackedFloat → Prop where
  | infinity : ordinal x = 0x7FF * 0x10000000000000 → Unpacks x (.infinity (signOf x))
  | notANumber : Unpacks x .notANumber
  | zero : ordinal x = 0 → Unpacks x (.zero (signOf x))
  | least {significand : ℕ} {exponent : ℤ} {h : 0 < significand} :
    significand < 0x10000000000000 → ordinal x = significand →
    Unpacks x (.finite (signOf x) significand exponent h)
  | hidden {significand : ℕ} {exponent : ℤ} {h : 0 < significand} :
    0x10000000000000 ≤ significand →
    ordinal x =
      (exponent + 1075).toNat * 0x10000000000000 + (significand - 0x10000000000000) →
    Unpacks x (.finite (signOf x) significand exponent h)

/-- Every number is taken apart so. -/
theorem unpacks (x : Float) : Unpacks x x.toModel.unpack := by
  have hmantissa := toNat_unpackMantissa x
  have hexponent := toNat_unpackExponent x
  have hbias : Format.binary64.exponentBias = 1023 := rfl
  have hwidth : Format.binary64.mantissaBitsWithoutImplicit = 52 := rfl
  have hsign : Sign.ofBitVec (@unpackSign .binary64 x.toBits.toBitVec) = signOf x := by
    rw [Sign.ofBitVec, signOf]
    by_cases hzero : @unpackSign .binary64 x.toBits.toBitVec = 0#1
    · rw [if_pos hzero, (unpackSign_eq_zero_iff x).mp hzero, if_neg Bool.false_ne_true]
    · rw [if_neg hzero, if_pos]
      rwa [unpackSign_eq_zero_iff, Bool.not_eq_false] at hzero
  by_cases hall : @unpackExponent .binary64 x.toBits.toBitVec = -1#11
  · have hall' : (@unpackExponent .binary64 x.toBits.toBitVec).toNat = 0x7FF :=
      congrArg BitVec.toNat hall
    by_cases hnone : @unpackMantissa .binary64 x.toBits.toBitVec = 0#52
    · have hnone' : (@unpackMantissa .binary64 x.toBits.toBitVec).toNat = 0 :=
        congrArg BitVec.toNat hnone
      have hunpack : x.toModel.unpack = .infinity (signOf x) :=
        hsign ▸ (if_pos hall).trans (if_pos hnone)
      rw [hunpack]
      exact .infinity (by omega)
    · have hunpack : x.toModel.unpack = .notANumber := (if_pos hall).trans (if_neg hnone)
      rw [hunpack]
      exact .notANumber
  · by_cases hleast : @unpackExponent .binary64 x.toBits.toBitVec = 0#11
    · have hleast' : (@unpackExponent .binary64 x.toBits.toBitVec).toNat = 0 :=
        congrArg BitVec.toNat hleast
      by_cases hnone : @unpackMantissa .binary64 x.toBits.toBitVec = 0#52
      · have hnone' : (@unpackMantissa .binary64 x.toBits.toBitVec).toNat = 0 :=
          congrArg BitVec.toNat hnone
        have hunpack : x.toModel.unpack = .zero (signOf x) :=
          hsign ▸ (if_neg hall).trans ((if_pos hleast).trans (dif_pos hnone))
        rw [hunpack]
        exact .zero (by omega)
      · obtain ⟨exponent, hpos, hunpack⟩ : ∃ exponent hpos, x.toModel.unpack =
            .finite (signOf x) (@unpackMantissa .binary64 x.toBits.toBitVec).toNat exponent hpos :=
          hsign ▸ ⟨_, _, (if_neg hall).trans ((if_pos hleast).trans (dif_neg hnone))⟩
        rw [hunpack]
        exact .least (by omega) (by omega)
    · have hhidden := toNat_hidden_append (@unpackMantissa .binary64 x.toBits.toBitVec)
      obtain ⟨hpos, hunpack⟩ : ∃ hpos, x.toModel.unpack =
          .finite (signOf x) (1#1 ++ @unpackMantissa .binary64 x.toBits.toBitVec).toNat
            ((@unpackExponent .binary64 x.toBits.toBitVec).toNat - (1023 + 52)) hpos :=
        hsign ▸ ⟨_, (if_neg hall).trans (if_neg hleast)⟩
      rw [hunpack]
      exact .hidden (by omega) (by omega)

/-- The sign of a number other than NaN is among its parts. -/
theorem Unpacks.negative (h : Unpacks x u) (hnan : u ≠ .notANumber) :
    partsNegative u = isNegative x := by
  have hsign : (signOf x == .negative) = isNegative x := by
    rw [signOf]
    cases isNegative x <;> rfl
  cases h with
  | notANumber => exact absurd rfl hnan
  | infinity | zero | least | hidden => exact hsign

/-- The ordinal of a number other than NaN is put together from its parts. -/
theorem Unpacks.ordinal_eq (h : Unpacks x u) (hnan : u ≠ .notANumber) :
    partsOrdinal u = ordinal x := by
  cases h with
  | notANumber => exact absurd rfl hnan
  | infinity hordinal | zero hordinal => exact hordinal.symm
  | least hlt hordinal => exact (if_pos hlt).trans hordinal.symm
  | hidden hle hordinal => exact (if_neg (by omega)).trans hordinal.symm

/-- The parts of a number other than NaN determine it. -/
theorem eq_of_unpack_eq (h : x.toModel.unpack = y.toModel.unpack)
    (hx : x.toModel.unpack ≠ .notANumber) : x = y := by
  have hunpacks : Unpacks y x.toModel.unpack := h ▸ unpacks y
  refine eq_of_ordinal_eq ?_ ?_
  · rw [← (unpacks x).negative hx, hunpacks.negative hx]
  · rw [← (unpacks x).ordinal_eq hx, hunpacks.ordinal_eq hx]

/-- A number whose parts are those of a zero is a zero. -/
theorem isZero_of_unpack_eq {sign : Sign} (h : x.toModel.unpack = .zero sign) :
    isZero x = true := by
  have hunpacks : Unpacks x (.zero sign) := h ▸ unpacks x
  exact isZero_iff.mpr (hunpacks.ordinal_eq UnpackedFloat.noConfusion).symm

/-! ### Numbers that compare equal -/

/-- Parts that compare equal are the same, or both are of zeros. -/
theorem eq_or_zero_of_compare (h : u.compare v = some .eq) :
    (u = v ∧ u ≠ .notANumber) ∨ ∃ s t, u = .zero s ∧ v = .zero t := by
  have hfinite : ∀ {m n : ℕ} {d e : ℤ}, (compare d e).then (compare m n) = .eq → d = e ∧ m = n := by
    intro m n d e hthen
    rw [Ordering.then_eq_eq] at hthen
    exact ⟨Std.LawfulEqOrd.eq_of_compare hthen.1, Std.LawfulEqOrd.eq_of_compare hthen.2⟩
  cases u with
  | notANumber => cases h
  | infinity s =>
    cases v with
    | infinity t =>
      refine .inl ⟨?_, UnpackedFloat.noConfusion⟩
      cases s <;> cases t <;> first | rfl | cases h
    | notANumber => cases s <;> cases h
    | zero t | finite t n e hn => cases s <;> cases h
  | zero s =>
    cases v with
    | zero t => exact .inr ⟨s, t, rfl, rfl⟩
    | notANumber => cases h
    | infinity t | finite t n e hn => cases t <;> cases h
  | finite s m d hm =>
    cases v with
    | notANumber => cases h
    | zero t => cases s <;> cases h
    | infinity t => cases t <;> cases h
    | finite t n e hn =>
      refine .inl ⟨?_, UnpackedFloat.noConfusion⟩
      cases s with
      | negative =>
        cases t with
        | negative =>
          obtain ⟨rfl, rfl⟩ := hfinite (Ordering.swap_eq_eq.mp (Option.some.inj h))
          rfl
        | positive => cases h
      | positive =>
        cases t with
        | negative => cases h
        | positive =>
          obtain ⟨rfl, rfl⟩ := hfinite (Option.some.inj h)
          rfl

/-- **Equal numbers** are the same, or both of them are zeros. No finite number has two words but
zero, and a number that is no number equals none. -/
theorem eq_or_isZero_of_beq (h : (x == y) = true) :
    x = y ∨ isZero x = true ∧ isZero y = true := by
  have hcompare : x.toModel.unpack.compare y.toModel.unpack = some .eq := eq_of_beq h
  rcases eq_or_zero_of_compare hcompare with ⟨hsame, hnan⟩ | ⟨s, t, hx, hy⟩
  · exact .inl (eq_of_unpack_eq hsame hnan)
  · exact .inr ⟨isZero_of_unpack_eq hx, isZero_of_unpack_eq hy⟩

end CachedParameters.Real
