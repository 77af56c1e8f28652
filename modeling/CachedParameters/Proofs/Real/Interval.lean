import CachedParameters.Real
import Mathlib.Algebra.Order.Field.Power
import Mathlib.Data.Rat.Cast.Order
import Mathlib.Order.Monotone.Basic
import Mathlib.Tactic.FieldSimp
import Mathlib.Tactic.Linarith
import Mathlib.Tactic.NormNum
import Mathlib.Tactic.Positivity
import Mathlib.Tactic.Ring

/-!
# The reals that round to a binary64 number

Between two neighbouring binary64 numbers lies a midpoint, and the numbers that round to one of
them fill the interval between its two midpoints; a midpoint itself goes to the neighbour with
the even significand. The intervals of different magnitudes therefore have no point in common,
which is what makes a text that rounds back to a number tell it apart from all others.

Magnitudes are counted in ascending order by the lower 63 bits of their words, their **ordinal**.

## Main results

- `Binary.high_ofOrdinal`: the interval of an ordinal ends where that of the next one begins.
- `Binary.Rounds.unique`: no number rounds to two magnitudes.
- `Binary.rounds_shortest`: the shortest decimal of a magnitude rounds to it.
- `eq_of_ordinal_eq`: sign and ordinal determine a number.
-/

namespace CachedParameters.Real

/-- The number that a decimal stands for, as a rational. -/
def Decimal.value (d : Decimal) : ℚ := d.digits * 10 ^ d.exponent

namespace Binary

/-! ### Intervals -/

/-- The midpoint to the next smaller magnitude. -/
def low (x : Binary) : ℚ :=
  (4 * x.significand - if x.narrowBelow then 1 else 2) * 2 ^ (x.exponent - 2)

/-- The midpoint to the next larger magnitude. -/
def high (x : Binary) : ℚ := (4 * x.significand + 2) * 2 ^ (x.exponent - 2)

/-- A number **rounds** to a magnitude if it lies between the two midpoints, and strictly so if the
significand is odd. So a midpoint belongs to the neighbour with the even significand. -/
structure Rounds (x : Binary) (q : ℚ) : Prop where
  low_le : x.low ≤ q
  le_high : q ≤ x.high
  strict : x.significand % 2 = 1 → x.low < q ∧ q < x.high

/-! ### Ordinals -/

/-- The magnitude with the given lower 63 bits. -/
def ofOrdinal (n : ℕ) : Binary :=
  if n / 0x10000000000000 = 0 then ⟨n % 0x10000000000000, -1074, false⟩
  else
    ⟨0x10000000000000 + n % 0x10000000000000, (n / 0x10000000000000 : ℕ) - 1075,
      n % 0x10000000000000 == 0 && 1 < n / 0x10000000000000⟩

theorem significand_ofOrdinal_mod_two (n : ℕ) : (ofOrdinal n).significand % 2 = n % 2 := by
  rw [ofOrdinal]
  split <;> simp only <;> omega

theorem significand_ofOrdinal_lt (n : ℕ) : (ofOrdinal n).significand < 0x20000000000000 := by
  rw [ofOrdinal]
  split <;> simp only <;> omega

theorem significand_ofOrdinal_pos {n : ℕ} (h : 0 < n) : 0 < (ofOrdinal n).significand := by
  rw [ofOrdinal]
  split <;> simp only <;> omega

/-- Exponents are at least that of the smallest magnitude, and those of a machine word are
below 1000. -/
theorem exponent_ofOrdinal {n : ℕ} (h : n < 0x8000000000000000) :
    -1074 ≤ (ofOrdinal n).exponent ∧ (ofOrdinal n).exponent < 1000 := by
  rw [ofOrdinal]
  split <;> simp only <;> omega

/-- **Intervals adjoin.** The interval of an ordinal ends where that of the next one begins. The
cases are a carry out of the fraction, from the subnormal numbers or from normal ones, and no
carry. -/
theorem high_ofOrdinal (n : ℕ) : (ofOrdinal n).high = (ofOrdinal (n + 1)).low := by
  by_cases hcarry : n % 0x10000000000000 = 0xFFFFFFFFFFFFF
  · have hfraction : (n + 1) % 0x10000000000000 = 0 := by omega
    have hbiased : (n + 1) / 0x10000000000000 = n / 0x10000000000000 + 1 := by omega
    rw [ofOrdinal, ofOrdinal, hfraction, hbiased, if_neg (Nat.succ_ne_zero _)]
    split
    · rename_i hzero
      have hexponent : ((0 + 1 : ℕ) : ℤ) - 1075 = -1074 := by norm_num
      rw [hcarry, hzero, hexponent]
      generalize (-1074 : ℤ) = least
      simp only [high, low]
      norm_num
    · rename_i hpos
      have hnarrow : 1 < n / 0x10000000000000 + 1 := by omega
      have hexponent : ((n / 0x10000000000000 + 1 : ℕ) : ℤ) - 1075 - 2 =
          ((n / 0x10000000000000 : ℕ) : ℤ) - 1075 - 2 + 1 := by
        push_cast
        ring
      simp only [high, low, hcarry, hnarrow, hexponent, zpow_add_one₀ (two_ne_zero (α := ℚ))]
      norm_num
      ring
  · have hfraction : (n + 1) % 0x10000000000000 = n % 0x10000000000000 + 1 := by omega
    have hbiased : (n + 1) / 0x10000000000000 = n / 0x10000000000000 := by omega
    rw [ofOrdinal, ofOrdinal, hfraction, hbiased]
    split
    · generalize (-1074 : ℤ) = least
      simp only [high, low]
      push_cast
      ring
    · simp only [high, low, beq_iff_eq, Nat.succ_ne_zero, Bool.and_eq_true, false_and, if_false]
      push_cast
      ring

theorem low_lt_high (x : Binary) : x.low < x.high := by
  have hunit : (0 : ℚ) < 2 ^ (x.exponent - 2) := zpow_pos two_pos _
  refine mul_lt_mul_of_pos_right ?_ hunit
  split <;> linarith

theorem strictMono_low : StrictMono fun n => (ofOrdinal n).low :=
  strictMono_nat_of_lt_succ fun n => high_ofOrdinal n ▸ low_lt_high _

/-- What rounds to an ordinal does not round to a larger one: the two could share only the
midpoint of neighbours, and of two neighbours one is odd. -/
theorem Rounds.ordinal_le {m n : ℕ} {q : ℚ} (hm : (ofOrdinal m).Rounds q)
    (hn : (ofOrdinal n).Rounds q) : n ≤ m := by
  by_contra hgt
  have hlt : m < n := not_le.mp hgt
  have hle : (ofOrdinal (m + 1)).low ≤ (ofOrdinal n).low := strictMono_low.monotone hlt
  have hhigh : q ≤ (ofOrdinal (m + 1)).low := high_ofOrdinal m ▸ hm.le_high
  have hsame : (ofOrdinal (m + 1)).low = (ofOrdinal n).low :=
    le_antisymm hle (hn.low_le.trans hhigh)
  obtain rfl : m + 1 = n := strictMono_low.injective hsame
  rcases Nat.mod_two_eq_zero_or_one m with heven | hodd
  · have hnext : (ofOrdinal (m + 1)).significand % 2 = 1 := by
      rw [significand_ofOrdinal_mod_two]
      omega
    exact absurd (hn.strict hnext).1 (not_lt.mpr hhigh)
  · have hthis : (ofOrdinal m).significand % 2 = 1 := by
      rw [significand_ofOrdinal_mod_two, hodd]
    have hstrict : q < (ofOrdinal (m + 1)).low := high_ofOrdinal m ▸ (hm.strict hthis).2
    exact absurd hn.low_le (not_le.mpr hstrict)

/-- **Uniqueness.** No number rounds to two magnitudes, for of two ordinals that it rounds to
neither lies above the other. -/
theorem Rounds.unique {m n : ℕ} {q : ℚ} (hm : (ofOrdinal m).Rounds q)
    (hn : (ofOrdinal n).Rounds q) : m = n :=
  le_antisymm (hn.ordinal_le hm) (hm.ordinal_le hn)

theorem rounds_ofOrdinal_zero : (ofOrdinal 0).Rounds 0 := by
  have hlow : (ofOrdinal 0).low ≤ 0 := by simp [ofOrdinal, low]
  have hhigh : 0 ≤ (ofOrdinal 0).high := by simp [ofOrdinal, high]
  refine ⟨hlow, hhigh, fun hodd => ?_⟩
  simp [significand_ofOrdinal_mod_two] at hodd

/-! ### Grids -/

/-- The unit of a window on a grid. -/
def grain (x : Binary) (grid : ℤ) : ℚ :=
  2 ^ (x.exponent - 2) / (2 ^ (x.exponent - 2).toNat * 10 ^ (-grid).toNat)

theorem grain_pos (x : Binary) (grid : ℤ) : 0 < x.grain grid := by
  have hquarter : (0 : ℚ) < 2 ^ (x.exponent - 2) := zpow_pos two_pos _
  rw [grain]
  positivity

/-- So many quarters of the last bit, in the unit of a window. -/
theorem quarters_mul_grain (x : Binary) (grid : ℤ) (quarters : ℕ) :
    ((quarters * (Nat.pow 2 (x.exponent - 2).toNat * Nat.pow 10 (-grid).toNat) : ℕ) : ℚ) *
      x.grain grid = quarters * 2 ^ (x.exponent - 2) := by
  have hscale : (2 : ℚ) ^ (x.exponent - 2).toNat * 10 ^ (-grid).toNat ≠ 0 := by positivity
  simp only [grain, Nat.pow_eq]
  push_cast
  rw [mul_assoc, mul_div_cancel₀ _ hscale]

/-- The step of a grid, in the unit of its window. -/
theorem step_mul_grain (x : Binary) (grid : ℤ) :
    ((x.window grid).step : ℚ) * x.grain grid = 10 ^ grid := by
  have htwo : (2 : ℚ) ^ (2 - x.exponent).toNat * 2 ^ (x.exponent - 2) =
      2 ^ (x.exponent - 2).toNat := by
    rw [← zpow_natCast, ← zpow_natCast, ← zpow_add₀ two_ne_zero]
    congr 1
    omega
  have hten : (10 : ℚ) ^ grid * 10 ^ (-grid).toNat = 10 ^ grid.toNat := by
    rw [← zpow_natCast, ← zpow_natCast, ← zpow_add₀ (by norm_num)]
    congr 1
    omega
  have hscale : (2 : ℚ) ^ (x.exponent - 2).toNat * 10 ^ (-grid).toNat ≠ 0 := by positivity
  rw [grain, mul_div_assoc', div_eq_iff hscale]
  simp only [window, Nat.pow_eq]
  push_cast
  rw [← htwo, ← hten]
  ring

/-- The lower end of a window is the lower midpoint. -/
theorem window_low_mul_grain {x : Binary} (hpos : 0 < x.significand) (grid : ℤ) :
    ((x.window grid).low : ℚ) * x.grain grid = x.low := by
  simp only [window, quarters_mul_grain, low]
  split
  · rw [Nat.cast_sub (by omega)]
    push_cast
    ring
  · rw [Nat.cast_sub (by omega)]
    push_cast
    ring

/-- The upper end of a window is the upper midpoint. -/
theorem window_high_mul_grain (x : Binary) (grid : ℤ) :
    ((x.window grid).high : ℚ) * x.grain grid = x.high := by
  simp only [window, quarters_mul_grain, high]
  push_cast
  ring

/-- A point that a window covers rounds to its magnitude. -/
theorem rounds_of_covers {x : Binary} {grid : ℤ} {count : ℕ} (hpos : 0 < x.significand)
    (h : (x.window grid).covers (count * (x.window grid).step) = true) :
    x.Rounds (count * 10 ^ grid) := by
  have hgrain := x.grain_pos grid
  have hpoint : (count * 10 ^ grid : ℚ) =
      ((count * (x.window grid).step : ℕ) : ℚ) * x.grain grid := by
    rw [Nat.cast_mul, mul_assoc, step_mul_grain]
  have hclosed : (x.window grid).closed = (x.significand % 2 == 0) := rfl
  rw [hpoint]
  rw [Window.covers, hclosed] at h
  split at h
  · rename_i heven
    simp only [Bool.and_eq_true, decide_eq_true_eq] at h
    refine ⟨?_, ?_, fun hodd => by simp [hodd] at heven⟩
    · rw [← window_low_mul_grain hpos grid]
      exact mul_le_mul_of_nonneg_right (by exact_mod_cast h.1) hgrain.le
    · rw [← window_high_mul_grain x grid]
      exact mul_le_mul_of_nonneg_right (by exact_mod_cast h.2) hgrain.le
  · simp only [Bool.and_eq_true, decide_eq_true_eq] at h
    have hlow : x.low < ((count * (x.window grid).step : ℕ) : ℚ) * x.grain grid := by
      rw [← window_low_mul_grain hpos grid]
      exact mul_lt_mul_of_pos_right (by exact_mod_cast h.1) hgrain
    have hhigh : ((count * (x.window grid).step : ℕ) : ℚ) * x.grain grid < x.high := by
      rw [← window_high_mul_grain x grid]
      exact mul_lt_mul_of_pos_right (by exact_mod_cast h.2) hgrain
    exact ⟨hlow.le, hhigh.le, fun _ => ⟨hlow, hhigh⟩⟩

/-- What is picked on a grid is covered by its window. -/
theorem covers_of_pick {w : Window} {count : ℕ} (h : w.pick = some count) :
    w.covers (count * w.step) = true := by
  have hnext : (w.value / w.step + 1) * w.step = w.value / w.step * w.step + w.step := by ring
  simp only [Window.pick] at h
  split at h
  · simp at h
  · rename_i hbelow _
    obtain rfl := Option.some.inj h
    exact hbelow
  · rename_i _ habove
    obtain rfl := Option.some.inj h
    rwa [hnext]
  · rename_i hbelow habove
    rw [← hnext] at habove
    split at h
    · exact Option.some.inj h ▸ hbelow
    · split at h
      · exact Option.some.inj h ▸ habove
      · obtain rfl := Option.some.inj h
        split <;> assumption

/-! ### The shortest decimal -/

/-- On a grid no coarser than a quarter of the last bit, the point below a magnitude is covered. -/
theorem covers_below {x : Binary} {grid : ℤ} (hpos : 0 < x.significand)
    (hfine : (10 : ℚ) ^ grid ≤ 2 ^ (x.exponent - 2)) :
    (x.window grid).covers
      ((x.window grid).value / (x.window grid).step * (x.window grid).step) = true := by
  have hstep : (x.window grid).step ≤
      Nat.pow 2 (x.exponent - 2).toNat * Nat.pow 10 (-grid).toNat := by
    have hquarter := x.quarters_mul_grain grid 1
    rw [one_mul, Nat.cast_one, one_mul] at hquarter
    have hle : ((x.window grid).step : ℚ) * x.grain grid ≤
        ((Nat.pow 2 (x.exponent - 2).toNat * Nat.pow 10 (-grid).toNat : ℕ) : ℚ) *
          x.grain grid := by
      rw [step_mul_grain, hquarter]
      exact hfine
    exact_mod_cast le_of_mul_le_mul_right hle (x.grain_pos grid)
  set unit := Nat.pow 2 (x.exponent - 2).toNat * Nat.pow 10 (-grid).toNat with hunit
  have hlow : (x.window grid).low + unit ≤ (x.window grid).value := by
    have hends : (4 * x.significand - if x.narrowBelow then 1 else 2) + 1 ≤
        4 * x.significand := by
      split <;> omega
    calc (x.window grid).low + unit
        = ((4 * x.significand - if x.narrowBelow then 1 else 2) + 1) * unit := by
          rw [Nat.add_mul, one_mul]
          rfl
      _ ≤ 4 * x.significand * unit := Nat.mul_le_mul_right _ hends
  have hhigh : (x.window grid).value + 2 * unit = (x.window grid).high := by
    simp only [window]
    rw [← hunit]
    ring
  have hpositive : 0 < (x.window grid).step := by
    simp only [window, Nat.pow_eq]
    positivity
  have hfloor := Nat.div_add_mod' (x.window grid).value (x.window grid).step
  have hrest := Nat.mod_lt (x.window grid).value hpositive
  rw [Window.covers]
  split <;> simp only [Bool.and_eq_true, decide_eq_true_eq] <;> omega

/-- Searching ever finer grids finds a decimal that rounds to the magnitude, if the last of them
is fine enough. -/
theorem rounds_firstHit {x : Binary} (hpos : 0 < x.significand) {fuel : ℕ} {grid : ℤ}
    (hfine : (10 : ℚ) ^ (grid - fuel) ≤ 2 ^ (x.exponent - 2)) :
    x.Rounds (x.firstHit fuel grid).value := by
  induction fuel generalizing grid with
  | zero =>
      rw [Nat.cast_zero, sub_zero] at hfine
      exact rounds_of_covers hpos (covers_below hpos hfine)
  | succ fuel ih =>
      rw [firstHit]
      cases hpick : (x.window grid).pick with
      | some count => exact rounds_of_covers hpos (covers_of_pick hpick)
      | none =>
          refine ih ?_
          have hgrid : grid - 1 - (fuel : ℤ) = grid - ((fuel + 1 : ℕ) : ℤ) := by
            push_cast
            ring
          rwa [hgrid]

/-- Powers of ten above one, against powers of two: a thousand is less than `2 ^ 10`. -/
theorem ten_pow_le {g e : ℕ} (h : 10 * g ≤ 3 * e) : 10 ^ g ≤ 2 ^ e := by
  refine (Nat.pow_le_pow_iff_left (n := 3) (by decide)).mp ?_
  calc (10 ^ g) ^ 3 = (10 ^ 3) ^ g := by rw [← pow_mul, mul_comm, pow_mul]
    _ ≤ (2 ^ 10) ^ g := Nat.pow_le_pow_left (by norm_num) g
    _ = 2 ^ (10 * g) := by rw [pow_mul]
    _ ≤ 2 ^ (3 * e) := Nat.pow_le_pow_right (by decide) h
    _ = (2 ^ e) ^ 3 := by rw [← pow_mul, mul_comm]

/-- Powers of ten below one, against powers of two: `10 ^ 10` is more than `2 ^ 33`. -/
theorem two_pow_le {g e : ℕ} (h : 10 * e ≤ 33 * g) : 2 ^ e ≤ 10 ^ g := by
  refine (Nat.pow_le_pow_iff_left (n := 10) (by decide)).mp ?_
  calc (2 ^ e) ^ 10 = 2 ^ (10 * e) := by rw [← pow_mul, mul_comm]
    _ ≤ 2 ^ (33 * g) := Nat.pow_le_pow_right (by decide) h
    _ = (2 ^ 33) ^ g := by rw [pow_mul]
    _ ≤ (10 ^ 10) ^ g := Nat.pow_le_pow_left (by norm_num) g
    _ = (10 ^ g) ^ 10 := by rw [← pow_mul, mul_comm, pow_mul]

/-- A power of ten is at most a power of two if both bounds on the logarithm say so. -/
theorem ten_zpow_le {g e : ℤ} (habove : 10 * g ≤ 3 * e) (hbelow : 33 * g ≤ 10 * e) :
    (10 : ℚ) ^ g ≤ 2 ^ e := by
  obtain ⟨n, rfl | rfl⟩ := g.eq_nat_or_neg
  · obtain ⟨k, rfl⟩ := Int.eq_ofNat_of_zero_le (show 0 ≤ e by omega)
    rw [zpow_natCast, zpow_natCast]
    exact_mod_cast ten_pow_le (by omega)
  · obtain ⟨k, rfl | rfl⟩ := e.eq_nat_or_neg
    · have hten : (1 : ℚ) ≤ 10 ^ n := one_le_pow₀ (by norm_num)
      have htwo : (1 : ℚ) ≤ 2 ^ k := one_le_pow₀ (by norm_num)
      rw [zpow_neg, zpow_natCast, zpow_natCast]
      exact (inv_le_one_of_one_le₀ hten).trans htwo
    · rw [zpow_neg, zpow_neg, zpow_natCast, zpow_natCast]
      refine inv_anti₀ (by positivity) ?_
      exact_mod_cast two_pow_le (by omega)

/-- The finest grid that is searched is finer than a quarter of the last bit. -/
theorem finest_grid_le {x : Binary} (hlt : x.significand < 0x20000000000000)
    (hleast : -1074 ≤ x.exponent) (hgreatest : x.exponent < 1000) :
    (10 : ℚ) ^ (x.coarseGrid - (32 : ℕ)) ≤ 2 ^ (x.exponent - 2) := by
  have hlog : x.significand.log2 < 53 := by
    by_cases hzero : x.significand = 0
    · simp [hzero]
    · exact (Nat.log2_lt hzero).mpr hlt
  have hgrid : x.coarseGrid =
      ((x.significand.log2 + 1 + x.exponent) * 30103) / 100000 + 2 := by
    rw [coarseGrid, Int.fdiv_eq_ediv_of_nonneg _ (by decide)]
  refine ten_zpow_le ?_ ?_ <;> omega

/-- **The shortest decimal of a magnitude rounds to it.** The search ends at the latest on the
grid where neighbouring numbers are farther apart than the points, and what it picks lies in the
window. -/
theorem rounds_shortest {n : ℕ} (hpos : 0 < n) (hlt : n < 0x8000000000000000) :
    (ofOrdinal n).Rounds (ofOrdinal n).shortest.value := by
  obtain ⟨hleast, hgreatest⟩ := exponent_ofOrdinal hlt
  exact rounds_firstHit (significand_ofOrdinal_pos hpos)
    (finest_grid_le (significand_ofOrdinal_lt n) hleast hgreatest)

end Binary

/-! ### Words -/

/-- The lower 63 bits of a number's word. -/
def ordinal (x : Float) : ℕ := x.toBits.toNat % 0x8000000000000000

theorem ordinal_lt (x : Float) : ordinal x < 0x8000000000000000 := Nat.mod_lt _ (by decide)

/-- The magnitude of a number is that of its ordinal. -/
theorem magnitude_eq_ofOrdinal (x : Float) : magnitude x = Binary.ofOrdinal (ordinal x) := by
  have hfraction : ordinal x % 0x10000000000000 = x.toBits.toNat % 0x10000000000000 := by
    rw [ordinal]
    omega
  have hbiased : ordinal x / 0x10000000000000 = x.toBits.toNat / 0x10000000000000 % 0x800 := by
    rw [ordinal]
    omega
  rw [Binary.ofOrdinal, hfraction, hbiased]
  rfl

/-- The numbers without an ordinal are the two zeros. -/
theorem isZero_iff {x : Float} : isZero x = true ↔ ordinal x = 0 := by
  rw [isZero, beq_iff_eq, ordinal]

/-- Sign and ordinal determine a number. -/
theorem eq_of_ordinal_eq {x y : Float} (hsign : isNegative x = isNegative y)
    (hordinal : ordinal x = ordinal y) : x = y := by
  have hx := x.toBits.toNat_lt
  have hy := y.toBits.toNat_lt
  have hiff : x.toBits.toNat / 0x8000000000000000 = 1 ↔
      y.toBits.toNat / 0x8000000000000000 = 1 := by
    rw [← beq_iff_eq, ← beq_iff_eq (b := 1)]
    exact iff_of_eq (congrArg (· = true) hsign)
  rw [ordinal, ordinal] at hordinal
  have hbits : x.toBits = y.toBits := UInt64.toNat_inj.mp (by omega)
  obtain ⟨⟨xbits, xvalid⟩⟩ := x
  obtain ⟨⟨ybits, yvalid⟩⟩ := y
  obtain rfl : xbits = ybits := hbits
  rfl

end CachedParameters.Real
