import CachedParameters.Base64
import CachedParameters.Proofs.Text.Utf8
import Mathlib.Algebra.Group.Nat.Defs
import Mathlib.Data.List.Basic

/-!
# Decoding accepts the standard encodings

The standard says what the encoding of bytes is bit by bit: the bits of the bytes, filled up with
zeros to whole symbols, then six bits to a symbol, and paddings that fill up the last group of four.
`Encodes` states it that way, without regard to groups, and there is one such text for all bytes:
the one that `encode` writes. The decoder works group by group, and every text that it accepts is
written back from what it gives. So no two texts stand for the same bytes, and every other text has
a fault.

## Main results

- `Base64.encodes_iff`: `encode` writes the standard encoding, and there is no other one.
- `Base64.decode_eq_ok_iff`: what is decoded is what encoding produces.
- `Base64.encode_render`: the encoding as a text.
-/

namespace CachedParameters.Base64

/-! ### The standard encoding -/

/-- The lowest `width` bits of a number, the highest one first. -/
def bits : (width n : ℕ) → List Bool
  | 0, _ => []
  | width + 1, n => bits width (n / 2) ++ [decide (n % 2 = 1)]

/-- A text is the **standard encoding** of bytes: its symbols spell the bits of the bytes, followed
by no more zeros than the last symbol needs, and paddings fill up the last group of four. -/
def Encodes (bytes text : List UInt8) : Prop :=
  ∃ (values : List ℕ) (unused paddings : ℕ), (∀ value ∈ values, value < 64) ∧
    values.flatMap (bits 6) =
      (bytes.flatMap fun byte => bits 8 byte.toNat) ++ List.replicate unused false ∧
    unused < 6 ∧ text = values.map symbol ++ List.replicate paddings padding ∧
    paddings < 4 ∧ 4 ∣ text.length

theorem length_bits (width n : ℕ) : (bits width n).length = width := by
  induction width generalizing n with
  | zero => rfl
  | succ width ih => rw [bits, List.length_append, ih, List.length_singleton]

/-- Bits are the higher ones and the lower ones. -/
theorem bits_add (high low n : ℕ) :
    bits (high + low) n = bits high (n / 2 ^ low) ++ bits low n := by
  induction low generalizing n with
  | zero => rw [bits, List.append_nil, Nat.pow_zero, Nat.div_one, Nat.add_zero]
  | succ low ih =>
      rw [← Nat.add_assoc, bits, ih, bits, List.append_assoc, Nat.div_div_eq_div_mul,
        Nat.pow_succ, Nat.mul_comm]

/-- Bits tell a number up to the power of two that they reach to. -/
theorem bits_eq_iff {width n m : ℕ} :
    bits width n = bits width m ↔ n % 2 ^ width = m % 2 ^ width := by
  induction width generalizing n m with
  | zero => simp [bits, Nat.mod_one]
  | succ width ih =>
      have hsplit : ∀ k : ℕ, k % 2 ^ (width + 1) = k % 2 + 2 * (k / 2 % 2 ^ width) := by
        intro k
        rw [Nat.pow_succ, Nat.mul_comm, Nat.mod_mul]
      rw [bits, bits, hsplit n, hsplit m]
      constructor
      · intro h
        obtain ⟨hhigh, hlow⟩ := List.append_inj' h rfl
        have hlast : n % 2 = 1 ↔ m % 2 = 1 := by simpa using hlow
        rw [ih.mp hhigh]
        omega
      · intro h
        have hhigh : n / 2 % 2 ^ width = m / 2 % 2 ^ width := by omega
        have hlow : n % 2 = m % 2 := by omega
        rw [ih.mpr hhigh, hlow]

/-- The bits of a number with a byte behind it end with those of the byte. -/
theorem bits_byte (width n : ℕ) (byte : UInt8) :
    bits (width + 8) (n * 256 + byte.toNat) = bits width n ++ bits 8 byte.toNat := by
  have hbyte := byte.toNat_lt
  have hhigh : (n * 256 + byte.toNat) / 2 ^ 8 = n := by omega
  have hlow : bits 8 (n * 256 + byte.toNat) = bits 8 byte.toNat := bits_eq_iff.mpr (by omega)
  rw [bits_add, hhigh, hlow]

/-- The bits of a number end with those of its last symbol. -/
theorem bits_symbol (width n : ℕ) :
    bits (width + 6) n = bits width (n / 64) ++ bits 6 (n % 64) := by
  have hhigh : n / 2 ^ 6 = n / 64 := by omega
  have hlow : bits 6 (n % 64) = bits 6 n := bits_eq_iff.mpr (by omega)
  rw [bits_add, hhigh, hlow]

/-- The bits of a multiple of a power of two end with zeros. -/
theorem bits_mul (high low n : ℕ) :
    bits (high + low) (n * 2 ^ low) = bits high n ++ List.replicate low false := by
  have hlow : bits low (n * 2 ^ low) = bits low 0 :=
    bits_eq_iff.mpr (by rw [Nat.mul_mod_left, Nat.zero_mod])
  have hzeros : ∀ width, bits width 0 = List.replicate width false := by
    intro width
    induction width with
    | zero => rfl
    | succ width ih => rw [bits, Nat.zero_div, ih, List.replicate_succ']; rfl
  rw [bits_add, Nat.mul_div_cancel _ (Nat.two_pow_pos low), hlow, hzeros]

/-! ### Encoding -/

/-- The values of the symbols of a full group. -/
def groupValues (a b c : UInt8) : List ℕ :=
  let n := (a.toNat * 256 + b.toNat) * 256 + c.toNat
  [n / 262144, n / 4096 % 64, n / 64 % 64, n % 64]

/-- A full group comes before the encoding of the rest. -/
theorem encode_group (a b c : UInt8) (rest : List UInt8) :
    encode (a :: b :: c :: rest) = (groupValues a b c).map symbol ++ encode rest := rfl

/-- The values of a group are values of symbols. -/
theorem lt_of_mem_groupValues {a b c : UInt8} {value : ℕ} (h : value ∈ groupValues a b c) :
    value < 64 := by
  have ha := a.toNat_lt
  have hb := b.toNat_lt
  have hc := c.toNat_lt
  simp only [groupValues, List.mem_cons, List.not_mem_nil, or_false] at h
  omega

/-- The symbols of a group spell its bytes. -/
theorem flatMap_groupValues (a b c : UInt8) :
    (groupValues a b c).flatMap (bits 6) =
      bits 8 a.toNat ++ (bits 8 b.toNat ++ bits 8 c.toNat) := by
  have hbits := bits_byte 16 (a.toNat * 256 + b.toNat) c
  rw [bits_symbol 18, bits_symbol 12, bits_symbol 6, bits_byte 8] at hbits
  simp only [Nat.div_div_eq_div_mul] at hbits
  simpa [groupValues] using hbits

theorem encode_one (a : UInt8) :
    encode [a] = [a.toNat * 16 / 64, a.toNat * 16 % 64].map symbol ++ List.replicate 2 padding :=
  rfl

/-- Three symbols are written for two bytes. -/
theorem encode_two (a b : UInt8) :
    encode [a, b] =
      [(a.toNat * 256 + b.toNat) * 4 / 4096, (a.toNat * 256 + b.toNat) * 4 / 64 % 64,
        (a.toNat * 256 + b.toNat) * 4 % 64].map symbol ++ List.replicate 1 padding :=
  rfl

theorem encode_three (a b c : UInt8) :
    encode [a, b, c] = (groupValues a b c).map symbol ++ List.replicate 0 padding :=
  rfl

/-- A byte is spelled by two symbols, the last one with four zeros. -/
theorem encodes_one (a : UInt8) : Encodes [a] (encode [a]) := by
  have ha := a.toNat_lt
  refine ⟨[a.toNat * 16 / 64, a.toNat * 16 % 64], 4, 2, ?_, ?_, by decide, encode_one a, by decide,
    by simp [encode]⟩
  · simp only [List.forall_mem_cons]
    exact ⟨by omega, by omega, by simp⟩
  · have hbits := bits_mul 8 4 a.toNat
    rw [bits_symbol 6] at hbits
    simpa using hbits

/-- Two bytes are spelled by three symbols, the last one with two zeros. -/
theorem encodes_two (a b : UInt8) : Encodes [a, b] (encode [a, b]) := by
  have ha := a.toNat_lt
  have hb := b.toNat_lt
  refine ⟨[(a.toNat * 256 + b.toNat) * 4 / 4096, (a.toNat * 256 + b.toNat) * 4 / 64 % 64,
    (a.toNat * 256 + b.toNat) * 4 % 64], 2, 1, ?_, ?_, by decide, encode_two a b, by decide,
    by simp [encode]⟩
  · simp only [List.forall_mem_cons]
    exact ⟨by omega, by omega, by omega, by simp⟩
  · have hbits := bits_mul 16 2 (a.toNat * 256 + b.toNat)
    rw [bits_symbol 12, bits_symbol 6, Nat.div_div_eq_div_mul, bits_byte 8] at hbits
    simpa using hbits

/-- A full group before a standard encoding makes one of three more bytes. -/
theorem Encodes.group {rest text : List UInt8} (h : Encodes rest text) (a b c : UInt8) :
    Encodes (a :: b :: c :: rest) ((groupValues a b c).map symbol ++ text) := by
  obtain ⟨values, unused, paddings, hvalues, hbits, hunused, htext, hpaddings, hfour⟩ := h
  refine ⟨groupValues a b c ++ values, unused, paddings, ?_, ?_, hunused, ?_, hpaddings, ?_⟩
  · rw [List.forall_mem_append]
    exact ⟨fun value => lt_of_mem_groupValues, hvalues⟩
  · rw [List.flatMap_append, flatMap_groupValues, hbits]
    simp only [List.flatMap_cons, List.append_assoc]
  · rw [htext, List.map_append, List.append_assoc]
  · rw [List.length_append, List.length_map]
    exact (Nat.dvd_add_right (Nat.dvd_refl 4)).mpr hfour

/-- What `encode` writes is a standard encoding. -/
theorem encodes_encode (bytes : List UInt8) : Encodes bytes (encode bytes) := by
  induction bytes using encode.induct with
  | case1 => exact ⟨[], 0, 0, by simp, rfl, by decide, rfl, by decide, by decide⟩
  | case2 a => exact encodes_one a
  | case3 a b => exact encodes_two a b
  | case4 a b c rest ih => exact ih.group a b c

/-- Values of symbols are told by the bits that they spell. -/
theorem eq_of_flatMap_bits {values others : List ℕ} (hvalues : ∀ value ∈ values, value < 64)
    (hothers : ∀ value ∈ others, value < 64)
    (h : values.flatMap (bits 6) = others.flatMap (bits 6)) : values = others := by
  induction values generalizing others with
  | nil =>
      cases others with
      | nil => rfl
      | cons other others => simp [bits] at h
  | cons value values ih =>
      cases others with
      | nil => simp [bits] at h
      | cons other others =>
          obtain ⟨hvalue, hvalues⟩ := List.forall_mem_cons.mp hvalues
          obtain ⟨hother, hothers⟩ := List.forall_mem_cons.mp hothers
          rw [List.flatMap_cons, List.flatMap_cons] at h
          obtain ⟨hfirst, hrest⟩ := List.append_inj h (by rw [length_bits, length_bits])
          have hmod := bits_eq_iff.mp hfirst
          have hsame : value = other := by omega
          rw [hsame, ih hvalues hothers hrest]

theorem length_flatMap_bits {α : Type} (width : ℕ) (f : α → ℕ) (xs : List α) :
    (xs.flatMap fun x => bits width (f x)).length = width * xs.length := by
  induction xs with
  | nil => rfl
  | cons x xs ih =>
      rw [List.flatMap_cons, List.length_append, ih, length_bits, List.length_cons,
        Nat.mul_succ, Nat.add_comm]

/-- Bytes have one standard encoding. How many bits are left over, and how many paddings stand
behind them, follows from the lengths alone; the rest is the uniqueness of digits. -/
theorem Encodes.unique {bytes text other : List UInt8} (h : Encodes bytes text)
    (hother : Encodes bytes other) : text = other := by
  obtain ⟨values, unused, paddings, hvalues, hbits, hunused, htext, hpaddings, hfour⟩ := h
  obtain ⟨values', unused', paddings', hvalues', hbits', hunused', htext', hpaddings', hfour'⟩ :=
    hother
  have hlength := congrArg List.length hbits
  have hlength' := congrArg List.length hbits'
  have hcount : (values.flatMap (bits 6)).length = 6 * values.length :=
    length_flatMap_bits 6 id values
  have hcount' : (values'.flatMap (bits 6)).length = 6 * values'.length :=
    length_flatMap_bits 6 id values'
  have hbytes := length_flatMap_bits 8 UInt8.toNat bytes
  rw [List.length_append, List.length_replicate] at hlength hlength'
  obtain rfl : unused = unused' := by omega
  obtain rfl : values = values' := eq_of_flatMap_bits hvalues hvalues' (hbits.trans hbits'.symm)
  rw [htext, List.length_append, List.length_map, List.length_replicate] at hfour
  rw [htext', List.length_append, List.length_map, List.length_replicate] at hfour'
  obtain rfl : paddings = paddings' := by omega
  exact htext.trans htext'.symm

/-- **`encode` writes the standard encoding**, and there is no other one, so the predicate and the
function say the same and either may be used. -/
theorem encodes_iff {bytes text : List UInt8} : Encodes bytes text ↔ text = encode bytes :=
  ⟨fun h => h.unique (encodes_encode bytes), fun h => h ▸ encodes_encode bytes⟩

/-! ### Symbols -/

/-- A symbol is read as the value that it is written for, and no other byte is read. -/
theorem symbolAt_eq_ok_iff {byte : UInt8} {offset value : ℕ} :
    symbolAt byte offset = .ok value ↔ value < 64 ∧ byte = symbol value := by
  have hwritten : ∀ value < 64, value? (symbol value) = some value := by decide
  have hread : ∀ i : Fin 256, ∀ value ∈ value? (UInt8.ofFin i),
      value < 64 ∧ UInt8.ofFin i = symbol value := by decide +kernel
  rw [symbolAt]
  constructor
  · intro h
    split at h
    · rename_i found hfound
      obtain rfl := Except.ok.inj h
      exact hread byte.toFin found hfound
    · cases h
  · rintro ⟨hvalue, rfl⟩
    rw [hwritten value hvalue]

example : (List.range 64).map symbol =
    Text.encode "ABCDEFGHIJKLMNOPQRSTUVWXYZabcdefghijklmnopqrstuvwxyz0123456789+/" := by
  decide +kernel

theorem symbol_ne_padding {value : ℕ} (h : value < 64) : symbol value ≠ padding := by
  have hall : ∀ value < 64, symbol value ≠ padding := by decide
  exact hall value h

/-! ### The last group -/

variable {start place : ℕ} {values : List ℕ} {group bytes : List UInt8} {ending : Ending}

/-- Paddings behind a padding are counted. -/
theorem readEnding_replicate (hplace : 2 ≤ place) (first paddings more : ℕ) :
    readEnding start values (some first) paddings place (List.replicate more padding) =
      .ok ⟨values, paddings + more⟩ := by
  induction more generalizing paddings place with
  | zero => rfl
  | succ more ih =>
      rw [List.replicate_succ, readEnding, if_pos rfl, if_neg (by omega), Option.some_or,
        ih (by omega), Nat.add_right_comm, Nat.add_assoc]

/-- Symbols are read one after another, and then the paddings, of which there may be none among the
first two characters. -/
theorem readEnding_symbols {more : List ℕ} {paddings : ℕ} (hmore : ∀ value ∈ more, value < 64)
    (hplace : 0 < paddings → 2 ≤ place + more.length) :
    readEnding start values none 0 place (more.map symbol ++ List.replicate paddings padding) =
      .ok ⟨values ++ more, paddings⟩ := by
  induction more generalizing values place with
  | nil =>
      rw [List.map_nil, List.nil_append, List.append_nil]
      cases paddings with
      | zero => rfl
      | succ paddings =>
          have htwo : 2 ≤ place := hplace (Nat.succ_pos paddings)
          rw [List.replicate_succ, readEnding, if_pos rfl, if_neg (by omega), Option.none_or,
            readEnding_replicate (by omega), Nat.zero_add, Nat.add_comm]
  | cons value more ih =>
      obtain ⟨hvalue, hmore⟩ := List.forall_mem_cons.mp hmore
      have hread : symbolAt (symbol value) (start + place) = .ok value :=
        symbolAt_eq_ok_iff.mpr ⟨hvalue, rfl⟩
      have hlater : 0 < paddings → 2 ≤ place + 1 + more.length := fun h => by
        have htwo := hplace h
        rw [List.length_cons] at htwo
        omega
      rw [List.map_cons, List.cons_append, readEnding, if_neg (symbol_ne_padding hvalue), hread]
      dsimp only
      rw [ih hmore hlater, List.append_assoc, List.singleton_append]

/-- Nothing but paddings is read behind a padding. -/
theorem eq_replicate_of_readEnding {first paddings : ℕ}
    (h : readEnding start values (some first) paddings place group = .ok ending) :
    ∃ more, group = List.replicate more padding ∧ ending = ⟨values, paddings + more⟩ := by
  induction group generalizing paddings place with
  | nil => exact ⟨0, rfl, (Except.ok.inj h).symm⟩
  | cons byte rest ih =>
      rw [readEnding] at h
      split at h
      · rename_i hbyte
        split at h
        · cases h
        · obtain ⟨more, hrest, hending⟩ := ih h
          refine ⟨more + 1, ?_, ?_⟩
          · rw [hbyte, hrest, List.replicate_succ]
          · rw [hending, Nat.add_right_comm, Nat.add_assoc]
      · cases h

/-- What is read as the last group are symbols and the paddings behind them, of which there is none
among the first two characters. -/
theorem eq_symbols_of_readEnding
    (h : readEnding start values none 0 place group = .ok ending) :
    ∃ more, (∀ value ∈ more, value < 64) ∧ ending.values = values ++ more ∧
      group = more.map symbol ++ List.replicate ending.paddings padding ∧
      (0 < ending.paddings → 2 ≤ place + more.length) := by
  induction group generalizing values place with
  | nil =>
      obtain rfl := Except.ok.inj h
      exact ⟨[], by simp, by simp, rfl, fun h => absurd h (Nat.lt_irrefl 0)⟩
  | cons byte rest ih =>
      rw [readEnding] at h
      split at h
      · rename_i hbyte
        split at h
        · cases h
        · rename_i hplace
          obtain ⟨more, hrest, rfl⟩ := eq_replicate_of_readEnding h
          refine ⟨[], by simp, by simp, ?_, fun _ => by omega⟩
          rw [hbyte, hrest, ← List.replicate_succ, Nat.zero_add, Nat.add_comm]
          rfl
      · split at h
        · cases h
        · rename_i value hread
          obtain ⟨hvalue, hwritten⟩ := symbolAt_eq_ok_iff.mp hread
          obtain ⟨more, hmore, hvalues, hrest, hplace⟩ := ih h
          refine ⟨value :: more, List.forall_mem_cons.mpr ⟨hvalue, hmore⟩, ?_, ?_, fun h => ?_⟩
          · rw [hvalues, List.append_assoc, List.singleton_append]
          · rw [hwritten, List.map_cons, List.cons_append, ← hrest]
          · have htwo := hplace h
            rw [List.length_cons]
            omega

/-- The bytes of a number are those that it was made of. -/
theorem groupBytes_of_eq {w x y z : ℕ} {a b c : UInt8}
    (h : ((w * 64 + x) * 64 + y) * 64 + z = (a.toNat * 256 + b.toNat) * 256 + c.toNat) :
    groupBytes w x y z = [a, b, c] := by
  have ha := a.toNat_lt
  have hb := b.toNat_lt
  have hc := c.toNat_lt
  have hfirst : (((w * 64 + x) * 64 + y) * 64 + z) / 65536 = a.toNat := by omega
  have hsecond : (((w * 64 + x) * 64 + y) * 64 + z) / 256 % 256 = b.toNat := by omega
  have hthird : (((w * 64 + x) * 64 + y) * 64 + z) % 256 = c.toNat := by omega
  simp only [groupBytes, hfirst, hsecond, hthird, UInt8.ofNat_toNat]

/-- The values of a group are four values of symbols that stand for its bytes. -/
theorem exists_groupValues (a b c : UInt8) :
    ∃ w x y z, groupValues a b c = [w, x, y, z] ∧ (w < 64 ∧ x < 64 ∧ y < 64 ∧ z < 64) ∧
      groupBytes w x y z = [a, b, c] := by
  have ha := a.toNat_lt
  have hb := b.toNat_lt
  have hc := c.toNat_lt
  exact ⟨_, _, _, _, rfl, ⟨by omega, by omega, by omega, by omega⟩, groupBytes_of_eq (by omega)⟩

/-- Two symbols and two paddings are decoded to one byte, unless bits are left over. -/
theorem decodeEnding_two {w x : ℕ} (hw : w < 64) (hx : x < 64) :
    decodeEnding start ([w, x].map symbol ++ List.replicate 2 padding) =
      if x % 16 = 0 then .ok ((groupBytes w x 0 0).take 1)
      else .error (.invalidLastSymbol (symbol x) (start + 1)) := by
  have hread : readEnding start [] none 0 0 ([w, x].map symbol ++ List.replicate 2 padding) =
      .ok ⟨[w, x], 2⟩ :=
    readEnding_symbols (by simp [hw, hx]) (by simp)
  rw [decodeEnding, hread]
  simp

/-- Three symbols and a padding are decoded to two bytes, unless bits are left over. -/
theorem decodeEnding_three {w x y : ℕ} (hw : w < 64) (hx : x < 64) (hy : y < 64) :
    decodeEnding start ([w, x, y].map symbol ++ List.replicate 1 padding) =
      if y % 4 = 0 then .ok ((groupBytes w x y 0).take 2)
      else .error (.invalidLastSymbol (symbol y) (start + 2)) := by
  have hread : readEnding start [] none 0 0 ([w, x, y].map symbol ++ List.replicate 1 padding) =
      .ok ⟨[w, x, y], 1⟩ :=
    readEnding_symbols (by simp [hw, hx, hy]) (by simp)
  rw [decodeEnding, hread]
  simp

/-- Four symbols are decoded to three bytes. -/
theorem decodeEnding_four {w x y z : ℕ} (hw : w < 64) (hx : x < 64) (hy : y < 64) (hz : z < 64) :
    decodeEnding start ([w, x, y, z].map symbol ++ List.replicate 0 padding) =
      .ok (groupBytes w x y z) := by
  have hread : readEnding start [] none 0 0
      ([w, x, y, z].map symbol ++ List.replicate 0 padding) = .ok ⟨[w, x, y, z], 0⟩ :=
    readEnding_symbols (by simp [hw, hx, hy, hz]) (by simp)
  rw [decodeEnding, hread]
  simp

/-- The last group of an encoding is decoded to what was encoded. -/
theorem decodeEnding_encode (hlength : bytes.length ≤ 3) :
    decodeEnding start (encode bytes) = .ok bytes := by
  match bytes with
  | [] => rfl
  | [a] =>
      have ha := a.toNat_lt
      have hbytes : groupBytes (a.toNat * 16 / 64) (a.toNat * 16 % 64) 0 0 = [a, 0, 0] :=
        groupBytes_of_eq (by rw [UInt8.toNat_zero]; omega)
      rw [encode_one, decodeEnding_two (by omega) (by omega), if_pos (by omega), hbytes]
      rfl
  | [a, b] =>
      have ha := a.toNat_lt
      have hb := b.toNat_lt
      have hbytes : groupBytes ((a.toNat * 256 + b.toNat) * 4 / 4096)
          ((a.toNat * 256 + b.toNat) * 4 / 64 % 64) ((a.toNat * 256 + b.toNat) * 4 % 64) 0 =
          [a, b, 0] :=
        groupBytes_of_eq (by rw [UInt8.toNat_zero]; omega)
      rw [encode_two, decodeEnding_three (by omega) (by omega) (by omega), if_pos (by omega),
        hbytes]
      rfl
  | [a, b, c] =>
      obtain ⟨w, x, y, z, hvalues, ⟨hw, hx, hy, hz⟩, hbytes⟩ := exists_groupValues a b c
      rw [encode_three, hvalues, decodeEnding_four hw hx hy hz, hbytes]

/-- The bytes of four values make up the same number. -/
theorem exists_groupBytes {w x y z : ℕ} (hw : w < 64) (hx : x < 64) (hy : y < 64) (hz : z < 64) :
    ∃ a b c : UInt8, groupBytes w x y z = [a, b, c] ∧
      (a.toNat * 256 + b.toNat) * 256 + c.toNat = ((w * 64 + x) * 64 + y) * 64 + z := by
  refine ⟨_, _, _, rfl, ?_⟩
  simp only [UInt8.toNat_ofNat']
  omega

/-- The byte of two symbols is encoded to them. -/
theorem encode_take_two {w x : ℕ} (hw : w < 64) (hx : x < 64) (hunused : x % 16 = 0) :
    encode ((groupBytes w x 0 0).take 1) = [w, x].map symbol ++ List.replicate 2 padding := by
  obtain ⟨a, b, c, hbytes, hnumber⟩ := exists_groupBytes hw hx (by decide : 0 < 64)
    (by decide : 0 < 64)
  have hb := b.toNat_lt
  have hc := c.toNat_lt
  have hfirst : a.toNat * 16 / 64 = w := by omega
  have hsecond : a.toNat * 16 % 64 = x := by omega
  rw [hbytes, List.take_succ_cons, List.take_zero, encode_one, hfirst, hsecond]

/-- The bytes of three symbols are encoded to them. -/
theorem encode_take_three {w x y : ℕ} (hw : w < 64) (hx : x < 64) (hy : y < 64)
    (hunused : y % 4 = 0) :
    encode ((groupBytes w x y 0).take 2) = [w, x, y].map symbol ++ List.replicate 1 padding := by
  obtain ⟨a, b, c, hbytes, hnumber⟩ := exists_groupBytes hw hx hy (by decide : 0 < 64)
  have hc := c.toNat_lt
  have hfirst : (a.toNat * 256 + b.toNat) * 4 / 4096 = w := by omega
  have hsecond : (a.toNat * 256 + b.toNat) * 4 / 64 % 64 = x := by omega
  have hthird : (a.toNat * 256 + b.toNat) * 4 % 64 = y := by omega
  rw [hbytes, List.take_succ_cons, List.take_succ_cons, List.take_zero, encode_two, hfirst,
    hsecond, hthird]

/-- The bytes of four symbols come first in an encoding as these. -/
theorem encode_groupBytes_append {w x y z : ℕ} (hw : w < 64) (hx : x < 64) (hy : y < 64)
    (hz : z < 64) (rest : List UInt8) :
    encode (groupBytes w x y z ++ rest) = [w, x, y, z].map symbol ++ encode rest := by
  obtain ⟨a, b, c, hbytes, hnumber⟩ := exists_groupBytes hw hx hy hz
  have hvalues : groupValues a b c = [w, x, y, z] := by
    have hfirst : (((w * 64 + x) * 64 + y) * 64 + z) / 262144 = w := by omega
    have hsecond : (((w * 64 + x) * 64 + y) * 64 + z) / 4096 % 64 = x := by omega
    have hthird : (((w * 64 + x) * 64 + y) * 64 + z) / 64 % 64 = y := by omega
    have hfourth : (((w * 64 + x) * 64 + y) * 64 + z) % 64 = z := by omega
    rw [groupValues, hnumber]
    simp only [hfirst, hsecond, hthird, hfourth]
  rw [hbytes, ← hvalues]
  exact encode_group a b c rest

/-- A last group that is decoded holds no symbols, or two or more, and is filled up. -/
theorem filled_of_decodeEnding (hread : readEnding start [] none 0 0 group = .ok ending)
    (h : decodeEnding start group = .ok bytes) :
    (group = [] ∨ 2 ≤ ending.values.length) ∧ 4 ∣ ending.values.length + ending.paddings := by
  rw [decodeEnding, hread] at h
  dsimp only at h
  split at h
  · cases h
  · rename_i hfew
    split at h
    · cases h
    · rename_i hfilled
      rw [not_and_or, not_not, Nat.not_lt] at hfew
      exact ⟨hfew, Nat.dvd_of_mod_eq_zero (not_not.mp hfilled)⟩

/-- A last group of at most four characters that is decoded is the encoding of what it is decoded
to. -/
theorem eq_encode_of_decodeEnding (hlength : group.length ≤ 4)
    (h : decodeEnding start group = .ok bytes) : group = encode bytes := by
  obtain ⟨⟨values, paddings⟩, hread⟩ : ∃ ending,
      readEnding start [] none 0 0 group = .ok ending := by
    cases hread : readEnding start [] none 0 0 group with
    | ok ending => exact ⟨ending, rfl⟩
    | error fault => rw [decodeEnding, hread] at h; cases h
  obtain ⟨more, hmore, hvalues, hgroup, -⟩ := eq_symbols_of_readEnding hread
  obtain ⟨hfew, hfilled⟩ := filled_of_decodeEnding hread h
  obtain rfl : values = more := hvalues
  dsimp only at hgroup hfew hfilled
  have hcount : group.length = values.length + paddings := by
    rw [hgroup, List.length_append, List.length_map, List.length_replicate]
  match values with
  | [] =>
      -- paddings alone are no group that is filled up
      obtain rfl : group = [] := hfew.resolve_right (by simp)
      exact (Except.ok.inj h ▸ rfl : [] = encode bytes)
  | [w] =>
      obtain rfl : group = [] := hfew.resolve_right (by simp)
      simp at hgroup
  | [w, x] =>
      obtain rfl : paddings = 2 := by
        simp only [List.length_cons, List.length_nil] at hcount hfilled
        omega
      simp only [List.forall_mem_cons] at hmore
      obtain ⟨hw, hx, -⟩ := hmore
      rw [hgroup, decodeEnding_two hw hx] at h
      split at h
      · rename_i hunused
        rw [hgroup, ← Except.ok.inj h, encode_take_two hw hx hunused]
      · cases h
  | [w, x, y] =>
      obtain rfl : paddings = 1 := by
        simp only [List.length_cons, List.length_nil] at hcount hfilled
        omega
      simp only [List.forall_mem_cons] at hmore
      obtain ⟨hw, hx, hy, -⟩ := hmore
      rw [hgroup, decodeEnding_three hw hx hy] at h
      split at h
      · rename_i hunused
        rw [hgroup, ← Except.ok.inj h, encode_take_three hw hx hy hunused]
      · cases h
  | [w, x, y, z] =>
      obtain rfl : paddings = 0 := by
        simp only [List.length_cons, List.length_nil] at hcount
        omega
      simp only [List.forall_mem_cons] at hmore
      obtain ⟨hw, hx, hy, hz, -⟩ := hmore
      rw [hgroup, decodeEnding_four hw hx hy hz] at h
      have hencoded := encode_groupBytes_append hw hx hy hz []
      rw [List.append_nil] at hencoded
      rw [hgroup, ← Except.ok.inj h, hencoded]
      rfl
  | _ :: _ :: _ :: _ :: _ :: _ =>
      simp only [List.length_cons] at hcount
      omega

/-! ### Decoding -/

/-- Up to four characters are a last group. -/
theorem decodeFrom_of_length_le (hlength : group.length ≤ 4) :
    decodeFrom start group = decodeEnding start group := by
  match group with
  | [] | [_] | [_, _] | [_, _, _] | [_, _, _, _] => rfl
  | _ :: _ :: _ :: _ :: _ :: _ =>
      simp only [List.length_cons] at hlength
      omega

/-- A group of symbols is decoded before the rest. -/
theorem decodeFrom_symbols {w x y z : ℕ} {rest : List UInt8} (hw : w < 64) (hx : x < 64)
    (hy : y < 64) (hz : z < 64) (hrest : rest ≠ []) :
    decodeFrom start ([w, x, y, z].map symbol ++ rest) =
      (decodeFrom (start + 4) rest).map (groupBytes w x y z ++ ·) := by
  have hread : ∀ {value offset : ℕ}, value < 64 → symbolAt (symbol value) offset = .ok value :=
    fun hvalue => symbolAt_eq_ok_iff.mpr ⟨hvalue, rfl⟩
  obtain ⟨e, rest, rfl⟩ := List.exists_cons_of_ne_nil hrest
  simp only [List.map_cons, List.map_nil, List.cons_append, List.nil_append, decodeFrom, hread hw,
    hread hx, hread hy, hread hz]
  cases decodeFrom (start + 4) (e :: rest) <;> rfl

/-- Four characters before a rest that are decoded are symbols, and the rest is decoded. -/
theorem symbols_of_decodeFrom {a b c d e : UInt8} {rest : List UInt8}
    (h : decodeFrom start (a :: b :: c :: d :: e :: rest) = .ok bytes) :
    ∃ w x y z, (w < 64 ∧ x < 64 ∧ y < 64 ∧ z < 64) ∧
      [a, b, c, d] = [w, x, y, z].map symbol ∧
      ∃ behind, decodeFrom (start + 4) (e :: rest) = .ok behind ∧
        bytes = groupBytes w x y z ++ behind := by
  rw [decodeFrom] at h
  split at h
  · rename_i w x y z hreadw hreadx hready hreadz
    obtain ⟨hw, rfl⟩ := symbolAt_eq_ok_iff.mp hreadw
    obtain ⟨hx, rfl⟩ := symbolAt_eq_ok_iff.mp hreadx
    obtain ⟨hy, rfl⟩ := symbolAt_eq_ok_iff.mp hready
    obtain ⟨hz, rfl⟩ := symbolAt_eq_ok_iff.mp hreadz
    split at h
    · rename_i behind hbehind
      exact ⟨w, x, y, z, ⟨hw, hx, hy, hz⟩, rfl, behind, hbehind, (Except.ok.inj h).symm⟩
    · cases h
  all_goals cases h

/-- An encoding is decoded to what was encoded. -/
theorem decodeFrom_encode (start : ℕ) (bytes : List UInt8) :
    decodeFrom start (encode bytes) = .ok bytes := by
  induction bytes using encode.induct generalizing start with
  | case1 => rfl
  | case2 a => rw [decodeFrom_of_length_le (by simp [encode]), decodeEnding_encode (by simp)]
  | case3 a b => rw [decodeFrom_of_length_le (by simp [encode]), decodeEnding_encode (by simp)]
  | case4 a b c rest ih =>
      by_cases hrest : rest = []
      · subst hrest
        rw [decodeFrom_of_length_le (by simp [encode]), decodeEnding_encode (by simp)]
      · have hbehind : encode rest ≠ [] := fun hempty => by
          have hnone := ih 0
          rw [hempty] at hnone
          exact hrest (Except.ok.inj hnone).symm
        obtain ⟨w, x, y, z, hvalues, ⟨hw, hx, hy, hz⟩, hbytes⟩ := exists_groupValues a b c
        rw [encode_group, hvalues, decodeFrom_symbols hw hx hy hz hbehind, ih, Except.map, hbytes]
        rfl

/-- What is decoded is the encoding of what it is decoded to. -/
theorem eq_encode_of_decodeFrom :
    ∀ {start : ℕ} {text bytes : List UInt8}, decodeFrom start text = .ok bytes → text = encode bytes
  | _, [], _, h | _, [_], _, h | _, [_, _], _, h | _, [_, _, _], _, h | _, [_, _, _, _], _, h =>
      eq_encode_of_decodeEnding (by simp) h
  | _, _ :: _ :: _ :: _ :: _ :: _, _, h => by
      obtain ⟨w, x, y, z, ⟨hw, hx, hy, hz⟩, hgroup, behind, hbehind, rfl⟩ :=
        symbols_of_decodeFrom h
      rw [encode_groupBytes_append hw hx hy hz, ← hgroup, ← eq_encode_of_decodeFrom hbehind]
      rfl

/-- **A text is decoded to bytes just when it is their encoding.** Left-over bits, missing or
additional paddings and bytes outside of the alphabet are all refused, so no two texts are decoded
alike. -/
theorem decode_eq_ok_iff {text bytes : List UInt8} :
    decode text = .ok bytes ↔ text = encode bytes := by
  rw [decode]
  cases hlast : text.getLast? with
  | none =>
      obtain rfl := List.getLast?_eq_none_iff.mp hlast
      constructor
      · intro h
        rw [← Except.ok.inj h]
        rfl
      · intro h
        have hempty := decodeFrom_encode 0 bytes
        rwa [← h] at hempty
  | some last =>
      dsimp only
      constructor
      · intro h
        split at h
        · cases h
        · exact eq_encode_of_decodeFrom h
      · rintro rfl
        -- an encoding is made of groups of four, so it has no character too many
        obtain ⟨_, _, _, -, -, -, -, -, hfour⟩ := encodes_encode bytes
        rw [if_neg (fun hmany => by omega), decodeFrom_encode]

/-! ### The encoding as a text -/

theorem symbol_lt (value : ℕ) : symbol value < 0x80 := by
  by_cases hvalue : value < 64
  · have hall : ∀ value < 64, symbol value < 0x80 := by decide
    exact hall value hvalue
  · rw [symbol, if_neg (by omega), if_neg (by omega), if_neg (by omega), if_neg (by omega)]
    decide

theorem lt_of_mem_encode {byte : UInt8} (h : byte ∈ encode bytes) : byte < 0x80 := by
  obtain ⟨values, _, paddings, -, -, -, htext, -⟩ := encodes_encode bytes
  rw [htext, List.mem_append, List.mem_map, List.mem_replicate] at h
  rcases h with ⟨value, -, rfl⟩ | ⟨-, rfl⟩
  · exact symbol_lt value
  · decide

/-- The text that is rendered is made of the bytes of the encoding. -/
theorem encode_render (bytes : List UInt8) : Text.encode (render bytes) = encode bytes := by
  have hnumber : ∀ n < 0x80, (Char.ofNat n).toNat = n := by decide
  have hbyte : ∀ byte ∈ encode bytes,
      String.utf8EncodeChar (Char.ofNat byte.toNat) = [byte] := by
    intro byte hmem
    have hlt : byte.toNat < 0x80 := UInt8.lt_iff_toNat_lt.mp (lt_of_mem_encode hmem)
    have hsame := hnumber byte.toNat hlt
    rw [Text.utf8EncodeChar_of_lt (by rwa [hsame]), hsame, UInt8.ofNat_toNat]
  rw [render, Text.encode_ofList, Text.bytes, List.flatMap_map,
    List.flatMap_congr hbyte, List.flatMap_singleton']

end CachedParameters.Base64
