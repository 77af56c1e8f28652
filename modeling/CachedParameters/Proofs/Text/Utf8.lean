import CachedParameters.Text.Bytes
import Mathlib.Data.Fin.Basic
import Mathlib.Data.List.Basic

/-!
# The bytes of texts

A text is encoded character by character. A character of the ASCII range is one byte, which is its
number; the bytes of any other character lie beyond that range, so a reader that looks for an ASCII
character never mistakes a part of another one for it.

Not all bytes are those of a text. `WellFormed` tells the bytes of texts by the ranges that each of
them lies in, the way the encoding is tabled, and without the number of a character.

A leading byte announces how many bytes go on with it, and `spread` lays any number out over that
many of them, whether or not a character has this number and needs so many bytes. Sequences and
ranges meet here: a sequence lies in the ranges of a character exactly when the number that it lays
out is a code point and needs all of its bytes.

## Main results

- `Text.encode_ofList`: a text is encoded character by character.
- `Text.utf8EncodeChar_of_lt`, `Text.le_of_mem_utf8EncodeChar`: an ASCII character is one byte, and
  the bytes of other characters are no ASCII characters.
- `Text.isCharacter_iff`: what lies in the ranges of a character are the bytes of one.
- `Text.wellFormed_iff`: well-formed bytes are those of any characters.
- `Text.decode?_eq_none_iff`: bytes have no decoding exactly when they are not well-formed.
-/

namespace CachedParameters.Text

/-! ### Texts and their bytes -/

/-- The bytes of characters, one character behind another. The text of the characters is encoded
so. -/
def bytes (characters : List Char) : List UInt8 := characters.flatMap String.utf8EncodeChar

@[simp] theorem bytes_nil : bytes [] = [] := rfl

@[simp] theorem bytes_cons (c : Char) (characters : List Char) :
    bytes (c :: characters) = String.utf8EncodeChar c ++ bytes characters := rfl

@[simp] theorem bytes_append (front back : List Char) :
    bytes (front ++ back) = bytes front ++ bytes back := List.flatMap_append

theorem encode_ofList (characters : List Char) :
    encode (String.ofList characters) = bytes characters := by
  rw [encode, String.toByteArray_ofList, List.utf8Encode]
  simp [bytes]

theorem encode_eq (text : String) : encode text = bytes text.toList := by
  rw [← encode_ofList, String.ofList_toList]

/-- One text behind another is encoded as the one behind the other. -/
theorem encode_append (front back : String) :
    encode (front ++ back) = encode front ++ encode back := by
  rw [encode_eq, encode_eq, encode_eq, String.toList_append, bytes_append]

/-- What holds of all ASCII characters can be checked by their numbers. -/
theorem forall_of_ascii {property : Char → Prop} (h : ∀ n < 0x80, property (Char.ofNat n))
    {c : Char} (hc : c.toNat < 0x80) : property c := by
  have hproperty := h c.toNat hc
  rwa [Char.ofNat_toNat] at hproperty

/-- An ASCII character is one byte, which is its number. -/
theorem utf8EncodeChar_of_lt {c : Char} (h : c.toNat < 0x80) :
    String.utf8EncodeChar c = [UInt8.ofNat c.toNat] :=
  if_pos (Nat.le_of_lt_succ h)

/-- The bytes of any other character lie beyond the ASCII range. -/
theorem le_of_mem_utf8EncodeChar {c : Char} (h : 0x80 ≤ c.toNat) {byte : UInt8}
    (hbyte : byte ∈ String.utf8EncodeChar c) : 0x80 ≤ byte := by
  have hc : ¬ c.val.toNat ≤ 127 := Nat.not_le_of_gt h
  have hadd : ∀ k m : ℕ, 0x80 ≤ m → k + m < 0x100 → 0x80 ≤ UInt8.ofNat (k + m) := by
    intro k m hm hsum
    rw [UInt8.le_iff_toNat_le, UInt8.toNat_ofNat_of_lt' hsum]
    exact Nat.le_trans hm (Nat.le_add_left m k)
  simp only [String.utf8EncodeChar, if_neg hc] at hbyte
  split_ifs at hbyte <;> simp only [List.mem_cons, List.not_mem_nil, or_false] at hbyte
  · rcases hbyte with rfl | rfl <;> exact hadd _ _ (by omega) (by omega)
  · rcases hbyte with rfl | rfl | rfl <;> exact hadd _ _ (by omega) (by omega)
  · rcases hbyte with rfl | rfl | rfl | rfl <;> exact hadd _ _ (by omega) (by omega)

/-! ### The bytes of a character -/

/-- The byte goes on with a character that another byte has begun. -/
def Continues (byte : UInt8) : Prop := 0x80 ≤ byte ∧ byte ≤ 0xBF

instance (byte : UInt8) : Decidable (Continues byte) := inferInstanceAs (Decidable (_ ∧ _))

/-- The bytes of one character, by the ranges that they lie in. Some leading bytes leave fewer
values to the byte behind them: `0xE0` and `0xF0` would lay out numbers that need fewer bytes,
`0xED` halves of surrogate pairs, and `0xF4` numbers beyond the last code point. -/
inductive IsCharacter : List UInt8 → Prop where
  | one {a : UInt8} : a ≤ 0x7F → IsCharacter [a]
  | two {a b : UInt8} : 0xC2 ≤ a → a ≤ 0xDF → Continues b → IsCharacter [a, b]
  | three {a b c : UInt8} : 0xE0 ≤ a → a ≤ 0xEF → (a = 0xE0 → 0xA0 ≤ b) → (a = 0xED → b ≤ 0x9F) →
      Continues b → Continues c → IsCharacter [a, b, c]
  | four {a b c d : UInt8} : 0xF0 ≤ a → a ≤ 0xF4 → (a = 0xF0 → 0x90 ≤ b) → (a = 0xF4 → b ≤ 0x8F) →
      Continues b → Continues c → Continues d → IsCharacter [a, b, c, d]

/-- Bytes of characters, one behind another. -/
inductive WellFormed : List UInt8 → Prop where
  | nil : WellFormed []
  | cons {front back : List UInt8} :
      IsCharacter front → WellFormed back → WellFormed (front ++ back)

/-! ### Numbers laid out over bytes -/

/-- The leading byte announces that so many bytes go on with it. -/
def Leads : Fin 4 → UInt8 → Prop
  | 0, lead => lead ≤ 0x7F
  | 1, lead => 0xC0 ≤ lead ∧ lead ≤ 0xDF
  | 2, lead => 0xE0 ≤ lead ∧ lead ≤ 0xEF
  | 3, lead => 0xF0 ≤ lead ∧ lead ≤ 0xF7

/-- How many numbers there is room for when so many bytes go on with the leading one. -/
def room : Fin 4 → ℕ
  | 0 => 0x80
  | 1 => 0x800
  | 2 => 0x10000
  | 3 => 0x200000

/-- The least number that needs so many bytes behind the leading one. -/
def least : Fin 4 → ℕ
  | 0 => 0
  | 1 => 0x80
  | 2 => 0x800
  | 3 => 0x10000

/-- A number laid out over a leading byte and so many that go on with it, six bits in each. -/
def spread : Fin 4 → ℕ → List UInt8
  | 0, n => [.ofNat n]
  | 1, n => [.ofNat (0xC0 + n / 0x40), .ofNat (0x80 + n % 0x40)]
  | 2, n => [.ofNat (0xE0 + n / 0x1000), .ofNat (0x80 + n / 0x40 % 0x40), .ofNat (0x80 + n % 0x40)]
  | 3, n => [.ofNat (0xF0 + n / 0x40000), .ofNat (0x80 + n / 0x1000 % 0x40),
      .ofNat (0x80 + n / 0x40 % 0x40), .ofNat (0x80 + n % 0x40)]

/-- A leading byte with as many bytes behind it as it announces. -/
inductive IsSequence (behind : Fin 4) : List UInt8 → Prop where
  | mk {lead : UInt8} {others : List UInt8} : Leads behind lead → others.length = behind →
      (∀ byte ∈ others, Continues byte) → IsSequence behind (lead :: others)

/-- A byte announces one number of bytes. -/
theorem Leads.unique {k l : Fin 4} {lead : UInt8} (hk : Leads k lead) (hl : Leads l lead) :
    k = l := by
  match k, l with
  | 0, 0 | 1, 1 | 2, 2 | 3, 3 => rfl
  | 0, 1 | 0, 2 | 0, 3 | 1, 0 | 1, 2 | 1, 3 | 2, 0 | 2, 1 | 2, 3 | 3, 0 | 3, 1 | 3, 2 =>
    simp only [Leads, UInt8.le_iff_toNat_le, UInt8.reduceToNat] at hk hl
    omega

/-- A leading byte neither goes on with a character nor is it one of the bytes in no character. -/
theorem Leads.begins {k : Fin 4} {lead : UInt8} (h : Leads k lead) :
    ¬ Continues lead ∧ ¬ 0xF8 ≤ lead := by
  match k with
  | 0 | 1 | 2 | 3 =>
    simp only [Leads, Continues, UInt8.le_iff_toNat_le, UInt8.reduceToNat] at h ⊢
    omega

/-- Every other byte is a leading one. -/
theorem exists_leads {byte : UInt8} (hcontinues : ¬ Continues byte) (hused : ¬ 0xF8 ≤ byte) :
    ∃ k, Leads k byte := by
  by_contra hnone
  have h0 := not_exists.mp hnone 0
  have h1 := not_exists.mp hnone 1
  have h2 := not_exists.mp hnone 2
  have h3 := not_exists.mp hnone 3
  simp only [Leads, Continues, UInt8.le_iff_toNat_le, UInt8.reduceToNat] at *
  omega

/-- A number that needs fewer bytes has room in more. -/
theorem least_le_room (k : Fin 4) : least k ≤ room k := by
  match k with
  | 0 | 1 | 2 | 3 => decide

/-- A number is laid out over a byte at least. -/
theorem spread_ne_nil (k : Fin 4) (n : ℕ) : spread k n ≠ [] := by
  match k with
  | 0 | 1 | 2 | 3 => exact List.cons_ne_nil _ _

/-- Six bits behind the leading byte go on with the character. -/
theorem continues_bits (n : ℕ) : Continues (.ofNat (0x80 + n % 0x40)) := by
  simp only [Continues, UInt8.le_iff_toNat_le, UInt8.toNat_ofNat', UInt8.reduceToNat]
  omega

/-- A number that there is room for is laid out as a sequence. -/
theorem isSequence_spread {k : Fin 4} {n : ℕ} (h : n < room k) : IsSequence k (spread k n) := by
  match k with
  | 0 | 1 | 2 | 3 =>
    refine .mk ?_ rfl (by simp [-UInt8.ofNat_add, continues_bits])
    simp only [room, Leads, UInt8.le_iff_toNat_le, UInt8.toNat_ofNat', UInt8.reduceToNat] at h ⊢
    omega

/-- Every sequence lays out a number: the bits that its bytes have to spare for it. -/
theorem IsSequence.exists_spread {k : Fin 4} {bytes : List UInt8} (h : IsSequence k bytes) :
    ∃ n < room k, bytes = spread k n := by
  obtain @⟨a, others, hlead, hlength, hothers⟩ := h
  match k, others, hlength with
  | 0, [], _ =>
    exact ⟨a.toNat, Nat.lt_succ_of_le hlead, by rw [spread, UInt8.ofNat_toNat]⟩
  | 1, [b], _ =>
    refine ⟨(a.toNat - 0xC0) * 0x40 + (b.toNat - 0x80), ?_, ?_⟩ <;>
    · simp only [Leads, Continues, UInt8.le_iff_toNat_le, UInt8.reduceToNat,
        List.forall_mem_cons] at hlead hothers
      simp only [room, spread, List.cons.injEq, ← UInt8.toNat_inj, UInt8.toNat_ofNat', and_true]
      omega
  | 2, [b, c], _ =>
    refine ⟨(a.toNat - 0xE0) * 0x1000 + (b.toNat - 0x80) * 0x40 + (c.toNat - 0x80), ?_, ?_⟩ <;>
    · simp only [Leads, Continues, UInt8.le_iff_toNat_le, UInt8.reduceToNat,
        List.forall_mem_cons] at hlead hothers
      simp only [room, spread, List.cons.injEq, ← UInt8.toNat_inj, UInt8.toNat_ofNat', and_true]
      omega
  | 3, [b, c, d], _ =>
    refine ⟨(a.toNat - 0xF0) * 0x40000 + (b.toNat - 0x80) * 0x1000 + (c.toNat - 0x80) * 0x40 +
      (d.toNat - 0x80), ?_, ?_⟩ <;>
    · simp only [Leads, Continues, UInt8.le_iff_toNat_le, UInt8.reduceToNat,
        List.forall_mem_cons] at hlead hothers
      simp only [room, spread, List.cons.injEq, ← UInt8.toNat_inj, UInt8.toNat_ofNat', and_true]
      omega

/-- Of two sequences that the same bytes begin with, one is the other. -/
theorem IsSequence.eq_of_append {k l : Fin 4} {a b front back : List UInt8} (ha : IsSequence k a)
    (hb : IsSequence l b) (h : a ++ front = b ++ back) : k = l ∧ a = b ∧ front = back := by
  obtain ⟨hleada, hlengtha, -⟩ := ha
  obtain ⟨hleadb, hlengthb, -⟩ := hb
  rw [List.cons_append, List.cons_append, List.cons.injEq] at h
  obtain ⟨rfl, hrest⟩ := h
  obtain rfl := hleada.unique hleadb
  obtain ⟨rfl, rfl⟩ := List.append_inj hrest (hlengtha.trans hlengthb.symm)
  exact ⟨rfl, rfl, rfl⟩

/-- The bytes of a character are a sequence. -/
theorem IsCharacter.isSequence {bytes : List UInt8} (h : IsCharacter bytes) :
    ∃ k, IsSequence k bytes := by
  cases h with
  | one ha => exact ⟨0, .mk ha rfl (List.forall_mem_nil _)⟩
  | two hlow hhigh hb =>
    exact ⟨1, .mk ⟨UInt8.le_trans (by decide) hlow, hhigh⟩ rfl (by simp [hb])⟩
  | three hlow hhigh _ _ hb hc => exact ⟨2, .mk ⟨hlow, hhigh⟩ rfl (by simp [hb, hc])⟩
  | four hlow hhigh _ _ hb hc hd =>
    exact ⟨3, .mk ⟨hlow, UInt8.le_trans hhigh (by decide)⟩ rfl (by simp [hb, hc, hd])⟩

theorem IsCharacter.length_pos {front : List UInt8} (h : IsCharacter front) : 0 < front.length := by
  cases h <;> exact Nat.succ_pos _

/-- What is laid out as the bytes of a character needs all of them and is a code point. -/
theorem IsCharacter.of_spread {k : Fin 4} {n : ℕ} (hroom : n < room k)
    (h : IsCharacter (spread k n)) : least k ≤ n ∧ n.isValidChar := by
  match k, h with
  | 0, .one _ =>
    simp only [room, least, Nat.isValidChar] at hroom ⊢
    omega
  | 1, .two hlow _ _ =>
    simp only [room, least, Nat.isValidChar, UInt8.le_iff_toNat_le, UInt8.toNat_ofNat',
      UInt8.reduceToNat] at hroom hlow ⊢
    omega
  | 2, .three _ _ hshort hscalar _ _ =>
    simp only [room, least, Nat.isValidChar, UInt8.le_iff_toNat_le, ← UInt8.toNat_inj,
      UInt8.toNat_ofNat', UInt8.reduceToNat] at hroom hshort hscalar ⊢
    omega
  | 3, .four _ hhigh hshort hscalar _ _ _ =>
    simp only [room, least, Nat.isValidChar, UInt8.le_iff_toNat_le, ← UInt8.toNat_inj,
      UInt8.toNat_ofNat', UInt8.reduceToNat] at hroom hhigh hshort hscalar ⊢
    omega

/-- A code point that needs all of the bytes that it is laid out over is a character. -/
theorem isCharacter_spread {k : Fin 4} {n : ℕ} (hroom : n < room k) (hleast : least k ≤ n)
    (hvalid : n.isValidChar) : IsCharacter (spread k n) := by
  match k with
  | 0 =>
    refine .one ?_
    simp only [room, UInt8.le_iff_toNat_le, UInt8.toNat_ofNat', UInt8.reduceToNat] at hroom ⊢
    omega
  | 1 =>
    refine .two ?_ ?_ (continues_bits _) <;>
    · simp only [room, least, UInt8.le_iff_toNat_le, UInt8.toNat_ofNat',
        UInt8.reduceToNat] at hroom hleast ⊢
      omega
  | 2 =>
    refine .three ?_ ?_ ?_ ?_ (continues_bits _) (continues_bits _) <;>
    · simp only [room, least, Nat.isValidChar, UInt8.le_iff_toNat_le, ← UInt8.toNat_inj,
        UInt8.toNat_ofNat', UInt8.reduceToNat] at hroom hleast hvalid ⊢
      omega
  | 3 =>
    refine .four ?_ ?_ ?_ ?_ (continues_bits _) (continues_bits _) (continues_bits _) <;>
    · simp only [room, least, Nat.isValidChar, UInt8.le_iff_toNat_le, ← UInt8.toNat_inj,
        UInt8.toNat_ofNat', UInt8.reduceToNat] at hroom hleast hvalid ⊢
      omega

/-- A number is laid out over one length only, if it needs all of the bytes. -/
theorem eq_of_least_le {k l : Fin 4} {n : ℕ} (hk : least k ≤ n ∧ n < room k)
    (hl : least l ≤ n ∧ n < room l) : k = l := by
  match k, l with
  | 0, 0 | 1, 1 | 2, 2 | 3, 3 => rfl
  | 0, 1 | 0, 2 | 0, 3 | 1, 0 | 1, 2 | 1, 3 | 2, 0 | 2, 1 | 2, 3 | 3, 0 | 3, 1 | 3, 2 =>
    simp only [least, room] at hk hl
    omega

/-- The bytes of a character lay its number out over as few bytes as there are. -/
theorem utf8EncodeChar_eq_spread (c : Char) :
    ∃ k, (least k ≤ c.toNat ∧ c.toNat < room k) ∧ String.utf8EncodeChar c = spread k c.toNat := by
  have hvalid : c.toNat.isValidChar := c.valid
  have hlt : c.toNat < 0x110000 := by
    simp only [Nat.isValidChar] at hvalid
    omega
  rcases Nat.lt_or_ge c.toNat 0x80 with h0 | h0
  · exact ⟨0, ⟨Nat.zero_le _, h0⟩, utf8EncodeChar_of_lt h0⟩
  have hval : c.val.toNat = c.toNat := rfl
  rcases Nat.lt_or_ge c.toNat 0x800 with h1 | h1
  · refine ⟨1, ⟨h0, h1⟩, ?_⟩
    simp only [String.utf8EncodeChar, spread, hval]
    rw [if_neg (by omega), if_pos (by omega)]
    simp only [List.cons.injEq, ← UInt8.toNat_inj, UInt8.toNat_ofNat', and_true]
    omega
  rcases Nat.lt_or_ge c.toNat 0x10000 with h2 | h2
  · refine ⟨2, ⟨h1, h2⟩, ?_⟩
    simp only [String.utf8EncodeChar, spread, hval]
    rw [if_neg (by omega), if_neg (by omega), if_pos (by omega)]
    simp only [List.cons.injEq, ← UInt8.toNat_inj, UInt8.toNat_ofNat', and_true]
    omega
  · refine ⟨3, ⟨h2, Nat.lt_trans hlt (by decide)⟩, ?_⟩
    simp only [String.utf8EncodeChar, spread, hval]
    rw [if_neg (by omega), if_neg (by omega), if_neg (by omega)]
    simp only [List.cons.injEq, ← UInt8.toNat_inj, UInt8.toNat_ofNat', and_true]
    omega

/-- The bytes that lie in the ranges of a character are those of some character. -/
theorem isCharacter_iff {bytes : List UInt8} :
    IsCharacter bytes ↔ ∃ c, bytes = String.utf8EncodeChar c := by
  constructor
  · intro h
    obtain ⟨k, hsequence⟩ := h.isSequence
    obtain ⟨n, hroom, rfl⟩ := hsequence.exists_spread
    obtain ⟨hleast, hvalid⟩ := h.of_spread hroom
    obtain ⟨l, hl, hencode⟩ := utf8EncodeChar_eq_spread (Char.ofNatAux n hvalid)
    have hnumber : (Char.ofNatAux n hvalid).toNat = n := rfl
    rw [hnumber] at hl hencode
    obtain rfl := eq_of_least_le ⟨hleast, hroom⟩ hl
    exact ⟨Char.ofNatAux n hvalid, hencode.symm⟩
  · rintro ⟨c, rfl⟩
    obtain ⟨k, ⟨hleast, hroom⟩, hencode⟩ := utf8EncodeChar_eq_spread c
    rw [hencode]
    exact isCharacter_spread hroom hleast c.valid

/-! ### Characters one behind another -/

/-- Well-formed bytes begin with a character, if there are any. -/
theorem WellFormed.eq_nil_or {content : List UInt8} (h : WellFormed content) :
    content = [] ∨
      ∃ front back, content = front ++ back ∧ IsCharacter front ∧ WellFormed back := by
  cases h with
  | nil => exact .inl rfl
  | cons hfront hback => exact .inr ⟨_, _, rfl, hfront, hback⟩

/-- Characters are taken from the front of bytes in one way. -/
theorem wellFormed_append_iff {front back : List UInt8} (h : WellFormed front) :
    WellFormed (front ++ back) ↔ WellFormed back := by
  induction h with
  | nil => rfl
  | @cons first others hfirst _ ih =>
    rw [List.append_assoc, ← ih]
    refine ⟨fun hwell => ?_, .cons hfirst⟩
    obtain ⟨k, hk⟩ := hfirst.isSequence
    rcases hwell.eq_nil_or with hnil | ⟨other, rest, heq, hother, hrest⟩
    · exact absurd (List.append_eq_nil_iff.mp hnil).1 (List.ne_nil_of_length_pos hfirst.length_pos)
    · obtain ⟨l, hl⟩ := hother.isSequence
      obtain ⟨-, -, rfl⟩ := hk.eq_of_append hl heq
      exact hrest

/-- **Well-formed bytes are those of any characters**: the grammar that goes by ranges of bytes and
the encoding that goes by numbers describe the same bytes. -/
theorem wellFormed_iff {content : List UInt8} :
    WellFormed content ↔ ∃ characters, content = bytes characters := by
  constructor
  · intro h
    induction h with
    | nil => exact ⟨[], rfl⟩
    | cons hfront _ ih =>
      obtain ⟨c, rfl⟩ := isCharacter_iff.mp hfront
      obtain ⟨characters, rfl⟩ := ih
      exact ⟨c :: characters, rfl⟩
  · rintro ⟨characters, rfl⟩
    induction characters with
    | nil => exact .nil
    | cons c characters ih => exact .cons (isCharacter_iff.mpr ⟨c, rfl⟩) ih

/-- Bytes have no decoding exactly when they are not well-formed, so the grammar may be used in
place of the decoder. -/
theorem decode?_eq_none_iff {content : List UInt8} :
    decode? content = none ↔ ¬ WellFormed content := by
  rw [wellFormed_iff, Option.eq_none_iff_forall_ne_some, not_exists]
  constructor
  · rintro h characters rfl
    exact h _ (decode?_eq_some_iff.mpr (encode_ofList characters).symm)
  · intro h text hdecode
    exact h text.toList ((eq_encode_of_decode? hdecode).trans (encode_eq text))

end CachedParameters.Text
