import CachedParameters.Document
import CachedParameters.Document.Quoted
import CachedParameters.Proofs.Text.Utf8

/-!
# Quoted texts are read back

The printer escapes the characters that may not stand between quotes, and the reader resolves
escapes to bytes again. So reading what was written for one character adds the bytes of this
character, and reading a whole text adds the bytes of the text, which are decoded when the closing
quote is reached.

## Main results

- `readText_escaped`: what was written for a character is read as its bytes.
- `readText_quoted`: what was written for a text is read as the text.
-/

namespace CachedParameters.Document

open Text (bytes)

/-- A byte that stands for itself between quotes. -/
def IsPlain (byte : UInt8) : Prop := 0x20 ≤ byte ∧ byte ≠ 0x22 ∧ byte ≠ 0x5C

instance : DecidablePred IsPlain := fun _ => inferInstanceAs (Decidable (_ ∧ _))

theorem readText_plain {byte : UInt8} (h : IsPlain byte) (reversed rest : List UInt8)
    (place : Position) :
    readText reversed (byte :: rest) place =
      readText (byte :: reversed) rest (place.after byte) := by
  obtain ⟨hcontrol, hquote, hslash⟩ := h
  rw [readText, if_neg (UInt8.not_lt.mpr hcontrol)]
  all_goals simp_all

/-- Plain bytes are taken as they are. -/
theorem readText_plains {taken : List UInt8} (h : ∀ byte ∈ taken, IsPlain byte)
    (reversed rest : List UInt8) (place : Position) :
    readText reversed (taken ++ rest) place =
      readText (taken.reverse ++ reversed) rest (place.afterAll taken) := by
  induction taken generalizing reversed place with
  | nil => rfl
  | cons byte taken ih =>
      rw [List.cons_append, readText_plain (h byte List.mem_cons_self),
        ih fun other hother => h other (List.mem_cons_of_mem byte hother), List.reverse_cons,
        List.append_assoc, List.singleton_append]
      rfl

/-- A character that is not escaped is made of plain bytes. -/
theorem isPlain_of_mem {c : Char} (hcontrol : ¬ c.toNat < 0x20) (hquote : c ≠ '"')
    (hslash : c ≠ '\\') : ∀ byte ∈ String.utf8EncodeChar c, IsPlain byte := by
  intro byte hbyte
  rcases Nat.lt_or_ge c.toNat 0x80 with hlow | hhigh
  · rw [Text.utf8EncodeChar_of_lt hlow, List.mem_singleton] at hbyte
    rw [hbyte]
    revert hcontrol hquote hslash
    apply Text.forall_of_ascii ?_ hlow
    decide
  · have hlarge := Text.le_of_mem_utf8EncodeChar hhigh hbyte
    refine ⟨UInt8.le_trans (by decide) hlarge, ?_, ?_⟩
    · rintro rfl
      exact absurd hlarge (by decide)
    · rintro rfl
      exact absurd hlarge (by decide)

/-- An escaped code unit that is no half of a surrogate pair is read as its bytes. -/
theorem readText_unit {a b c d : UInt8} {unit : ℕ} (h : hexQuad? a b c d = some unit)
    (hsmall : unit < 0xD800) (reversed rest : List UInt8) (place : Position) :
    readText reversed (0x5C :: 0x75 :: a :: b :: c :: d :: rest) place =
      readText (pushCodePoint unit reversed) rest
        (place.afterAll [0x5C, 0x75, a, b, c, d]) := by
  have htrailing : isTrailing unit = false := by
    rw [isTrailing, Bool.and_eq_false_iff, decide_eq_false_iff_not]
    omega
  have hleading : isLeading unit = false := by
    rw [isLeading, Bool.and_eq_false_iff, decide_eq_false_iff_not]
    omega
  rw [readText, h]
  simp only [htrailing, hleading, Bool.not_false, if_true, Bool.false_eq_true, if_false]

/-- The hexadecimal digits that are written for a control character stand for it. -/
theorem hexQuad?_control : ∀ n < 0x20,
    bytes ['\\', 'u', '0', '0', hexDigit (n / 16), hexDigit n] =
      [0x5C, 0x75, 0x30, 0x30, UInt8.ofNat (hexDigit (n / 16)).toNat,
        UInt8.ofNat (hexDigit n).toNat] ∧
      hexQuad? 0x30 0x30 (UInt8.ofNat (hexDigit (n / 16)).toNat)
        (UInt8.ofNat (hexDigit n).toNat) = some n := by
  decide

/-- What was written for a character is read as its bytes. -/
theorem readText_escaped (c : Char) (reversed rest : List UInt8) (place : Position) :
    ∃ later, readText reversed (bytes (escaped c) ++ rest) place =
      readText ((String.utf8EncodeChar c).reverse ++ reversed) rest later := by
  rw [escaped]
  split_ifs with hquote hslash hn hr ht hb hf hcontrol
  · rw [hquote]
    exact ⟨_, rfl⟩
  · rw [hslash]
    exact ⟨_, rfl⟩
  · rw [hn]
    exact ⟨_, rfl⟩
  · rw [hr]
    exact ⟨_, rfl⟩
  · rw [ht]
    exact ⟨_, rfl⟩
  · rw [← Char.ofNat_toNat c, hb]
    exact ⟨_, rfl⟩
  · rw [← Char.ofNat_toNat c, hf]
    exact ⟨_, rfl⟩
  · obtain ⟨hbytes, hvalue⟩ := hexQuad?_control c.toNat hcontrol
    have hunit := readText_unit hvalue (by omega) reversed rest place
    rw [pushCodePoint, Char.ofNat_toNat] at hunit
    rw [hbytes]
    exact ⟨_, hunit⟩
  · have hplain := isPlain_of_mem hcontrol hquote hslash
    exact ⟨_, by rw [Text.bytes_cons, Text.bytes_nil, List.append_nil, readText_plains hplain]⟩

/-- What was written for characters is read as their bytes. -/
theorem readText_flatMap_escaped (characters : List Char) (reversed rest : List UInt8)
    (place : Position) :
    ∃ later, readText reversed (bytes (characters.flatMap escaped) ++ rest) place =
      readText ((bytes characters).reverse ++ reversed) rest later := by
  induction characters generalizing reversed place with
  | nil => exact ⟨place, rfl⟩
  | cons c characters ih =>
      rw [List.flatMap_cons, Text.bytes_append, List.append_assoc]
      obtain ⟨behind, hfirst⟩ :=
        readText_escaped c reversed (bytes (characters.flatMap escaped) ++ rest) place
      obtain ⟨later, hrest⟩ := ih ((String.utf8EncodeChar c).reverse ++ reversed) behind
      refine ⟨later, ?_⟩
      rw [hfirst, hrest, Text.bytes_cons, List.reverse_append, List.append_assoc]

/-- **What was written for a text is read as the text.** Escaped characters become what they stand
for and all others stay, up to the closing quote. -/
theorem readText_quoted (text : String) (rest : List UInt8) (place : Position) :
    ∃ later, readText [] (bytes (text.toList.flatMap escaped ++ ['"']) ++ rest) place =
      .ok (text, ⟨rest, later⟩) := by
  have hquote : bytes ['"'] = [0x22] := rfl
  rw [Text.bytes_append, hquote, List.append_assoc, List.singleton_append]
  obtain ⟨behind, htaken⟩ := readText_flatMap_escaped text.toList [] (0x22 :: rest) place
  have hdone : ∀ reversed, readText reversed (0x22 :: rest) behind =
    finishText reversed.reverse rest (behind.after 0x22) := fun _ => rfl
  rw [htaken, hdone, List.append_nil, List.reverse_reverse, ← Text.encode_eq, finishText,
    Text.decode?_encode]
  exact ⟨_, rfl⟩

end CachedParameters.Document
