import CachedParameters.Proofs.Text.Utf8

/-!
# Malformed bytes

Bytes that are not well-formed are so for one of few reasons. Behind the last whole character there
is a byte that begins no character, or a sequence breaks off, or the number that it lays out could
do with fewer bytes, is half of a surrogate pair, or lies beyond the last code point. `Malformed`
lists these, and there are no others.

Both directions look at one place. There, malformed bytes begin with no character, which is read off
how many bytes the leading one announces; and bytes that begin with no character are malformed,
since enough of them to go on with the leading one lay out some number. What lies in front are
characters, and these are taken off in one way only.

## Main results

- `Text.not_wellFormed_iff`: bytes that are not well-formed are malformed behind well-formed ones.
-/

namespace CachedParameters.Text

/-- Bytes that no character begins: what is wrong with them lies right at their start. -/
inductive Malformed : List UInt8 → Prop where
  /-- A byte that goes on with a character that none has begun. -/
  | stray {byte : UInt8} {back : List UInt8} : Continues byte → Malformed (byte :: back)
  /-- A byte that is in no sequence. -/
  | unused {byte : UInt8} {back : List UInt8} : 0xF8 ≤ byte → Malformed (byte :: back)
  /-- A sequence that breaks off before its last byte. -/
  | truncated {k : Fin 4} {n length : ℕ} {back : List UInt8} : n < room k → 0 < length →
      length ≤ k → (∀ byte ∈ back.head?, ¬ Continues byte) →
      Malformed ((spread k n).take length ++ back)
  /-- An overlong sequence, the number of which could do with fewer bytes. -/
  | overlong {k : Fin 4} {n : ℕ} {back : List UInt8} : n < least k →
      Malformed (spread k n ++ back)
  /-- Half of a surrogate pair. -/
  | surrogate {k : Fin 4} {n : ℕ} {back : List UInt8} : n < room k → 0xD800 ≤ n → n ≤ 0xDFFF →
      Malformed (spread k n ++ back)
  /-- A number beyond the last code point. -/
  | beyond {k : Fin 4} {n : ℕ} {back : List UInt8} : n < room k → 0x10FFFF < n →
      Malformed (spread k n ++ back)

/-- A number that is laid out in front of other bytes stands for no character that they begin with,
unless it is one that the bytes are needed for. -/
theorem IsCharacter.of_spread_append {k : Fin 4} {n : ℕ} {behind front back : List UInt8}
    (hroom : n < room k) (hfront : IsCharacter front) (h : spread k n ++ behind = front ++ back) :
    least k ≤ n ∧ n.isValidChar := by
  obtain ⟨l, hsequence⟩ := hfront.isSequence
  obtain ⟨-, rfl, -⟩ := (isSequence_spread hroom).eq_of_append hsequence h
  exact hfront.of_spread hroom

/-- The first byte of a sequence is a leading one. -/
theorem IsSequence.begins {k : Fin 4} {byte : UInt8} {content front back : List UInt8}
    (h : IsSequence k front) (heq : byte :: content = front ++ back) :
    ¬ Continues byte ∧ ¬ 0xF8 ≤ byte := by
  obtain ⟨hlead, -, -⟩ := h
  rw [List.cons_append, List.cons.injEq] at heq
  exact heq.1 ▸ hlead.begins

/-- A sequence that breaks off begins no other one. -/
theorem IsSequence.take_append_ne {k l : Fin 4} {a b behind back : List UInt8} {length : ℕ}
    (ha : IsSequence k a) (hb : IsSequence l b) (hpos : 0 < length) (hlength : length ≤ k)
    (hbehind : ∀ byte ∈ behind.head?, ¬ Continues byte) :
    a.take length ++ behind ≠ b ++ back := by
  intro h
  obtain ⟨hleada, hlengtha, -⟩ := ha
  obtain @⟨_, others, hleadb, hlengthb, hothers⟩ := hb
  obtain ⟨m, rfl⟩ := Nat.exists_eq_succ_of_ne_zero hpos.ne'
  rw [List.take_succ_cons, List.cons_append, List.cons_append, List.cons.injEq] at h
  obtain ⟨rfl, hrest⟩ := h
  obtain rfl := hleada.unique hleadb
  -- Fewer of the others are left than there should be, so a byte behind them goes on.
  rcases List.append_eq_append_iff.mp hrest with ⟨missing, rfl, rfl⟩ | ⟨extra, hextra, -⟩
  · cases missing with
    | nil =>
      rw [List.append_nil, List.length_take] at hlengthb
      omega
    | cons byte missing => exact hbehind byte rfl (hothers byte (by simp))
  · have hlengths := congrArg List.length hextra
    rw [List.length_take, List.length_append] at hlengths
    omega

theorem Malformed.ne_nil {content : List UInt8} (h : Malformed content) : content ≠ [] := by
  cases h with
  | stray _ | unused _ => exact List.cons_ne_nil _ _
  | truncated _ hpos _ _ => simp [spread_ne_nil, hpos.ne']
  | overlong _ | surrogate _ _ _ | beyond _ _ => simp [spread_ne_nil]

theorem Malformed.ne_append {content front back : List UInt8} (h : Malformed content)
    (hfront : IsCharacter front) : content ≠ front ++ back := by
  intro heq
  obtain ⟨l, hsequence⟩ := hfront.isSequence
  cases h with
  | stray hbyte => exact (hsequence.begins heq).1 hbyte
  | unused hbyte => exact (hsequence.begins heq).2 hbyte
  | truncated hroom hpos hlength hback =>
    exact (isSequence_spread hroom).take_append_ne hsequence hpos hlength hback heq
  | overlong hshort =>
    have hroom := Nat.lt_of_lt_of_le hshort (least_le_room _)
    exact Nat.not_le_of_lt hshort (hfront.of_spread_append hroom heq).1
  | surrogate hroom hlow hhigh =>
    have hvalid := (hfront.of_spread_append hroom heq).2
    simp only [Nat.isValidChar] at hvalid
    omega
  | beyond hroom hlarge =>
    have hvalid := (hfront.of_spread_append hroom heq).2
    simp only [Nat.isValidChar] at hvalid
    omega

/-- Of the bytes behind a leading one, either enough go on with it, or there is one too early that
does not, if there is any. -/
theorem exists_continuing (k : ℕ) (content : List UInt8) :
    ∃ front back, content = front ++ back ∧ (∀ byte ∈ front, Continues byte) ∧
      (front.length = k ∨ front.length < k ∧ ∀ byte ∈ back.head?, ¬ Continues byte) := by
  induction k generalizing content with
  | zero => exact ⟨[], content, rfl, List.forall_mem_nil _, .inl rfl⟩
  | succ k ih =>
    cases content with
    | nil => exact ⟨[], [], rfl, List.forall_mem_nil _, .inr ⟨Nat.succ_pos k, by simp⟩⟩
    | cons first content =>
      by_cases hfirst : Continues first
      · obtain ⟨front, back, rfl, hfront, hlength⟩ := ih content
        refine ⟨first :: front, back, rfl, List.forall_mem_cons.mpr ⟨hfirst, hfront⟩, ?_⟩
        simpa using hlength
      · exact ⟨[], first :: content, rfl, List.forall_mem_nil _,
          .inr ⟨Nat.succ_pos k, by simpa using hfirst⟩⟩

/-- A sequence that is no character lays out a number that stands for none. -/
theorem IsSequence.character_or_malformed {k : Fin 4} {front : List UInt8}
    (h : IsSequence k front) (back : List UInt8) :
    IsCharacter front ∨ Malformed (front ++ back) := by
  obtain ⟨n, hroom, rfl⟩ := h.exists_spread
  rcases Nat.lt_or_ge n (least k) with hshort | hleast
  · exact .inr (.overlong hshort)
  by_cases hvalid : n.isValidChar
  · exact .inl (isCharacter_spread hroom hleast hvalid)
  simp only [Nat.isValidChar, not_or, not_and, not_lt] at hvalid
  rcases Nat.lt_or_ge 0xDFFF n with hlarge | hhalf
  · exact .inr (.beyond hroom (hvalid.2 hlarge))
  · exact .inr (.surrogate hroom hvalid.1 hhalf)

/-- A sequence that breaks off is filled up with other bytes that go on with it. -/
theorem malformed_of_breaksOff {k : Fin 4} {lead : UInt8} {others back : List UInt8}
    (hlead : Leads k lead) (hothers : ∀ byte ∈ others, Continues byte) (hlength : others.length < k)
    (hback : ∀ byte ∈ back.head?, ¬ Continues byte) : Malformed (lead :: others ++ back) := by
  have hwhole : IsSequence k (lead :: (others ++ List.replicate (k - others.length) 0x80)) := by
    refine .mk hlead (by simp; omega) fun byte hbyte => ?_
    rcases List.mem_append.mp hbyte with hbyte | hbyte
    · exact hothers byte hbyte
    · rw [List.eq_of_mem_replicate hbyte]
      decide
  obtain ⟨n, hroom, heq⟩ := hwhole.exists_spread
  have htake : (spread k n).take (others.length + 1) = lead :: others := by
    rw [← heq, List.take_succ_cons, List.take_left]
  rw [← htake]
  exact .truncated hroom (Nat.succ_pos _) hlength hback

/-- Bytes begin with a character or are malformed at the first one. What the leading byte announces
decides where to look. -/
theorem exists_character_or_malformed (lead : UInt8) (content : List UInt8) :
    (∃ front back, lead :: content = front ++ back ∧ IsCharacter front) ∨
      Malformed (lead :: content) := by
  by_cases hstray : Continues lead
  · exact .inr (.stray hstray)
  by_cases hunused : 0xF8 ≤ lead
  · exact .inr (.unused hunused)
  obtain ⟨k, hlead⟩ := exists_leads hstray hunused
  obtain ⟨others, back, rfl, hothers, hlength | ⟨hlength, hback⟩⟩ := exists_continuing k content
  · have hsequence : IsSequence k (lead :: others) := .mk hlead hlength hothers
    exact (hsequence.character_or_malformed back).imp_left fun h => ⟨lead :: others, back, rfl, h⟩
  · exact .inr (malformed_of_breaksOff hlead hothers hlength hback)

theorem Malformed.not_wellFormed {content : List UInt8} (h : Malformed content) :
    ¬ WellFormed content := by
  intro hwell
  rcases hwell.eq_nil_or with hnil | ⟨front, back, heq, hfront, -⟩
  · exact h.ne_nil hnil
  · exact h.ne_append hfront heq

/-- Bytes are well-formed up to their end or up to where they are malformed. -/
theorem wellFormed_or_malformed (content : List UInt8) :
    WellFormed content ∨
      ∃ front back, content = front ++ back ∧ WellFormed front ∧ Malformed back := by
  match content with
  | [] => exact .inl .nil
  | lead :: content =>
    rcases exists_character_or_malformed lead content with ⟨first, rest, heq, hfirst⟩ | hmalformed
    · have hshorter : rest.length < content.length + 1 := by
        have hlengths := congrArg List.length heq
        have hpos := hfirst.length_pos
        rw [List.length_cons, List.length_append] at hlengths
        omega
      rw [heq]
      rcases wellFormed_or_malformed rest with hrest | ⟨front, back, rfl, hfront, hback⟩
      · exact .inl (.cons hfirst hrest)
      · exact .inr ⟨first ++ front, back, by rw [List.append_assoc], .cons hfirst hfront, hback⟩
    · exact .inr ⟨[], lead :: content, rfl, .nil, hmalformed⟩
termination_by content.length

/-- **Bytes that are not well-formed are malformed behind well-formed ones**, and the other way
round. So there is evidence for every refusal, at one place. -/
theorem not_wellFormed_iff {content : List UInt8} :
    ¬ WellFormed content ↔
      ∃ front back, content = front ++ back ∧ WellFormed front ∧ Malformed back := by
  constructor
  · exact (wellFormed_or_malformed content).resolve_left
  · rintro ⟨front, back, rfl, hfront, hback⟩ hwell
    exact hback.not_wellFormed ((wellFormed_append_iff hfront).mp hwell)

end CachedParameters.Text
