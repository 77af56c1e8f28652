import CachedParameters.Document
import CachedParameters.Proofs.Real.Text

/-!
# The compact text of documents is unambiguous

No text is the compact text of two documents. The induction needs more: where the text of a
document is followed by something else, the document and what follows can be told apart. A number
is the only document whose text could be continued, so what follows must not begin with a character
of a number; behind elements and members there is always a comma or a bracket.

The first character of a text tells the **kind** of a document, so that only documents of one kind
have to be compared.

## Main results

- `quoted_append_inj`: a quoted text ends at its closing quote, whatever the text is.
- `chars_append_inj`: documents of any shape can be told apart from what follows them.
- `render_injective`: different documents have different texts.
-/

namespace CachedParameters.Document

open CachedParameters.Real (IsNumeric isNumeric_of_mem_chars point_or_exponent_mem_chars)

/-! ### Quoted texts -/

/-- The value of a lower-case hexadecimal digit. -/
def hexDigitValue (c : Char) : ℕ := if c.isDigit then c.toNat - 48 else c.toNat - 87

/-- Takes one character, which may be escaped, off a text. -/
def unescape : List Char → Option (Char × List Char)
  | '\\' :: 'n' :: rest => some ('\n', rest)
  | '\\' :: 'r' :: rest => some ('\r', rest)
  | '\\' :: 't' :: rest => some ('\t', rest)
  | '\\' :: 'b' :: rest => some ('\x08', rest)
  | '\\' :: 'f' :: rest => some ('\x0c', rest)
  | '\\' :: 'u' :: _ :: _ :: high :: low :: rest =>
      some (Char.ofNat (16 * hexDigitValue high + hexDigitValue low), rest)
  | '\\' :: c :: rest => some (c, rest)
  | c :: rest => some (c, rest)
  | [] => none

/-- The two hexadecimal digits of a control character give it back. -/
theorem hexDigitValue_hexDigit (n : ℕ) : hexDigitValue (hexDigit n) = n % 16 := by
  have hall : ∀ k < 16, hexDigitValue (Nat.digitChar k) = k := by decide
  exact hall (n % 16) (Nat.mod_lt n (by decide))

/-- A character is taken off as it was written. -/
theorem unescape_escaped (c : Char) (rest : List Char) :
    unescape (escaped c ++ rest) = some (c, rest) := by
  rw [escaped]
  split_ifs with hquote hslash hn hr ht hb hf hcontrol
  · rw [hquote]
    rfl
  · rw [hslash]
    rfl
  · rw [hn]
    rfl
  · rw [hr]
    rfl
  · rw [ht]
    rfl
  · rw [← Char.ofNat_toNat c, hb]
    rfl
  · rw [← Char.ofNat_toNat c, hf]
    rfl
  · have hvalue : 16 * (c.toNat / 16 % 16) + c.toNat % 16 = c.toNat := by omega
    simp only [List.cons_append, List.nil_append, unescape, hexDigitValue_hexDigit, hvalue,
      Char.ofNat_toNat]
  · simp only [List.cons_append, List.nil_append]
    rw [unescape.eq_def]
    split <;> simp_all

/-- A written character does not begin with a quote. -/
theorem escaped_eq_cons (c : Char) : ∃ d rest, escaped c = d :: rest ∧ d ≠ '"' := by
  rw [escaped]
  split_ifs with hquote
  all_goals first
    | exact ⟨_, _, rfl, by decide⟩
    | exact ⟨_, _, rfl, hquote⟩

/-- Texts up to a closing quote can be told apart from what follows it. -/
theorem flatMap_escaped_inj {t u r s : List Char}
    (h : t.flatMap escaped ++ '"' :: r = u.flatMap escaped ++ '"' :: s) : t = u ∧ r = s := by
  induction t generalizing u with
  | nil =>
      cases u with
      | nil => exact ⟨rfl, (List.cons.inj h).2⟩
      | cons d ds =>
          obtain ⟨e, rest, he, hne⟩ := escaped_eq_cons d
          rw [List.flatMap_cons, he] at h
          exact absurd (List.cons.inj h).1.symm hne
  | cons c cs ih =>
      cases u with
      | nil =>
          obtain ⟨e, rest, he, hne⟩ := escaped_eq_cons c
          rw [List.flatMap_cons, he] at h
          exact absurd (List.cons.inj h).1 hne
      | cons d ds =>
          rw [List.flatMap_cons, List.flatMap_cons, List.append_assoc, List.append_assoc] at h
          have htaken := congrArg unescape h
          rw [unescape_escaped, unescape_escaped] at htaken
          obtain ⟨rfl, hrest⟩ := Prod.mk.inj (Option.some.inj htaken)
          obtain ⟨rfl, rfl⟩ := ih hrest
          exact ⟨rfl, rfl⟩

/-- A quoted text ends at its closing quote, whatever the text is. -/
theorem quoted_append_inj {t u : String} {r s : List Char}
    (h : quoted t ++ r = quoted u ++ s) : t = u ∧ r = s := by
  simp only [quoted, List.cons_append, List.append_assoc, List.nil_append, List.cons.injEq,
    true_and] at h
  obtain ⟨htext, hrest⟩ := flatMap_escaped_inj h
  exact ⟨String.toList_inj.mp htext, hrest⟩

/-! ### Numbers -/

/-- What stands behind a number in a document does not continue it: a comma, a bracket or a brace,
or the end. -/
def EndsNumber (rest : List Char) : Prop := ∀ c ∈ rest.head?, ¬ IsNumeric c

/-- Texts of numbers can be told apart from what ends them. -/
theorem numeric_append_inj {p q r s : List Char} (hp : ∀ c ∈ p, IsNumeric c)
    (hq : ∀ c ∈ q, IsNumeric c) (hr : EndsNumber r) (hs : EndsNumber s) (h : p ++ r = q ++ s) :
    p = q ∧ r = s := by
  induction p generalizing q with
  | nil =>
      cases q with
      | nil => exact ⟨rfl, h⟩
      | cons d ds =>
          rw [List.nil_append] at h
          exact absurd (hq d List.mem_cons_self) (hr d (by rw [h]; rfl))
  | cons c cs ih =>
      cases q with
      | nil =>
          rw [List.nil_append] at h
          exact absurd (hp c List.mem_cons_self) (hs c (by rw [← h]; rfl))
      | cons d ds =>
          obtain ⟨rfl, hrest⟩ := List.cons.inj h
          obtain ⟨rfl, rfl⟩ := ih (fun e he => hp e (List.mem_cons_of_mem _ he))
            (fun e he => hq e (List.mem_cons_of_mem _ he)) hrest
          exact ⟨rfl, rfl⟩

/-- Whole numbers are made of digits and signs. -/
theorem isNumeric_integerChars (n : ℤ) :
    ∀ c ∈ integerChars n, IsNumeric c ∧ c ≠ '.' ∧ c ≠ 'e' := by
  have hdigits : ∀ c ∈ Nat.toDigits 10 n.natAbs, IsNumeric c ∧ c ≠ '.' ∧ c ≠ 'e' := by
    intro c hc
    have hdigit := Real.isDigit_toDigits _ c hc
    refine ⟨Or.inl hdigit, ?_, ?_⟩ <;>
    · rintro rfl
      exact absurd hdigit (by decide)
  rw [integerChars]
  split
  · exact List.forall_mem_cons.mpr ⟨by decide, hdigits⟩
  · exact hdigits

/-- Different whole numbers have different texts. -/
theorem integerChars_injective : Function.Injective integerChars := by
  intro m n h
  have hsigned : ∀ k : ℤ, 0 ≤ k → ∀ rest, integerChars k ≠ '-' :: rest := by
    intro k hk rest heq
    rw [integerChars, if_neg (not_lt.mpr hk)] at heq
    have hdigit := Real.isDigit_toDigits k.natAbs '-' (heq ▸ List.mem_cons_self)
    exact absurd hdigit (by decide)
  have hdigits : ∀ {i j : ℕ}, Nat.toDigits 10 i = Nat.toDigits 10 j → i = j := by
    intro i j hij
    rw [← Nat.ofDigitChars_ten_toDigits (n := i), hij, Nat.ofDigitChars_ten_toDigits]
  by_cases hm : m < 0 <;> by_cases hn : n < 0
  · rw [integerChars, integerChars, if_pos hm, if_pos hn] at h
    have := hdigits (List.cons.inj h).2
    omega
  · rw [integerChars, if_pos hm] at h
    exact absurd h.symm (hsigned n (not_lt.mp hn) _)
  · rw [integerChars.eq_def n, if_pos hn] at h
    exact absurd h (hsigned m (not_lt.mp hm) _)
  · rw [integerChars, integerChars, if_neg hm, if_neg hn] at h
    have := hdigits h
    omega

/-! ### Documents -/

/-- What a document is, as far as the first character of its text tells. Whole and real numbers
begin alike, and the two truth values do not. -/
inductive Kind where
  | null
  | bool (value : Bool)
  | number
  | text
  | list
  | object
  deriving DecidableEq

def kind : Document → Kind
  | .null => .null
  | .bool value => .bool value
  | .integer _ | .real _ => .number
  | .text _ => .text
  | .list _ => .list
  | .object _ => .object

/-- The kind that a text begins with. Closing brackets and commas begin no document. -/
def Kind.ofChar? (c : Char) : Option Kind :=
  if c.isDigit ∨ c = '-' then some .number
  else if c = 'n' then some .null
  else if c = 't' then some (.bool true)
  else if c = 'f' then some (.bool false)
  else if c = '"' then some .text
  else if c = '[' then some .list
  else if c = '\x7b' then some .object
  else none

theorem ofChar?_of_number {c : Char} (h : c.isDigit = true ∨ c = '-') :
    Kind.ofChar? c = some .number :=
  if_pos h

/-- The first character of a text tells the kind of its document. -/
theorem chars_eq_cons (d : Document) :
    ∃ c rest, chars d = c :: rest ∧ Kind.ofChar? c = some d.kind := by
  match d with
  | .null | .bool true | .bool false | .list [] | .object [] | .list (_ :: _)
  | .object ((_, _) :: _) => exact ⟨_, _, by rw [chars], rfl⟩
  | .text _ => exact ⟨_, _, by rw [chars, quoted], rfl⟩
  | .integer n =>
      rw [chars, integerChars]
      split
      · exact ⟨_, _, rfl, rfl⟩
      · obtain ⟨c, rest, hdigits⟩ := List.exists_cons_of_ne_nil (Nat.toDigits_ne_nil (b := 10)
          (n := n.natAbs))
        have hc := Real.isDigit_toDigits n.natAbs c (hdigits ▸ List.mem_cons_self)
        exact ⟨c, rest, hdigits, ofChar?_of_number (Or.inl hc)⟩
  | .real x =>
      obtain ⟨c, rest, hrest, hc⟩ := (Real.isToken_unsignedChars x).head
      rw [chars, Real.chars_eq, hrest]
      cases Real.isNegative x with
      | true => exact ⟨'-', c :: rest, rfl, rfl⟩
      | false => exact ⟨c, rest, rfl, ofChar?_of_number (Or.inl hc)⟩

/-- Documents that begin a common text are of one kind. -/
theorem kind_eq_of_append {a b : Document} {r s : List Char} (h : chars a ++ r = chars b ++ s) :
    a.kind = b.kind := by
  obtain ⟨c, front, hfront, hc⟩ := chars_eq_cons a
  obtain ⟨d, back, hback, hd⟩ := chars_eq_cons b
  rw [hfront, hback] at h
  obtain ⟨rfl, -⟩ := List.cons.inj h
  exact Option.some.inj (hc.symm.trans hd)

/-- A character that begins no document does not begin a text. -/
theorem chars_append_ne {a : Document} {r : List Char} {c : Char} {rest : List Char}
    (hc : Kind.ofChar? c = none) : chars a ++ r ≠ c :: rest := by
  intro h
  obtain ⟨d, front, hfront, hd⟩ := chars_eq_cons a
  rw [hfront] at h
  obtain ⟨rfl, -⟩ := List.cons.inj h
  exact absurd (hc.symm.trans hd) (Option.some_ne_none _).symm

/-- What stands behind an element does not continue a number. -/
theorem endsNumber_elementChars (elements : List Document) (r : List Char) :
    EndsNumber (elementChars elements ++ r) := by
  cases elements <;> simp only [elementChars] <;> intro c hc <;>
  · obtain rfl := Option.some.inj hc
    decide

/-- What stands behind a member does not continue a number. -/
theorem endsNumber_memberChars (members : List (String × Document)) (r : List Char) :
    EndsNumber (memberChars members ++ r) := by
  cases members <;> simp only [memberChars] <;> intro c hc <;>
  · obtain rfl := Option.some.inj hc
    decide

/-- Numbers of either kind can be told apart from what ends them. -/
theorem number_append_inj {a b : Document} {r s : List Char} (ha : a.kind = .number)
    (hb : b.kind = .number) (hr : EndsNumber r) (hs : EndsNumber s)
    (h : chars a ++ r = chars b ++ s) : a = b ∧ r = s := by
  have hnumeric : ∀ d : Document, d.kind = .number → ∀ c ∈ chars d, IsNumeric c := by
    intro d hd c hc
    cases d <;> simp only [kind, reduceCtorEq] at hd
    · exact (isNumeric_integerChars _ c (by rwa [chars] at hc)).1
    · exact isNumeric_of_mem_chars (by rwa [chars] at hc)
  obtain ⟨htext, hrest⟩ := numeric_append_inj (hnumeric a ha) (hnumeric b hb) hr hs h
  have hmixed : ∀ (n : ℤ) (x : Float), integerChars n ≠ Real.chars x := by
    intro n x heq
    rcases point_or_exponent_mem_chars x with hpoint | hexponent
    · exact (isNumeric_integerChars n '.' (heq ▸ hpoint)).2.1 rfl
    · exact (isNumeric_integerChars n 'e' (heq ▸ hexponent)).2.2 rfl
  refine ⟨?_, hrest⟩
  cases a <;> simp only [kind, reduceCtorEq] at ha <;>
    cases b <;> simp only [kind, reduceCtorEq] at hb <;> rw [chars, chars] at htext
  · rw [integerChars_injective htext]
  · exact absurd htext (hmixed _ _)
  · exact absurd htext.symm (hmixed _ _)
  · rw [Real.chars_injective htext]

mutual

/-- Documents of any shape can be told apart from what follows them. The induction is on the first
one; the kind of the second one is known from its first character. -/
theorem chars_append_inj (a b : Document) {r s : List Char} (hr : EndsNumber r)
    (hs : EndsNumber s) (h : chars a ++ r = chars b ++ s) : a = b ∧ r = s := by
  have hkind := kind_eq_of_append h
  match a, b with
  | .null, .null =>
      exact ⟨rfl, List.append_cancel_left h⟩
  | .bool u, .bool v =>
      obtain rfl : u = v := by simpa [kind] using hkind
      exact ⟨rfl, List.append_cancel_left h⟩
  | .integer m, .integer n => exact number_append_inj rfl rfl hr hs h
  | .integer m, .real y => exact number_append_inj rfl rfl hr hs h
  | .real x, .integer n => exact number_append_inj rfl rfl hr hs h
  | .real x, .real y => exact number_append_inj rfl rfl hr hs h
  | .text t, .text u =>
      rw [chars, chars] at h
      obtain ⟨rfl, rfl⟩ := quoted_append_inj h
      exact ⟨rfl, rfl⟩
  | .list [], .list [] =>
      exact ⟨rfl, List.append_cancel_left h⟩
  | .list [], .list (y :: ys) =>
      simp only [chars, List.cons_append, List.nil_append, List.cons.injEq, true_and,
        List.append_assoc] at h
      exact absurd h.symm (chars_append_ne rfl)
  | .list (x :: xs), .list [] =>
      simp only [chars, List.cons_append, List.nil_append, List.cons.injEq, true_and,
        List.append_assoc] at h
      exact absurd h (chars_append_ne rfl)
  | .list (x :: xs), .list (y :: ys) =>
      simp only [chars, List.cons_append, List.cons.injEq, true_and, List.append_assoc] at h
      obtain ⟨rfl, hrest⟩ := chars_append_inj x y (endsNumber_elementChars xs r)
        (endsNumber_elementChars ys s) h
      obtain ⟨rfl, rfl⟩ := elementChars_append_inj xs ys hrest
      exact ⟨rfl, rfl⟩
  | .object [], .object [] =>
      exact ⟨rfl, List.append_cancel_left h⟩
  | .object [], .object ((u, y) :: ys) =>
      simp [chars, quoted] at h
  | .object ((t, x) :: xs), .object [] =>
      simp [chars, quoted] at h
  | .object ((t, x) :: xs), .object ((u, y) :: ys) =>
      simp only [chars, List.cons_append, List.cons.injEq, true_and, List.append_assoc] at h
      obtain ⟨rfl, hvalue⟩ := quoted_append_inj h
      obtain ⟨rfl, hrest⟩ := chars_append_inj x y (endsNumber_memberChars xs r)
        (endsNumber_memberChars ys s) (List.cons.inj hvalue).2
      obtain ⟨rfl, rfl⟩ := memberChars_append_inj xs ys hrest
      exact ⟨rfl, rfl⟩

/-- The elements behind the first one can be told apart from what follows the list. -/
theorem elementChars_append_inj (xs ys : List Document) {r s : List Char}
    (h : elementChars xs ++ r = elementChars ys ++ s) : xs = ys ∧ r = s := by
  match xs, ys with
  | [], [] => exact ⟨rfl, List.append_cancel_left h⟩
  | [], y :: ys => simp [elementChars] at h
  | x :: xs, [] => simp [elementChars] at h
  | x :: xs, y :: ys =>
      simp only [elementChars, List.cons_append, List.cons.injEq, true_and,
        List.append_assoc] at h
      obtain ⟨rfl, hrest⟩ := chars_append_inj x y (endsNumber_elementChars xs r)
        (endsNumber_elementChars ys s) h
      obtain ⟨rfl, rfl⟩ := elementChars_append_inj xs ys hrest
      exact ⟨rfl, rfl⟩

/-- The members behind the first one can be told apart from what follows the object. -/
theorem memberChars_append_inj (xs ys : List (String × Document)) {r s : List Char}
    (h : memberChars xs ++ r = memberChars ys ++ s) : xs = ys ∧ r = s := by
  match xs, ys with
  | [], [] => exact ⟨rfl, List.append_cancel_left h⟩
  | [], (u, y) :: ys => simp [memberChars] at h
  | (t, x) :: xs, [] => simp [memberChars] at h
  | (t, x) :: xs, (u, y) :: ys =>
      simp only [memberChars, List.cons_append, List.cons.injEq, true_and,
        List.append_assoc] at h
      obtain ⟨rfl, hvalue⟩ := quoted_append_inj h
      obtain ⟨rfl, hrest⟩ := chars_append_inj x y (endsNumber_memberChars xs r)
        (endsNumber_memberChars ys s) (List.cons.inj hvalue).2
      obtain ⟨rfl, rfl⟩ := memberChars_append_inj xs ys hrest
      exact ⟨rfl, rfl⟩

end

/-- **Different documents have different texts.** The statement is proved for documents with
anything behind them that does not continue a number, and here nothing is. -/
theorem render_injective : Function.Injective render := by
  intro a b h
  have hends : EndsNumber [] := by rintro c ⟨⟩
  have hchars : chars a ++ [] = chars b ++ [] := by
    rw [List.append_nil, List.append_nil]
    exact String.ofList_inj.mp h
  exact (chars_append_inj a b hends hends hchars).1

end CachedParameters.Document
