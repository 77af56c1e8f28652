import CachedParameters.Text
import CachedParameters.Text.Numeral
import Mathlib.Data.List.DropRight
import Mathlib.Data.List.TakeWhile

/-!
# Trimmed texts and whole numbers

What the reading of a setting makes of its text is said here without the functions that do it.

`Text.trim` takes the blanks off from both ends one by one. What it leaves is a core with blanks
around it, and the core is bare, which means that neither its first nor its last character is blank.
Every text is so in exactly one way, so a grammar may be stated on the core alone.

`Numeral.read` takes digits one by one and gives up as soon as the value reaches the bound. It
accepts a plus sign or none, then at least one digit, zeros in front included, where the decimal
value of the digits lies below the bound. That no start of the digits reaches the bound needs no
mention, since a start is never worth more than the whole.

## Main results

- `Text.trim_eq_iff`: a text is trimmed to the bare core that it has between its blanks.
- `Text.bare_of_forall`: characters that are not blank are a bare core.
- `Numeral.read_eq_ok_iff`: the texts that are read are those that spell a number below the bound,
  and that number is what they are read as.
-/

namespace CachedParameters.Text

/-- A text is `core` with any number of blanks before and behind it. -/
def Padded (core : List Char) (text : String) : Prop :=
  ∃ front back : List Char, (∀ c ∈ front, isBlank c = true) ∧ (∀ c ∈ back, isBlank c = true) ∧
    text.toList = front ++ core ++ back

/-- No blank stands at either end. -/
def Bare (core : List Char) : Prop :=
  ∀ h : core ≠ [], isBlank (core.head h) = false ∧ isBlank (core.getLast h) = false

variable {core front back characters : List Char} {text : String}

theorem trimBlanks_eq (characters : List Char) :
    trimBlanks characters = (characters.dropWhile isBlank).rdropWhile isBlank :=
  rfl

theorem bare_of_forall (h : ∀ c ∈ core, isBlank c = false) : Bare core :=
  fun hne => ⟨h _ (List.head_mem hne), h _ (List.getLast_mem hne)⟩

theorem bare_trimBlanks (characters : List Char) : Bare (trimBlanks characters) := by
  intro hne
  rw [trimBlanks_eq] at hne
  have hstart : characters.dropWhile isBlank ≠ [] := by
    intro hnil
    exact hne (by rw [hnil, List.rdropWhile_nil])
  -- What the second end loses is behind the first character, which therefore stays in front.
  have hfirst : (trimBlanks characters).head hne = (characters.dropWhile isBlank).head hstart :=
    (List.rdropWhile_prefix isBlank (characters.dropWhile isBlank)).head hne
  refine ⟨?_, ?_⟩
  · rw [hfirst]
    exact List.head_dropWhile_not isBlank hstart
  · exact Bool.eq_false_iff.mpr (List.rdropWhile_last_not isBlank _ hne)

/-- What is taken off is blank. -/
theorem exists_trimBlanks (characters : List Char) :
    ∃ front back : List Char, (∀ c ∈ front, isBlank c = true) ∧ (∀ c ∈ back, isBlank c = true) ∧
      characters = front ++ trimBlanks characters ++ back := by
  refine ⟨characters.takeWhile isBlank, (characters.dropWhile isBlank).rtakeWhile isBlank,
    fun _ => List.mem_takeWhile_imp, fun _ => List.mem_rtakeWhile_imp, ?_⟩
  rw [trimBlanks_eq, List.append_assoc, List.rdropWhile_append_rtakeWhile,
    List.takeWhile_append_dropWhile]

theorem rdropWhile_append_blanks (hback : ∀ c ∈ back, isBlank c = true) (core : List Char) :
    (core ++ back).rdropWhile isBlank = core.rdropWhile isBlank := by
  rw [List.rdropWhile, List.reverse_append,
    List.dropWhile_append_of_pos fun c hc => hback c (List.mem_reverse.mp hc), List.rdropWhile]

/-- A bare core is what is left of it and any blanks around it. -/
theorem trimBlanks_padded (hbare : Bare core) (hfront : ∀ c ∈ front, isBlank c = true)
    (hback : ∀ c ∈ back, isBlank c = true) : trimBlanks (front ++ core ++ back) = core := by
  rw [trimBlanks_eq, List.append_assoc, List.dropWhile_append_of_pos hfront]
  cases core with
  | nil =>
    rw [List.nil_append, List.dropWhile_eq_nil_iff.mpr hback, List.rdropWhile_nil]
  | cons c rest =>
    obtain ⟨hfirst, hlast⟩ := hbare (List.cons_ne_nil c rest)
    have hkept : (c :: rest ++ back).dropWhile isBlank = c :: rest ++ back :=
      List.dropWhile_cons_of_neg (Bool.eq_false_iff.mp hfirst)
    rw [hkept, rdropWhile_append_blanks hback, List.rdropWhile_eq_self_iff]
    exact fun _ => Bool.eq_false_iff.mp hlast

/-- A text is trimmed to the bare core that it has between its blanks. A text of blanks only has the
empty core, which counts as bare. -/
theorem trim_eq_iff : (trim text).toList = core ↔ Bare core ∧ Padded core text := by
  rw [trim, String.toList_ofList]
  constructor
  · rintro rfl
    obtain ⟨front, back, hfront, hback, htext⟩ := exists_trimBlanks text.toList
    exact ⟨bare_trimBlanks _, front, back, hfront, hback, htext⟩
  · rintro ⟨hbare, front, back, hfront, hback, htext⟩
    rw [htext]
    exact trimBlanks_padded hbare hfront hback

end CachedParameters.Text

namespace CachedParameters.Numeral

/-- Characters spell a number: digits of this value, at least one, with a plus sign in front or
none. -/
def Spells (characters : List Char) (n : Nat) : Prop :=
  ∃ digits : List Char, (characters = digits ∨ characters = '+' :: digits) ∧ digits ≠ [] ∧
    (∀ c ∈ digits, c.isDigit = true) ∧ Nat.ofDigitChars 10 digits 0 = n

variable {bound value n : Nat} {digits : List Char} {text : String}

/-- Digits behind a value are read to the number below the bound that they make of it. -/
theorem readDigits_eq_ok_iff (h : value < bound) :
    readDigits bound value digits = .ok n ↔
      (∀ c ∈ digits, c.isDigit = true) ∧ Nat.ofDigitChars 10 digits value = n ∧ n < bound := by
  constructor
  · intro hread
    induction digits generalizing value with
    | nil =>
      obtain rfl : value = n := by simpa [readDigits] using hread
      exact ⟨by simp, by simp [Nat.ofDigitChars_nil], h⟩
    | cons c rest ih =>
      rw [readDigits] at hread
      split at hread
      · rename_i hdigit
        split at hread
        · rename_i hstart
          obtain ⟨hrest, hvalue, hlt⟩ := ih hstart hread
          refine ⟨List.forall_mem_cons.mpr ⟨hdigit, hrest⟩, ?_, hlt⟩
          rw [Nat.ofDigitChars_cons]
          exact hvalue
        · simp at hread
      · simp at hread
  · rintro ⟨hdigits, rfl, hlt⟩
    exact readDigits_of_lt hdigits hlt

/-- Behind a plus sign the digits are read, if there are any. -/
theorem read_of_plus (htext : text.toList = '+' :: digits) (hne : digits ≠ []) :
    read bound text = readDigits bound 0 digits := by
  rw [read, htext]
  cases digits with
  | nil => exact absurd rfl hne
  | cons d rest => rfl

/-- Without a sign all characters are read as digits, if there are any. -/
theorem read_of_no_plus (hne : text.toList ≠ []) (hsign : '+' ∉ text.toList.head?) :
    read bound text = readDigits bound 0 text.toList := by
  rw [read]
  split
  · rename_i hnil
    exact absurd hnil hne
  · rename_i hplus
    exact absurd (by rw [hplus]; rfl) hsign
  · rename_i hplus
    exact absurd (by rw [hplus]; rfl) hsign
  · rfl

theorem plus_not_head (h : ∀ c ∈ digits, c.isDigit = true) : '+' ∉ digits.head? := by
  intro hplus
  exact absurd (h '+' (List.mem_of_mem_head? hplus)) (by decide)

/-- **The grammar of whole numbers.** The texts that are read are those that spell a number below
the bound, and that number is what they are read as. -/
theorem read_eq_ok_iff (h : 0 < bound) :
    read bound text = .ok n ↔ Spells text.toList n ∧ n < bound := by
  constructor
  · intro hread
    by_cases hplus : '+' ∈ text.toList.head?
    · obtain ⟨digits, htext⟩ := List.head?_eq_some_iff.mp hplus
      by_cases hne : digits = []
      · subst hne
        rw [read, htext] at hread
        simp at hread
      · rw [read_of_plus htext hne, readDigits_eq_ok_iff h] at hread
        obtain ⟨hdigits, hvalue, hlt⟩ := hread
        exact ⟨⟨digits, .inr htext, hne, hdigits, hvalue⟩, hlt⟩
    · have hne : text.toList ≠ [] := by
        intro hnil
        rw [read, hnil] at hread
        simp at hread
      rw [read_of_no_plus hne hplus, readDigits_eq_ok_iff h] at hread
      obtain ⟨hdigits, hvalue, hlt⟩ := hread
      exact ⟨⟨text.toList, .inl rfl, hne, hdigits, hvalue⟩, hlt⟩
  · rintro ⟨⟨digits, htext | htext, hne, hdigits, hvalue⟩, hlt⟩
    · subst htext
      rw [read_of_no_plus hne (plus_not_head hdigits), readDigits_eq_ok_iff h]
      exact ⟨hdigits, hvalue, hlt⟩
    · rw [read_of_plus htext hne, readDigits_eq_ok_iff h]
      exact ⟨hdigits, hvalue, hlt⟩

end CachedParameters.Numeral
