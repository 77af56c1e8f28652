import CachedParameters.Settings
import CachedParameters.Proofs.Text.Numeral
import Mathlib.Algebra.Group.Nat.Defs
import Mathlib.Data.List.Forall2

/-!
# The grammar of the settings

What the two variables may hold is said here without the functions that read them. A freshness
window is a whole number below `2 ^ 64` with blanks around it, where a plus sign and zeros may stand
in front; a decrypt flag is one of eight words with blanks around it, where any letters may be ASCII
capitals. A variable that is not set gives the default.

## Main results

- `Settings.readMaxAge_eq_ok_iff`, `Settings.flag?_eq_some_iff`: each reader accepts its grammar.
- `Settings.read_grammatical`: the settings are read if and only if both variables are in the
  grammar, as the values that they spell; anything else is a configuration error, and a malformed
  freshness window is refused before the decrypt flag is asked for.
-/

namespace CachedParameters

/-! ### Words in any case -/

namespace Text

/-- The letters of a word in lower case, where any of them may be an ASCII capital. -/
def AnyCase (word characters : List Char) : Prop :=
  List.Forall₂ (fun c d => c = d ∨ c = d.toUpper) characters word

variable {word characters : List Char}

/-- Lower case moves the capitals 32 places up. -/
theorem toNat_toLower (c : Char) :
    c.toLower.toNat = if 65 ≤ c.toNat ∧ c.toNat ≤ 90 then c.toNat + 32 else c.toNat := by
  unfold Char.toLower
  simp only [ge_iff_le, UInt32.le_iff_toNat_le, Char.reduceVal, UInt32.reduceToNat,
    UInt32.reduceSub, ← Char.toNat_val]
  split_ifs
  · simp only [UInt32.toNat_add, UInt32.reduceToNat]
    omega
  · rfl

/-- Upper case moves the small letters back. -/
theorem toNat_toUpper (c : Char) :
    c.toUpper.toNat = if 97 ≤ c.toNat ∧ c.toNat ≤ 122 then c.toNat - 32 else c.toNat := by
  unfold Char.toUpper
  simp only [UInt32.le_iff_toNat_le, Char.reduceVal, UInt32.reduceToNat, UInt32.reduceSub,
    ← Char.toNat_val]
  split_ifs
  · simp only [UInt32.toNat_add, UInt32.reduceToNat]
    omega
  · rfl

/-- A small letter is the lower case of itself, of its capital and of nothing else. -/
theorem toLower_eq_iff {c d : Char} (h : d.toLower = d) :
    c.toLower = d ↔ c = d ∨ c = d.toUpper := by
  simp only [← Char.toNat_inj, toNat_toLower, toNat_toUpper] at h ⊢
  split_ifs at h ⊢ <;> omega

/-- The texts whose lower case is a given word have its letters in any case. -/
theorem map_toLower_eq_iff (h : ∀ d ∈ word, d.toLower = d) :
    characters.map Char.toLower = word ↔ AnyCase word characters := by
  induction word generalizing characters with
  | nil => simp [AnyCase]
  | cons d word ih =>
    obtain ⟨hd, hword⟩ := List.forall_mem_cons.mp h
    cases characters with
    | nil => simp [AnyCase]
    | cons c characters =>
      rw [List.map_cons, List.cons.injEq, toLower_eq_iff hd, ih hword, AnyCase, AnyCase,
        List.forall₂_cons]

/-- Each character is a letter of the word or its capital. -/
theorem AnyCase.exists_mem (h : AnyCase word characters) :
    ∀ c ∈ characters, ∃ d ∈ word, c = d ∨ c = d.toUpper := by
  induction h with
  | nil => simp
  | cons hfirst _ ih =>
    intro c hc
    rcases List.mem_cons.mp hc with rfl | hc
    · exact ⟨_, List.mem_cons_self, hfirst⟩
    · obtain ⟨d, hd, hcase⟩ := ih c hc
      exact ⟨d, List.mem_cons_of_mem _ hd, hcase⟩

/-- Neither letters nor digits are blank. -/
theorem isBlank_eq_false_of_isAlphanum {c : Char} (h : c.isAlphanum = true) :
    isBlank c = false := by
  have hrange : (65 ≤ c.toNat ∧ c.toNat ≤ 90 ∨ 97 ≤ c.toNat ∧ c.toNat ≤ 122) ∨
      48 ≤ c.toNat ∧ c.toNat ≤ 57 := by
    unfold Char.isAlphanum Char.isAlpha Char.isUpper Char.isLower at h
    simpa [Char.isDigit, UInt32.le_iff_toNat_le] using h
  simp [isBlank, blankRanges]
  omega

end Text

/-! ### The grammar -/

namespace Settings

/-- The words that stand for a truth value, in small letters. -/
def words : Bool → List String
  | true => ["true", "1", "yes", "on"]
  | false => ["false", "0", "no", "off"]

/-- A text spells a number of seconds: between its blanks is a whole number below `2 ^ 64`. -/
def SpellsSeconds (text : String) (seconds : Nat) : Prop :=
  ∃ core, Text.Padded core text ∧ Numeral.Spells core seconds ∧ seconds < 2 ^ 64

/-- A text spells a truth value: between its blanks is a word for it, in any case. -/
def SpellsFlag (text : String) (flag : Bool) : Prop :=
  ∃ core, Text.Padded core text ∧ ∃ word ∈ words flag, Text.AnyCase word.toList core

/-- A variable gives a freshness window: seconds below `2 ^ 64` with blanks around them, or the
default if it is not set. -/
def GivesMaxAge : Option String → Duration → Prop
  | none, maxAge => maxAge = ({} : Settings).maxAge
  | some text, maxAge => ∃ seconds, SpellsSeconds text seconds ∧ maxAge = .ofSeconds seconds

/-- A variable gives a decrypt flag: one of the words in any case, with blanks around it, or the
default if it is not set. -/
def GivesDecrypt : Option String → Bool → Prop
  | none, decrypt => decrypt = ({} : Settings).decrypt
  | some text, decrypt => SpellsFlag text decrypt

variable {text : String} {setting : Option String} {maxAge : Duration} {decrypt flag : Bool}
  {n : Nat}

/-! ### Each reader accepts its grammar -/

/-- A number has no blanks at its ends. -/
theorem bare_of_spells {core : List Char} (h : Numeral.Spells core n) : Text.Bare core := by
  obtain ⟨digits, hcore, -, hdigits, -⟩ := h
  have hblank : ∀ c ∈ digits, Text.isBlank c = false :=
    fun c hc => Text.isBlank_eq_false_of_isAlphanum (Bool.or_eq_true_iff.mpr (.inr (hdigits c hc)))
  refine Text.bare_of_forall ?_
  rcases hcore with rfl | rfl
  · exact hblank
  · exact List.forall_mem_cons.mpr ⟨by decide, hblank⟩

/-- The words are in lower case, and their letters, small or capital, are letters and digits. -/
theorem letters_of_words (flag : Bool) : ∀ word ∈ words flag, ∀ d ∈ word.toList,
    d.toLower = d ∧ d.isAlphanum = true ∧ d.toUpper.isAlphanum = true := by
  cases flag <;> simp [words]

/-- A word has no blanks at its ends, whatever the case of its letters. -/
theorem bare_of_anyCase {word : String} {core : List Char} (hword : word ∈ words flag)
    (h : Text.AnyCase word.toList core) : Text.Bare core := by
  refine Text.bare_of_forall fun c hc => Text.isBlank_eq_false_of_isAlphanum ?_
  obtain ⟨d, hd, rfl | rfl⟩ := h.exists_mem c hc
  · exact (letters_of_words flag word hword c hd).2.1
  · exact (letters_of_words flag word hword d hd).2.2

/-- The texts that are read as a freshness window are those that spell a number of seconds. -/
theorem readMaxAge_eq_ok_iff : readMaxAge text = .ok maxAge ↔
    ∃ seconds, SpellsSeconds text seconds ∧ maxAge = .ofSeconds seconds := by
  have hread : ∀ seconds, Numeral.read Numeral.wordBound (Text.trim text) = .ok seconds ↔
      SpellsSeconds text seconds := by
    intro seconds
    rw [Numeral.read_eq_ok_iff (by decide)]
    constructor
    · rintro ⟨hspells, hlt⟩
      exact ⟨_, (Text.trim_eq_iff.mp rfl).2, hspells, hlt⟩
    · rintro ⟨core, hpadded, hspells, hlt⟩
      rw [Text.trim_eq_iff.mpr ⟨bare_of_spells hspells, hpadded⟩]
      exact ⟨hspells, hlt⟩
  simp only [← hread, readMaxAge]
  cases Numeral.read Numeral.wordBound (Text.trim text) with
  | ok seconds => simp [eq_comm]
  | error fault => simp

/-- A word stands for the truth value that it is listed under: no word is listed twice. -/
theorem flag?_eq_some_iff_mem :
    flag? text = some flag ↔ Text.lower (Text.trim text) ∈ words flag := by
  have hdisjoint : ∀ word ∈ words true, word ∉ words false := by decide
  have htrue : (["true", "1", "yes", "on"].contains (Text.lower (Text.trim text)) = true) ↔
      Text.lower (Text.trim text) ∈ words true := List.contains_iff_mem
  have hfalse : (["false", "0", "no", "off"].contains (Text.lower (Text.trim text)) = true) ↔
      Text.lower (Text.trim text) ∈ words false := List.contains_iff_mem
  simp only [flag?, htrue, hfalse]
  cases flag <;> split <;> simp_all

/-- The texts that are read as a truth value are those that spell it. -/
theorem flag?_eq_some_iff : flag? text = some flag ↔ SpellsFlag text flag := by
  have hword : ∀ word ∈ words flag, (Text.lower (Text.trim text) = word ↔
      Text.AnyCase word.toList (Text.trim text).toList) := by
    intro word hmem
    rw [← Text.map_toLower_eq_iff fun d hd => (letters_of_words flag word hmem d hd).1, Text.lower,
      ← String.toList_inj, String.toList_ofList]
  rw [flag?_eq_some_iff_mem]
  constructor
  · intro hmem
    exact ⟨_, (Text.trim_eq_iff.mp rfl).2, _, hmem, (hword _ hmem).mp rfl⟩
  · rintro ⟨core, hpadded, word, hmem, hcase⟩
    rw [← Text.trim_eq_iff.mpr ⟨bare_of_anyCase hmem hcase, hpadded⟩] at hcase
    rwa [(hword word hmem).mpr hcase]

/-- A variable is read as the freshness window that it gives. -/
theorem readOr_maxAge_iff :
    readOr defaultMaxAge readMaxAge setting = .ok maxAge ↔ GivesMaxAge setting maxAge := by
  cases setting with
  | none => simp [readOr, GivesMaxAge, eq_comm]
  | some text => exact readMaxAge_eq_ok_iff

/-- A variable is read as the decrypt flag that it gives. -/
theorem readOr_decrypt_iff :
    readOr false readDecrypt setting = .ok decrypt ↔ GivesDecrypt setting decrypt := by
  cases setting with
  | none => simp [readOr, GivesDecrypt, eq_comm]
  | some text =>
    rw [GivesDecrypt, ← flag?_eq_some_iff, readOr, readDecrypt]
    cases flag? text <;> simp

/-- A number that is printed is spelled by its digits. -/
theorem spells_toString (n : Nat) : Numeral.Spells (toString n).toList n := by
  refine ⟨_, .inl rfl, ?_, ?_, ?_⟩ <;>
    rw [Nat.toString_eq_ofList_toDigits, String.toList_ofList]
  · exact Nat.toDigits_ne_nil
  · exact fun c hc => Nat.isDigit_of_mem_toDigits (by decide) (by decide) hc
  · exact Nat.ofDigitChars_ten_toDigits

/-! ### Both variables together -/

/-- What reading the settings comes to, for variables that hold anything. -/
structure Grammatical (lookup : String → Option String) : Prop where
  /-- Settings are read just if the variables give them. -/
  accepted : ∀ settings, ofVariables lookup = .ok settings ↔
    GivesMaxAge (lookup maxAgeVariable) settings.maxAge ∧
      GivesDecrypt (lookup decryptVariable) settings.decrypt
  /-- If the variables give no settings, that is a configuration error. -/
  refused : (¬ ∃ settings : Settings, GivesMaxAge (lookup maxAgeVariable) settings.maxAge ∧
      GivesDecrypt (lookup decryptVariable) settings.decrypt) →
    ∃ e, ofVariables lookup = .error e ∧ e.kind = .configuration
  /-- The decrypt flag is asked for behind a freshness window that is in order. -/
  asked : ∀ maxAge, GivesMaxAge (lookup maxAgeVariable) maxAge →
    (read lookup).asked = [maxAgeVariable, decryptVariable]
  /-- A malformed freshness window ends the reading: the decrypt flag is not asked for, and it would
  make no difference. -/
  unasked : (¬ ∃ maxAge, GivesMaxAge (lookup maxAgeVariable) maxAge) →
    (read lookup).asked = [maxAgeVariable] ∧
      ∀ other : String → Option String, other maxAgeVariable = lookup maxAgeVariable →
        read other = read lookup
  /-- Every number of seconds that fits is read as it is printed, whatever blanks are around it. -/
  printed : ∀ n < 2 ^ 64, ∀ text, lookup maxAgeVariable = some text →
    Text.Padded (toString n).toList text →
      ∀ decrypt, GivesDecrypt (lookup decryptVariable) decrypt →
      ofVariables lookup = .ok ⟨.ofSeconds n, decrypt⟩

variable {lookup : String → Option String}

theorem read_of_maxAge_error {e : Error}
    (h : readOr defaultMaxAge readMaxAge (lookup maxAgeVariable) = .error e) :
    read lookup = ⟨[maxAgeVariable], .error e⟩ := by
  simp only [read, readThrough, logged, h, List.nil_append]

/-- Behind one that is in order the decrypt flag is read, and it decides. -/
theorem read_of_maxAge_ok
    (h : readOr defaultMaxAge readMaxAge (lookup maxAgeVariable) = .ok maxAge) :
    read lookup = ⟨[maxAgeVariable, decryptVariable],
      (readOr false readDecrypt (lookup decryptVariable)).map
        fun decrypt => ⟨maxAge, decrypt⟩⟩ := by
  simp only [read, readThrough, logged, h, List.nil_append, List.singleton_append]
  cases readOr false readDecrypt (lookup decryptVariable) <;> rfl

/-- Settings are read just if the variables give them. -/
theorem ofVariables_eq_ok_iff {settings : Settings} : ofVariables lookup = .ok settings ↔
    GivesMaxAge (lookup maxAgeVariable) settings.maxAge ∧
      GivesDecrypt (lookup decryptVariable) settings.decrypt := by
  rw [← readOr_maxAge_iff, ← readOr_decrypt_iff, ofVariables]
  cases hmaxAge : readOr defaultMaxAge readMaxAge (lookup maxAgeVariable) with
  | error e => simp [read_of_maxAge_error hmaxAge]
  | ok maxAge =>
    rw [read_of_maxAge_ok hmaxAge]
    obtain ⟨_, _⟩ := settings
    cases readOr false readDecrypt (lookup decryptVariable) <;> simp [Except.map]

/-- A freshness window is refused as a mistake in the configuration. -/
theorem kind_of_readMaxAge_error {e : Error} (h : readMaxAge text = .error e) :
    e.kind = .configuration := by
  rw [readMaxAge] at h
  split at h
  · cases h
  · obtain rfl := Except.error.inj h
    rfl

theorem kind_of_readDecrypt_error {e : Error} (h : readDecrypt text = .error e) :
    e.kind = .configuration := by
  rw [readDecrypt] at h
  split at h
  · cases h
  · obtain rfl := Except.error.inj h
    rfl

/-- A variable fails as its text does, since a default never fails. -/
theorem exists_of_readOr_error {α : Type} {default : α} {reader : String → Except Error α}
    {e : Error} (h : readOr default reader setting = .error e) :
    ∃ text, reader text = .error e := by
  cases setting with
  | none => cases h
  | some text => exact ⟨text, h⟩

/-- The settings fail with configuration errors only. -/
theorem kind_of_ofVariables_error {e : Error} (h : ofVariables lookup = .error e) :
    e.kind = .configuration := by
  rw [ofVariables] at h
  cases hmaxAge : readOr defaultMaxAge readMaxAge (lookup maxAgeVariable) with
  | error other =>
    rw [read_of_maxAge_error hmaxAge] at h
    obtain rfl := Except.error.inj h
    obtain ⟨text, hread⟩ := exists_of_readOr_error hmaxAge
    exact kind_of_readMaxAge_error hread
  | ok maxAge =>
    rw [read_of_maxAge_ok hmaxAge] at h
    cases hdecrypt : readOr false readDecrypt (lookup decryptVariable) with
    | ok decrypt =>
      rw [hdecrypt] at h
      cases h
    | error other =>
      rw [hdecrypt] at h
      obtain rfl := Except.error.inj h
      obtain ⟨text, hread⟩ := exists_of_readOr_error hdecrypt
      exact kind_of_readDecrypt_error hread

/-- **The grammar of the settings.** For every set of variables, the settings are read if and only
if each variable is not set or in its grammar, as the values that they give. Everything else is a
configuration error; behind a malformed freshness window the decrypt flag is not asked for. -/
theorem read_grammatical (lookup : String → Option String) : Grammatical lookup where
  accepted := fun _ => ofVariables_eq_ok_iff
  refused := by
    intro hnone
    cases hread : ofVariables lookup with
    | ok settings => exact absurd ⟨settings, ofVariables_eq_ok_iff.mp hread⟩ hnone
    | error e => exact ⟨e, rfl, kind_of_ofVariables_error hread⟩
  asked := by
    intro maxAge hgives
    rw [read_of_maxAge_ok (readOr_maxAge_iff.mpr hgives)]
  unasked := by
    intro hnone
    cases hread : readOr defaultMaxAge readMaxAge (lookup maxAgeVariable) with
    | ok maxAge => exact absurd ⟨maxAge, readOr_maxAge_iff.mp hread⟩ hnone
    | error e =>
      rw [read_of_maxAge_error hread]
      refine ⟨rfl, fun other hother => ?_⟩
      rw [read_of_maxAge_error (hother ▸ hread)]
  printed := by
    intro n hn text hlookup hpadded decrypt hdecrypt
    refine ofVariables_eq_ok_iff.mpr ⟨?_, hdecrypt⟩
    rw [hlookup]
    exact ⟨n, ⟨_, hpadded, spells_toString n, hn⟩, rfl⟩

end Settings

end CachedParameters
