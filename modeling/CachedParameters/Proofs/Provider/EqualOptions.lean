import CachedParameters.Proofs.Cache.Key
import CachedParameters.Proofs.Document.Equality
import CachedParameters.Proofs.Provider.Requests

/-!
# Equal options in a cache

Look-ups that differ only in how their `BackendOptions` came about (`insert`, `merged`) share what
is kept. Options that are equal without being the same do not: the two zeros are equal as numbers,
but their texts differ in the sign, and so do the keys. Equal options therefore share a key just if
the zeros in them have the same signs, and then what was retrieved with the one serves the other
while it is young enough.

## Main definitions

- `BackendOptions.Course`: options are inserted one after another and merged.
- `Provider.Shares`: what one look-up retrieved serves another one.

## Main results

- `BackendOptions.Course.get?_options`: what was said last about a key is the option.
- `Provider.shares_of_key_eq`: look-ups with one key share what is kept.
- `BackendOptions.equal_options`: equal options have one text form just if their zeros have the same
  signs, however they came about, and in that case look-ups share what is kept.
- `BackendOptions.equal_options_apart`: a zero of either sign, which are equal options with two text
  forms.
-/

namespace CachedParameters

/-! ### How options come about -/

namespace BackendOptions

/-- A course of steps that options are made by: one option after another is set, in place of the one
before it, and options made by a course of their own are put over those made so far. -/
inductive Course where
  | start
  | insert (before : Course) (key : String) (value : Document)
  | merged (before overrides : Course)

namespace Course

/-- The options that a course makes: what it sets is set and what it merges is merged, in its
order. -/
def options : Course → BackendOptions
  | .start => .empty
  | .insert before key value => before.options.insert key value
  | .merged before overrides => BackendOptions.merged before.options overrides.options

/-- What a course says last about a key. -/
def last? (key : String) : Course → Option Document
  | .start => none
  | .insert before other value => if other = key then some value else before.last? key
  | .merged before overrides => (overrides.last? key).or (before.last? key)

/-- What was said last about a key is the option, so the course itself does not matter. -/
theorem get?_options (course : Course) (key : String) :
    course.options.get? key = course.last? key := by
  induction course with
  | start => rfl
  | insert before other value ih => rw [options, Dict.get?_insert, ih, last?]
  | merged before overrides ihbefore ihoverrides =>
    rw [options, BackendOptions.merged, Dict.get?_insertAll, Dict.get?_reverse_entries,
      ihbefore, ihoverrides, last?]

/-- Courses that come to say the same about every key make the same options. -/
theorem options_eq {course : Course} {options : BackendOptions}
    (h : ∀ key, course.last? key = options.get? key) : course.options = options :=
  Dict.ext fun key => (get?_options course key).trans (h key)

end Course

/-- The signs of the zeros in options, in the order of the keys. -/
def zeroSigns (options : BackendOptions) : List Bool := (Document.ofDict options).zeroSigns

variable {a b : BackendOptions}

/-- Equal options are the same just if their zeros have the same signs. -/
theorem eq_iff_zeroSigns_eq (h : a.equals b = true) : a = b ↔ a.zeroSigns = b.zeroSigns := by
  rw [zeroSigns, zeroSigns, ← Document.eq_iff_zeroSigns_eq h]
  exact ⟨congrArg _, fun hsame => eq_of_entries_eq (Document.object.inj hsame)⟩

end BackendOptions

/-! ### What a look-up retrieved serves others -/

namespace Provider

variable {σ : Type} {p : Provider σ} {name : String} {options first second : GetOptions}
  {s : State σ} {value : ParameterValue} {stored : Instant}

/-- What look-ups with the options `first` reply serves look-ups with `second`: as long as it is
kept and young enough, they reply it without a call, and nothing changes. If it has just been
fetched, its age counts from then. -/
def Shares (p : Provider σ) (name : String) (first second : GetOptions) : Prop :=
  ∀ (s : State σ) (value : ParameterValue), (p.get name first s).1 = .ok value →
    ∃ stored : Instant,
      (p.exchanges (.get name first) s ≠ [] → stored = (p.get name first s).2.world.now) ∧
      ∀ later : State σ,
        later.cache.find? (p.singleKey name first) =
          (p.get name first s).2.cache.find? (p.singleKey name first) →
        later.world.now.since stored < p.ageLimit second.maxAge →
          (p.get name second later).1 = .ok value ∧
            p.exchanges (.get name second) later = [] ∧
            (p.get name second later).2.world = later.world ∧
            (p.get name second later).2.cache = later.cache

/-- What a look-up replies is kept afterwards, since now if it has just been fetched. -/
theorem exists_kept_of_get (h : (p.get name options s).1 = .ok value) :
    ∃ stored,
      (p.get name options s).2.cache.find? (p.singleKey name options) =
        some ⟨.value value, stored⟩ ∧
      (p.exchanges (.get name options) s ≠ [] →
        stored = (p.get name options s).2.world.now) := by
  rw [get_eq_inquire] at h ⊢
  rw [exchanges_get]
  cases hcached : p.known? (.ofName name options) s with
  | some found =>
    rw [inquire_of_known hcached] at h ⊢
    obtain rfl := Except.ok.inj h
    obtain ⟨stored, hkept⟩ := exists_kept_of_known hcached
    exact ⟨stored, hkept, fun hcalls => absurd (calls_of_known hcached) hcalls⟩
  | none =>
    obtain ⟨hreply, hworld, hcache⟩ := inquire_of_unknown hcached
    rw [hreply] at h
    refine ⟨_, ?_, fun _ => rfl⟩
    rw [hcache, hworld, h]
    exact (Assoc.find?_insert ..).trans (if_pos rfl)

/-- Look-ups with one key share what is kept. -/
theorem shares_of_key_eq (hkey : p.singleKey name first = p.singleKey name second)
    (hforce : second.forceFetch = false) : p.Shares name first second := by
  intro s value hget
  obtain ⟨stored, hkept, hfetched⟩ := exists_kept_of_get hget
  refine ⟨stored, hfetched, fun later hlater hage => ?_⟩
  rw [hkept, hkey] at hlater
  have hcached := known?_of_kept (q := .ofName name second) hforce hlater hage
  rw [get_eq_inquire, exchanges_get, inquire_of_known hcached]
  exact ⟨rfl, calls_of_known hcached, rfl, rfl⟩

end Provider

/-! ### Equal options -/

namespace BackendOptions

/-- What equal options have in common. -/
structure Equal (a b : BackendOptions) : Prop where
  /-- They have one text form just if their zeros have the same signs. -/
  fingerprint : a.fingerprint = b.fingerprint ↔ a.zeroSigns = b.zeroSigns
  /-- That does not depend on how they came about. -/
  built : ∀ c d : Course, (∀ key, c.last? key = a.get? key) → (∀ key, d.last? key = b.get? key) →
    (c.options.fingerprint = d.options.fingerprint ↔ a.zeroSigns = b.zeroSigns)
  /-- Look-ups of one name share a key just then. -/
  single : ∀ (provider name : String) (transform : Transform),
    CacheKey.single provider name transform a = CacheKey.single provider name transform b ↔
      a.zeroSigns = b.zeroSigns
  /-- So do listings. -/
  multiple : ∀ (provider path : String) (transform : Transform) (strict : Bool),
    CacheKey.multiple provider path transform strict a =
        CacheKey.multiple provider path transform strict b ↔
      a.zeroSigns = b.zeroSigns
  /-- What a look-up has replied with the one options then serves look-ups with the other. -/
  served : a.zeroSigns = b.zeroSigns → ∀ {σ : Type} (p : Provider σ) (name : String)
    (first second : GetOptions), first.backend = a → second.backend = b →
      first.transform.resolve name = second.transform.resolve name →
      second.forceFetch = false → p.Shares name first second

/-- **Equal options** have one text form just if their zeros have the same signs, however they came
about. In that case what was retrieved with the one serves look-ups with the other. -/
theorem equal_options {a b : BackendOptions} (h : a.equals b = true) : Equal a b where
  fingerprint := fingerprint_injective.eq_iff.trans (eq_iff_zeroSigns_eq h)
  built := by
    intro c d hc hd
    rw [Course.options_eq hc, Course.options_eq hd]
    exact fingerprint_injective.eq_iff.trans (eq_iff_zeroSigns_eq h)
  single := by
    intro provider name transform
    rw [CacheKey.single_inj, ← eq_iff_zeroSigns_eq h]
    simp
  multiple := by
    intro provider path transform strict
    rw [CacheKey.multiple_inj, ← eq_iff_zeroSigns_eq h]
    simp
  served := by
    intro hsigns σ p name first second hfirst hsecond htransform hforce
    refine Provider.shares_of_key_eq ?_ hforce
    rw [Provider.singleKey, Provider.singleKey, htransform, hfirst, hsecond,
      (eq_iff_zeroSigns_eq h).mpr hsigns]

/-- An option that is zero, with a plus and with a minus sign. -/
def zeroRatio (negative : Bool) : BackendOptions :=
  Dict.empty.insert "ratio" (.real (if negative then -0.0 else 0.0))

/-- The two zeros are equal options, so all of this is true of them. -/
theorem equal_options_two_zeros :
    (zeroRatio false).equals (zeroRatio true) = true ∧ Equal (zeroRatio false) (zeroRatio true) :=
  ⟨by decide, equal_options (by decide)⟩

/-- **The two zeros** are equal options with two text forms. -/
theorem equal_options_apart :
    ¬ ∀ a b : BackendOptions, a.equals b = true → a.fingerprint = b.fingerprint := by
  intro h
  exact absurd (h (zeroRatio false) (zeroRatio true) (by decide)) (by decide)

end BackendOptions

end CachedParameters
