import CachedParameters.Cache
import CachedParameters.Proofs.Document.Unambiguous

/-!
# Keys tell requests apart

A `CacheKey` keeps the backend options of a request as their `fingerprint`, so two requests share an
entry of the cache if their fingerprints agree. They do so only if the options are the same: the
compact text of a document is unambiguous, and no options at all have the empty text, which is the
text of no document.

## Main results

- `BackendOptions.fingerprint_injective`: different options have different fingerprints.
- `CacheKey.eq_iff_same_request`: a key determines everything about its request.
-/

namespace CachedParameters

namespace BackendOptions

/-- Options that are not empty have the text of their document as fingerprint. -/
theorem fingerprint_eq_render {options : BackendOptions} (h : options.entries ≠ []) :
    options.fingerprint = (Document.ofDict options).render := by
  rw [fingerprint, if_neg (by simpa using h)]

theorem fingerprint_eq_empty {options : BackendOptions} (h : options.entries = []) :
    options.fingerprint = "" := by
  rw [fingerprint, if_pos (by simpa using h)]

theorem render_ne_empty (d : Document) : d.render ≠ "" := by
  intro h
  obtain ⟨c, rest, hchars, -⟩ := Document.chars_eq_cons d
  rw [Document.render, hchars, String.ofList_eq_empty_iff] at h
  exact List.cons_ne_nil c rest h

theorem eq_of_entries_eq {a b : BackendOptions} (h : a.entries = b.entries) : a = b :=
  Dict.ext fun name => by rw [Dict.get?, Dict.get?, h]

/-- **Different options have different fingerprints.** The empty options have the empty fingerprint,
which is the text of no document, and all others the text of their object, which tells it apart from
every other one. -/
theorem fingerprint_injective : Function.Injective fingerprint := by
  intro a b h
  apply eq_of_entries_eq
  by_cases ha : a.entries = [] <;> by_cases hb : b.entries = []
  · rw [ha, hb]
  · rw [fingerprint_eq_empty ha, fingerprint_eq_render hb] at h
    exact absurd h.symm (render_ne_empty _)
  · rw [fingerprint_eq_render ha, fingerprint_eq_empty hb] at h
    exact absurd h (render_ne_empty _)
  · rw [fingerprint_eq_render ha, fingerprint_eq_render hb] at h
    exact Document.object.inj (Document.render_injective h)

end BackendOptions

namespace CacheKey

/-- Look-ups of one name share a key only if they are the same. -/
theorem single_inj {provider provider' name name' : String} {transform transform' : Transform}
    {a b : BackendOptions} :
    single provider name transform a = single provider' name' transform' b ↔
      provider = provider' ∧ name = name' ∧ transform = transform' ∧ a = b := by
  constructor
  · intro h
    obtain ⟨hprovider, -, hname, htransform, hoptions⟩ := CacheKey.mk.inj h
    exact ⟨hprovider, hname, htransform, BackendOptions.fingerprint_injective hoptions⟩
  · rintro ⟨rfl, rfl, rfl, rfl⟩
    rfl

/-- Listings share a key only if they are the same. -/
theorem multiple_inj {provider provider' path path' : String} {transform transform' : Transform}
    {strict strict' : Bool} {a b : BackendOptions} :
    multiple provider path transform strict a = multiple provider' path' transform' strict' b ↔
      provider = provider' ∧ path = path' ∧ transform = transform' ∧ strict = strict' ∧
        a = b := by
  constructor
  · intro h
    obtain ⟨hprovider, hlookup, hpath, htransform, hoptions⟩ := CacheKey.mk.inj h
    exact ⟨hprovider, hpath, htransform, Lookup.multiple.inj hlookup,
      BackendOptions.fingerprint_injective hoptions⟩
  · rintro ⟨rfl, rfl, rfl, rfl, rfl⟩
    rfl

/-- A look-up of one name shares no key with a listing. -/
theorem single_ne_multiple (provider provider' name path : String)
    (transform transform' : Transform) (strict : Bool) (a b : BackendOptions) :
    single provider name transform a ≠ multiple provider' path transform' strict b := by
  intro h
  exact Lookup.noConfusion (CacheKey.mk.inj h).2.1

/-- **A key determines everything about its request**: what is looked up, where, how values are
decoded, and the backend options, key by key and document by document. -/
theorem eq_iff_same_request :
    (∀ (provider provider' name name' : String) (transform transform' : Transform)
        (a b : BackendOptions),
      single provider name transform a = single provider' name' transform' b ↔
        provider = provider' ∧ name = name' ∧ transform = transform' ∧ a = b) ∧
    (∀ (provider provider' path path' : String) (transform transform' : Transform)
        (strict strict' : Bool) (a b : BackendOptions),
      multiple provider path transform strict a = multiple provider' path' transform' strict' b ↔
        provider = provider' ∧ path = path' ∧ transform = transform' ∧ strict = strict' ∧
          a = b) ∧
    (∀ (provider provider' name path : String) (transform transform' : Transform) (strict : Bool)
        (a b : BackendOptions),
      single provider name transform a ≠ multiple provider' path transform' strict b) ∧
    Function.Injective BackendOptions.fingerprint := by
  refine ⟨?_, ?_, single_ne_multiple, BackendOptions.fingerprint_injective⟩
  · intros
    exact single_inj
  · intros
    exact multiple_inj

end CacheKey

end CachedParameters
