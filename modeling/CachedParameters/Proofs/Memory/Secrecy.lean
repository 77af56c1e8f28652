import CachedParameters.Proofs.Memory.Truthful
import CachedParameters.Proofs.Provider.Origins

/-!
# Secrets stay masked

A parameter store in memory masks a secure parameter unless decryption is asked for, by the option
`decrypt` or by the default of the settings. A provider in front of it keeps decrypted values in its
cache and reads names with different flags in one batch, but it never hands a decrypted value to a
request that did not ask for one. The reason is that all it delivers was genuine for the request at
some step of the run: read with the flag of the request, and from a store that kept the name secure
at that step.

## Main results

- `Memory.OnlySecure.of_changes`: which runs write a name only as secure.
- `Memory.guards_worldAt`: what is only ever written as secure is kept secure at every step of a
  run.
- `Memory.secrets_masked`: without decryption, only masks are delivered for such names.
-/

namespace CachedParameters.Memory

/-! ### Secure parameters -/

/-- What a store keeps under a name, if anything, is secure. -/
def Parameters.Guards (s : Parameters) (name : String) : Prop :=
  ∀ parameter, s.parameters.get? name = some parameter → parameter.secure = true

/-- A step writes a name, if at all, only as secure. -/
def WritesSecurely (name : String) : Step Parameters → Prop
  | .backend change => ∀ s : Parameters, s.Guards name → (change s).Guards name
  | .serve _ | .clock _ => True

/-- A name was only ever written as secure, before a run and during it. -/
structure OnlySecure (world : World Parameters) (steps : List (Step Parameters)) (name : String) :
    Prop where
  before : world.backend.Guards name
  during : ∀ step ∈ steps, WritesSecurely name step

/-- Writing a name as secure keeps it secure, and so does writing another name. -/
theorem Parameters.Guards.put {s : Parameters} {name : String} (h : s.Guards name)
    {written : String} {secure : Bool} (hsecure : written = name → secure = true)
    (value : String) : (s.put written value secure).Guards name := by
  intro parameter hget
  rw [Parameters.put, Dict.get?_insert] at hget
  split at hget
  · rename_i hsame
    obtain rfl := Option.some.inj hget
    exact hsecure hsame
  · exact h parameter hget

theorem Parameters.Guards.remove {s : Parameters} {name : String} (h : s.Guards name)
    (removed : String) : (s.remove removed).Guards name := by
  intro parameter hget
  rw [Parameters.remove, Dict.get?_erase] at hget
  split at hget
  · cases hget
  · exact h parameter hget

/-- What may be done to a store while a name is only written as secure: the name is written as
secure or another one in any way, names are removed, calls are made to fail, and pages get another
size. -/
inductive Parameters.SecureChange (name : String) : (Parameters → Parameters) → Prop where
  | put (written value : String) (secure : Bool) : (written = name → secure = true) →
      SecureChange name (·.put written value secure)
  | remove (removed : String) : SecureChange name (·.remove removed)
  | failWhen (failing : String → Bool) :
      SecureChange name fun s => { s with recorder := s.recorder.failWhen failing }
  | withPageSize (pageSize : ℕ) : SecureChange name (·.withPageSize pageSize)

/-- A name is only ever written as secure in a run that does nothing else to the store. -/
theorem OnlySecure.of_changes {world : World Parameters} {steps : List (Step Parameters)}
    {name : String} (hbefore : world.backend.Guards name)
    (h : ∀ change, .backend change ∈ steps → Parameters.SecureChange name change) :
    OnlySecure world steps name := by
  refine ⟨hbefore, fun step hstep => ?_⟩
  cases step with
  | serve request | clock now => trivial
  | backend change =>
      intro s hguards
      cases h change hstep with
      | put written value secure hsecure => exact hguards.put hsecure value
      | remove removed => exact hguards.remove removed
      | failWhen failing | withPageSize pageSize => exact hguards

/-- **What is only ever written as secure is kept secure**, at every step of a run. -/
theorem guards_worldAt {p : Provider Parameters}
    {reads : Dict StoredParameter → String → BackendOptions → RawValue → Prop}
    {lists : Dict StoredParameter → String → BackendOptions → Listing → Prop}
    (hsource : p.source.Truthful (·.parameters) reads lists) {world : World Parameters}
    {steps : List (Step Parameters)} {name : String} (h : OnlySecure world steps name) (n : ℕ) :
    (p.worldAt world steps n).backend.Guards name := by
  induction n with
  | zero => exact h.before
  | succ n ih =>
      rw [Provider.worldAt]
      cases hstep : steps[n]? with
      | none =>
          rw [Provider.pastAt_succ_of_none hstep]
          exact ih
      | some step =>
          rw [Provider.pastAt_succ hstep]
          have hsecure := h.during step (List.mem_of_getElem? hstep)
          cases step with
          | serve request =>
              have hkept := (hsource.serve request (p.pastAt world steps n).state).1
              intro parameter hget
              refine ih parameter ?_
              rw [Provider.worldAt, ← hkept]
              exact hget
          | backend change => exact hsecure _ ih
          | clock now => exact ih

/-! ### Masks -/

/-- Without decryption the mask is read of a secure parameter. -/
theorem eq_mask_of_reads {store : ParameterStore Parameters} {s : Parameters} {name : String}
    {options : BackendOptions} {raw : RawValue} (hguards : s.Guards name)
    (hdecrypt : store.decrypts options = false)
    (hread : store.Reads s.parameters name options raw) : raw = .text mask := by
  obtain ⟨parameter, hget, rfl⟩ := ParameterStore.reads_iff.mp hread
  rw [hdecrypt, StoredParameter.reading, hguards parameter hget]
  rfl

/-- The mask is neither the text of a document nor the encoding of bytes, so if it can be decoded it
is left as it is. -/
theorem eq_mask_of_apply {transform : Transform} {name : String} {value : ParameterValue}
    (h : transform.apply name (.text mask) = .ok value) : value = .text mask := by
  have hdocument : (Document.read (RawValue.text mask).toBytes).isOk = false := by decide
  have hbytes : (Base64.decode (RawValue.text mask).toBytes).isOk = false := by decide
  rw [Transform.apply] at h
  split at h
  · cases hread : Document.read (RawValue.text mask).toBytes with
    | ok content =>
        rw [hread] at hdocument
        cases hdocument
    | error reason =>
        rw [hread] at h
        cases h
  · cases hread : Base64.decode (RawValue.text mask).toBytes with
    | ok content =>
        rw [hread] at hbytes
        cases hbytes
    | error reason =>
        rw [hread] at h
        cases h
  · exact (Except.ok.inj h).symm
  · exact (Except.ok.inj h).symm

/-! ### What is delivered -/

/-- Without decryption a provider delivers, after a run, only masks for the names that were only
ever written as secure. -/
structure MasksSecrets (defaultDecrypt : Bool) (maxAge : Duration) (world : World Parameters)
    (steps : List (Step Parameters)) : Prop where
  /-- A look-up of such a name delivers the mask. -/
  get (name : String) (options : GetOptions) (value : ParameterValue) :
    OnlySecure world steps name →
    (Parameters.store defaultDecrypt).decrypts options.backend = false →
    ((Parameters.provider defaultDecrypt maxAge).get name options
      ((Parameters.provider defaultDecrypt maxAge).run world steps).state).1 = .ok value →
      value = .text mask
  /-- A batch delivers the mask for such a name, whatever else is in the batch. -/
  getByName (parameters : List (String × Overrides)) (options : BatchOptions)
      (result : BatchResult) (name : String) (overrides : Overrides) (value : ParameterValue) :
    OnlySecure world steps name →
    (Provider.requested parameters).get? name = some overrides →
    (Parameters.store defaultDecrypt).decrypts (options.forName overrides).backend = false →
    ((Parameters.provider defaultDecrypt maxAge).getByName parameters options
      ((Parameters.provider defaultDecrypt maxAge).run world steps).state).1 = .ok result →
    result.values.get? name = some value → value = .text mask
  /-- A listing of a path delivers masks, or markers that a value could not be decoded, if all the
  names that it goes through are such. -/
  getMultiple (path : String) (options : GetOptions) (values : PathValues) (subKey : String)
      (delivered : Option ParameterValue) :
    (∀ name, Path.isUnder path (ParameterStore.descends options.backend) name = true →
      OnlySecure world steps name) →
    (Parameters.store defaultDecrypt).decrypts options.backend = false →
    ((Parameters.provider defaultDecrypt maxAge).getMultiple path options
      ((Parameters.provider defaultDecrypt maxAge).run world steps).state).1 = .ok values →
    values.get? subKey = some delivered → delivered = none ∨ delivered = some (.text mask)

/-- The value of a name that a store guarded when it was read without decryption is the mask. -/
theorem eq_mask_of_genuine {defaultDecrypt : Bool} {maxAge : Duration}
    {origin : World Parameters} {name : String} {options : GetOptions} {value : ParameterValue}
    (hguards : origin.backend.Guards name)
    (hdecrypt : (Parameters.store defaultDecrypt).decrypts options.backend = false)
    (h : (Parameters.provider defaultDecrypt maxAge).GenuineIn (·.parameters)
      (Parameters.store defaultDecrypt).Reads (Parameters.store defaultDecrypt).Lists origin
      ((Parameters.provider defaultDecrypt maxAge).singleKey name options) (.value value)) :
    value = .text mask := by
  obtain ⟨raw, hread, happly⟩ := h.read
  obtain rfl := eq_mask_of_reads hguards hdecrypt hread
  exact eq_mask_of_apply happly

/-- **Secrets stay masked.** After every run, whichever requests filled the cache before and
whichever share a batch, a request that does not ask for decryption gets nothing but masks for the
names that were only ever written as secure. -/
theorem secrets_masked (defaultDecrypt : Bool) (maxAge : Duration) (world : World Parameters)
    (steps : List (Step Parameters)) : MasksSecrets defaultDecrypt maxAge world steps := by
  have hsource := Parameters.provider_truthful defaultDecrypt maxAge
  refine ⟨?_, ?_, ?_⟩
  · intro name options value hsecure hdecrypt hok
    rw [← Provider.pastAt_length, Provider.get_eq_inquire] at hok
    obtain ⟨i, -, hgenuine⟩ :=
      Provider.inquire_genuine hsource (hsource.bringsGenuine_ofName name options) hok
    exact eq_mask_of_genuine (guards_worldAt hsource hsecure i) hdecrypt hgenuine
  · intro parameters options result name overrides value hsecure hname hdecrypt hok hvalue
    rw [← Provider.pastAt_length] at hok
    obtain ⟨i, -, hgenuine⟩ := Provider.getByName_genuine hsource hok hname hvalue
    exact eq_mask_of_genuine (guards_worldAt hsource hsecure i) hdecrypt hgenuine
  · intro path options values subKey delivered hsecure hdecrypt hok hdelivered
    rw [← Provider.pastAt_length, Provider.getMultiple_eq_inquire] at hok
    obtain ⟨i, -, hgenuine⟩ :=
      Provider.inquire_genuine hsource (hsource.bringsGenuine_ofPath path options) hok
    obtain ⟨listing, hlists, hdecode⟩ := hgenuine.listed
    obtain ⟨raw, hraw, hentry⟩ := Listing.get?_of_decode hdecode hdelivered
    obtain ⟨name, hunder, -, hread⟩ := hlists subKey raw hraw
    have hguards := guards_worldAt hsource (hsecure name hunder) i
    obtain rfl := eq_mask_of_reads hguards hdecrypt hread
    cases happly : options.transform.apply subKey (.text mask) with
    | error e =>
        rw [happly] at hentry
        exact .inl hentry
    | ok value =>
        rw [happly, eq_mask_of_apply happly] at hentry
        exact .inr hentry

/-- A decrypted value in the cache is left to the requests that ask for one. -/
example :
    let p := Parameters.provider false (.ofSeconds 5)
    let decrypted : GetOptions := { backend := BackendOptions.withDecrypt .empty true }
    let s := (p.run { backend := Parameters.put {} "a" "1" true, now := .zero }
      [.serve (.get "a" decrypted)]).state
    (p.get "a" {} s).1 = .ok (.text mask) ∧ (p.get "a" decrypted s).1 = .ok (.text "1") :=
  ⟨rfl, rfl⟩

end CachedParameters.Memory
