import CachedParameters.Proofs.Memory.Listings
import CachedParameters.Proofs.Text.Relative

/-!
# Sub-keys of listed parameters

A listing of the parameter store in memory gives every parameter under the path a sub-key, its name
relative to the path (`relative_name`). The parameters that are listed depend on the stem of the
path alone, but their sub-keys on the path as it is written, and nothing keeps two sub-keys apart.
So a listing loses parameters whose sub-keys agree with a later one's, and a slash more at the end
of the path may change sub-keys.

## Main results

- `Memory.Parameters.complete_iff_subKeys_differ`: what a listing holds, and when it loses nothing.
- `Memory.Parameters.skipped_level_loses`: two parameters with one sub-key.
- `Memory.Parameters.slash_iff_not_detached`: when a slash more at the end of the path does not
  matter.
- `Memory.Parameters.second_slash_detaches`: a slash more that changes a sub-key.
-/

namespace CachedParameters

/-! ### The parameters under a path -/

namespace Memory.Parameters

variable {s : Parameters} {path : String} {recursive : Bool}

theorem under_of_mem {entry : String × StoredParameter} (h : entry ∈ s.under path recursive) :
    Path.Under path recursive entry.1 :=
  of_decide_eq_true (List.mem_filter.mp h).2

/-- Parameters under a path with one name are one parameter. -/
theorem eq_of_mem_under {entry other : String × StoredParameter}
    (hentry : entry ∈ s.under path recursive) (hother : other ∈ s.under path recursive)
    (h : entry.1 = other.1) : entry = other :=
  List.inj_on_of_nodup_map s.parameters.names_nodup (List.mem_of_mem_filter hentry)
    (List.mem_of_mem_filter hother) h

theorem under_nodup : (s.under path recursive).Nodup :=
  (List.Nodup.of_map _ s.parameters.names_nodup).filter _

/-- The same parameters are under a path with a slash more at its end. -/
theorem under_slash : s.under (path ++ "/") recursive = s.under path recursive :=
  List.filter_congr fun _ _ => decide_eq_decide.mpr Path.under_slash_iff

end Memory.Parameters

/-! ### Sub-keys -/

namespace ParameterStore

variable {store : ParameterStore Memory.Parameters} {path : String} {options : BackendOptions}
  {s : Memory.Parameters}

/-- Under a sub-key stands what is read of the last parameter with it. -/
theorem get?_listing_iff {subKey : String} {value : RawValue} :
    (store.listing path options s).get? subKey = some value ↔
      ∃ front entry back, s.under path (descends options) = front ++ entry :: back ∧
        (Path.relative path entry.1 = subKey ∧
          .text (entry.2.reading (store.decrypts options)) = value) ∧
        ∀ later ∈ back, Path.relative path later.1 ≠ subKey := by
  simp only [listing, Dict.get?_ofList_map_eq_some_iff, Prod.mk.injEq]

/-- A listing loses nothing exactly when the sub-keys differ. -/
theorem size_listing_iff :
    (store.listing path options s).size = (s.under path (descends options)).length ↔
      ∀ entry ∈ s.under path (descends options), ∀ other ∈ s.under path (descends options),
        Path.relative path entry.1 = Path.relative path other.1 → entry = other := by
  rw [← List.nodup_map_iff_inj_on Memory.Parameters.under_nodup, listing]
  convert Dict.size_ofList_eq_iff using 2
  · rw [List.length_map]
  · rw [List.map_map]
    rfl

/-- A sub-key is listed if it is one of a parameter under the path. -/
theorem mem_names_listing {subKey : String} :
    subKey ∈ (store.listing path options s).names ↔
      ∃ entry ∈ s.under path (descends options), Path.relative path entry.1 = subKey := by
  rw [listing, Dict.mem_names_ofList, List.map_map, List.mem_map]
  rfl

/-- Where a slash more detaches no name, the listing is the same. -/
theorem listing_slash
    (h : ∀ entry ∈ s.under path (descends options), ¬ Path.Detached path entry.1) :
    store.listing (path ++ "/") options s = store.listing path options s := by
  have hsubKeys : ∀ entry ∈ s.under path (descends options),
      Path.relative (path ++ "/") entry.1 = Path.relative path entry.1 := fun entry hentry =>
    (Path.relative_slash_iff (Memory.Parameters.under_of_mem hentry)).mpr (h entry hentry)
  rw [listing, listing, Memory.Parameters.under_slash]
  congr 1
  refine List.map_congr_left fun entry hentry => ?_
  rw [hsubKeys entry hentry]

/-- If the listing is the same and it loses nothing, no name is detached. -/
theorem not_detached_of_listing_eq
    (hsame : store.listing (path ++ "/") options s = store.listing path options s)
    (hdiffer : ∀ entry ∈ s.under path (descends options),
      ∀ other ∈ s.under path (descends options),
        Path.relative path entry.1 = Path.relative path other.1 → entry = other) :
    ∀ entry ∈ s.under path (descends options), ¬ Path.Detached path entry.1 := by
  intro entry hentry
  -- The sub-key of a detached name is found again: it is the new one of a shorter detached name.
  induction hlength : entry.1.toList.length using Nat.strong_induction_on generalizing entry with
  | _ length ih =>
    subst hlength
    intro hdetached
    have hname : Path.relative path entry.1 ∈ (store.listing (path ++ "/") options s).names := by
      rw [hsame, mem_names_listing]
      exact ⟨entry, hentry, rfl⟩
    obtain ⟨other, hother, hfound⟩ := mem_names_listing.mp hname
    rw [Memory.Parameters.under_slash] at hother
    have hunder := Memory.Parameters.under_of_mem hentry
    have hunder' := Memory.Parameters.under_of_mem hother
    by_cases hdetached' : Path.Detached path other.1
    · exact ih _ (hdetached'.length_lt hdetached hunder' hunder hfound) other hother rfl hdetached'
    · rw [(Path.relative_slash_iff hunder').mpr hdetached'] at hfound
      rw [hdiffer other hother entry hentry hfound] at hdetached'
      exact hdetached' hdetached

end ParameterStore

/-! ### Listings that lose nothing -/

namespace Memory.Parameters

open ParameterStore (descends)

/-- **A listing loses no parameter exactly when the sub-keys differ.** They do if the listing does
not descend, and if no name skips a level behind the path. In any case the last of the parameters
with one sub-key is listed. -/
theorem complete_iff_subKeys_differ (defaultDecrypt : Bool) (path : String)
    (options : BackendOptions) (s : Parameters) (hcalm : s.recorder.Calm)
    (hsize : s.parameters.size ≤ Numeral.wordBound) :
    let store : ParameterStore Parameters := ⟨client, defaultDecrypt⟩
    let listed := s.under path (descends options)
    ∃ listing, (store.fetchMany path options s).1 = .ok listing ∧
      (∀ subKey value, listing.get? subKey = some value ↔
        ∃ front entry back, listed = front ++ entry :: back ∧
          (Path.relative path entry.1 = subKey ∧
            .text (entry.2.reading (store.decrypts options)) = value) ∧
          ∀ later ∈ back, Path.relative path later.1 ≠ subKey) ∧
      (listing.size = listed.length ↔
        ∀ entry ∈ listed, ∀ other ∈ listed,
          Path.relative path entry.1 = Path.relative path other.1 → entry = other) ∧
      (descends options = false ∨ (∀ entry ∈ listed, ¬ Path.SkipsLevel path entry.1) →
        listing.size = listed.length) := by
  intro store listed
  have hword : listed.length ≤ Numeral.wordBound := (List.length_filter_le _ _).trans hsize
  refine ⟨store.listing path options s, ?_, fun _ _ => ParameterStore.get?_listing_iff,
    ParameterStore.size_listing_iff, fun hskips => ?_⟩
  · rw [ParameterStore.fetchMany_eq defaultDecrypt path options s hcalm hword]
  · have hskips : ∀ entry ∈ listed, ¬ Path.SkipsLevel path entry.1 := by
      rcases hskips with hflat | hskips
      · intro entry hentry
        have hunder := under_of_mem hentry
        rw [hflat] at hunder
        exact Path.not_skipsLevel_of_under hunder
      · exact hskips
    refine ParameterStore.size_listing_iff.mpr fun entry hentry other hother heq => ?_
    exact eq_of_mem_under hentry hother (Path.eq_of_relative_eq (under_of_mem hentry)
      (under_of_mem hother) (hskips entry hentry) (hskips other hother) heq)

/-- Two parameters on different levels are both listed. -/
theorem complete_iff_subKeys_differ_two_levels :
    let s := (put {} "/app/a" "1" false).put "/app/b/c" "2" true
    let options : BackendOptions := .ofList [(BackendOptions.recursiveKey, .bool true)]
    s.recorder.Calm ∧ s.parameters.size ≤ Numeral.wordBound ∧
      ∃ listing, (ParameterStore.fetchMany ⟨client, false⟩ "/app//" options s).1 = .ok listing ∧
        listing.size = 2 := by
  intro s options
  have hcalm : s.recorder.Calm := fun _ => rfl
  have hsize : s.parameters.size ≤ Numeral.wordBound := by decide
  obtain ⟨listing, hok, -, -, hcomplete⟩ :=
    complete_iff_subKeys_differ false "/app//" options s hcalm hsize
  have hlisted : (s.under "/app//" (descends options)).length = 2 := by decide
  exact ⟨hcalm, hsize, listing, hok, (hcomplete (.inr (by decide))).trans hlisted⟩

/-- A name that skips a level behind the path has the sub-key of one that does not, and of the two
parameters one is listed. -/
theorem skipped_level_loses :
    let s := (put {} "/app/a" "1" false).put "/app//a" "2" false
    let options : BackendOptions := .ofList [(BackendOptions.recursiveKey, .bool true)]
    s.recorder.Calm ∧
      (s.under "/app" (descends options)).map (·.1) = ["/app//a", "/app/a"] ∧
      (ParameterStore.fetchMany ⟨client, false⟩ "/app" options s).1 =
        .ok (.ofList [("a", .text "1")]) := by
  intro s options
  have hcalm : s.recorder.Calm := fun _ => rfl
  refine ⟨hcalm, by decide, ?_⟩
  rw [ParameterStore.fetchMany_eq false "/app" options s hcalm (by decide)]
  exact congrArg Except.ok (by decide)

/-- **A slash more at the end of a path does not matter if it detaches no name.** It detaches none
unless the path has a slash at its end and something else in it. Where the listing loses nothing, it
is the same only if no name is detached. -/
theorem slash_iff_not_detached (defaultDecrypt : Bool) (path : String)
    (options : BackendOptions) (s : Parameters) (hcalm : s.recorder.Calm)
    (hsize : s.parameters.size ≤ Numeral.wordBound) :
    let store : ParameterStore Parameters := ⟨client, defaultDecrypt⟩
    let listed := s.under path (descends options)
    ∃ without more, (store.fetchMany path options s).1 = .ok without ∧
      (store.fetchMany (path ++ "/") options s).1 = .ok more ∧
      ((∀ entry ∈ listed, ¬ Path.Detached path entry.1) → more = without) ∧
      ((path.toList.getLast? = some '/' → Path.stem path = []) → more = without) ∧
      (without.size = listed.length → more = without →
        ∀ entry ∈ listed, ¬ Path.Detached path entry.1) := by
  intro store listed
  have hword : listed.length ≤ Numeral.wordBound := (List.length_filter_le _ _).trans hsize
  have hword' : (s.under (path ++ "/") (descends options)).length ≤ Numeral.wordBound := by
    rwa [under_slash]
  refine ⟨store.listing path options s, store.listing (path ++ "/") options s, ?_, ?_,
    ParameterStore.listing_slash, fun hpath => ?_, fun hcomplete hsame => ?_⟩
  · rw [ParameterStore.fetchMany_eq defaultDecrypt path options s hcalm hword]
  · rw [ParameterStore.fetchMany_eq defaultDecrypt (path ++ "/") options s hcalm hword']
  · exact ParameterStore.listing_slash fun entry hentry =>
      Path.not_detached (under_of_mem hentry) hpath
  · exact ParameterStore.not_detached_of_listing_eq hsame
      (ParameterStore.size_listing_iff.mp hcomplete)

/-- A path without a slash at its end lists the same with one. -/
theorem slash_iff_not_detached_first_slash :
    let s := (put {} "/app/a" "1" false).put "/app//b" "2" true
    let options : BackendOptions := .ofList [(BackendOptions.recursiveKey, .bool true)]
    s.recorder.Calm ∧ s.parameters.size ≤ Numeral.wordBound ∧
      ∃ listing, (ParameterStore.fetchMany ⟨client, false⟩ "/app" options s).1 = .ok listing ∧
        (ParameterStore.fetchMany ⟨client, false⟩ ("/app" ++ "/") options s).1 = .ok listing := by
  intro s options
  have hcalm : s.recorder.Calm := fun _ => rfl
  have hsize : s.parameters.size ≤ Numeral.wordBound := by decide
  obtain ⟨listing, more, hwithout, hmore, -, hpath, -⟩ :=
    slash_iff_not_detached false "/app" options s hcalm hsize
  obtain rfl := hpath (by decide)
  exact ⟨hcalm, hsize, more, hwithout, hmore⟩

/-- A second slash at the end of a path detaches the names that go on without one. -/
theorem second_slash_detaches :
    let s := put {} "/app/a" "1" false
    s.recorder.Calm ∧
      (ParameterStore.fetchMany ⟨client, false⟩ "/app/" .empty s).1 =
        .ok (.ofList [("a", .text "1")]) ∧
      (ParameterStore.fetchMany ⟨client, false⟩ ("/app/" ++ "/") .empty s).1 =
        .ok (.ofList [("app/a", .text "1")]) := by
  intro s
  have hcalm : s.recorder.Calm := fun _ => rfl
  refine ⟨hcalm, ?_, ?_⟩
  · rw [ParameterStore.fetchMany_eq false "/app/" .empty s hcalm (by decide)]
    exact congrArg Except.ok (by decide)
  · rw [ParameterStore.fetchMany_eq false ("/app/" ++ "/") .empty s hcalm (by decide)]
    exact congrArg Except.ok (by decide)

end Memory.Parameters

end CachedParameters
