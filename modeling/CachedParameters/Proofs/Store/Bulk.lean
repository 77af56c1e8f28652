import CachedParameters.Memory.Configurations
import CachedParameters.Memory.Parameters
import CachedParameters.Proofs.Dict
import CachedParameters.Store.Parameters

/-!
# Bulk look-ups and their names

Every name of a bulk look-up ends up among the values or among the failures of its `BulkFetch`, and
no other name does. It ends up on one side only as long as it is asked for once. The
`ParameterStore` takes a value out of the answer when it comes to its name, so a name that it finds
and comes to again is listed as failed as well. The other stores look up their names one by one, and
they have a name on both sides if one look-up of it succeeds and another one fails.

## Main results

- `ParameterStore.mem_collect_failed_iff`: which names the parameter store lists as failed.
- `Source.mem_fetchEach_values_iff`, `Source.mem_fetchEach_failed_iff`: what look-ups one by one
  amount to.
- `BulkFetch.accounts_iff`: when every name is on one side only.
- `BulkFetch.repeated_on_both_sides`: names that are not.
-/

namespace CachedParameters

namespace BulkFetch

/-- A bulk look-up **covers** names if these are the names that it has on either side. -/
def Covers (bulk : BulkFetch) (names : List String) : Prop :=
  ∀ name, name ∈ bulk.values.names ∨ name ∈ bulk.failed ↔ name ∈ names

/-- A bulk look-up **accounts** for names if it covers them and has none on both sides. -/
def Accounts (bulk : BulkFetch) (names : List String) : Prop :=
  bulk.Covers names ∧ ∀ name ∈ bulk.values.names, name ∉ bulk.failed

end BulkFetch

/-! ### The parameter store -/

namespace ParameterStore

/-- Dividing names gathers what was brought for them, although each is taken only once. -/
theorem gathers_collect (found : Dict String) (bulk : BulkFetch) (names : List String) :
    Dict.Gathers (fun name => (found.get? name).map RawValue.text) names bulk.values
      (collect found bulk names).values := by
  induction names generalizing found bulk with
  | nil => exact .nil _ _
  | cons first rest ih =>
      rw [collect]
      cases hfound : found.get? first with
      | some value =>
          have htext : (found.get? first).map RawValue.text = some (.text value) := by
            rw [hfound]
            rfl
          refine .cons_once htext ?_ ?_ (ih (found.erase first) _)
          · intro other hother
            rw [Dict.get?_erase, if_pos rfl] at hother
            exact absurd hother.symm (Option.some_ne_none other)
          · intro name hname
            rw [Dict.get?_erase, if_neg hname]
      | none =>
          have hmissing : (found.get? first).map RawValue.text = none := by
            rw [hfound]
            rfl
          exact .cons_none hmissing (ih found _)

/-- The names that have a value are those that were found. -/
theorem mem_collect_values_iff (found : Dict String) (names : List String) (name : String) :
    name ∈ (collect found {} names).values.names ↔
      name ∈ names ∧ (found.get? name).isSome = true := by
  rw [Dict.mem_names_iff, gathers_collect found {} names name, ← Option.isSome_iff_exists]
  by_cases hname : name ∈ names
  · rw [if_pos hname, Dict.get?_empty, Option.or_none, Option.isSome_map, and_iff_right hname]
  · rw [if_neg hname, Dict.get?_empty]
    simp [hname]

/-- **A name is listed as failed** if it stands in the list more often than it was found. -/
theorem mem_collect_failed_iff (found : Dict String) (bulk : BulkFetch) (names : List String)
    (name : String) :
    name ∈ (collect found bulk names).failed ↔
      name ∈ bulk.failed ∨
        (if (found.get? name).isSome then 1 else 0) < names.count name := by
  induction names generalizing found bulk with
  | nil => simp [collect]
  | cons first rest ih =>
      rw [collect]
      cases hfound : found.get? first with
      | some value =>
          dsimp only
          rw [ih, Dict.get?_erase, List.count_cons]
          by_cases hname : first = name
          · subst hname
            simp [hfound]
          · simp [hname]
      | none =>
          dsimp only
          rw [ih, List.mem_append, List.mem_singleton, List.count_cons]
          by_cases hname : first = name
          · subst hname
            simp [hfound]
          · simp [hname, Ne.symm hname]

/-- The parameter store divides the names as its answer has them. -/
theorem eq_collect_of_ok {κ : Type} {store : ParameterStore κ} {names : List String}
    {options : BackendOptions} {world : World κ} {bulk : BulkFetch}
    (hok : (store.source.fetchBulk names options world).1 = .ok bulk) :
    ∃ found, bulk = collect found {} names := by
  simp only [source, fetchBulk] at hok
  generalize Fetch.ofCall (store.client.getParameters names (store.decrypts options) options)
    world = answer at hok
  obtain ⟨outcome, after⟩ := answer
  cases outcome with
  | ok batch => exact ⟨batch.found, (Except.ok.inj hok).symm⟩
  | error e => cases hok

/-- **The parameter store covers its names**, and it accounts for them exactly if every name that it
found stands in the list once. -/
theorem collect_accounts_iff (found : Dict String) (names : List String) :
    (collect found {} names).Covers names ∧
      ((collect found {} names).Accounts names ↔
        ∀ name ∈ (collect found {} names).values.names, names.count name = 1) := by
  have hcovers : (collect found {} names).Covers names := by
    intro name
    rw [mem_collect_values_iff, mem_collect_failed_iff, or_iff_right List.not_mem_nil,
      ← List.count_pos_iff]
    cases (found.get? name).isSome with
    | true => simp only [and_true, if_true]; omega
    | false => simp
  refine ⟨hcovers, ⟨fun haccounts name hvalue => ?_, fun honce => ⟨hcovers, fun name hvalue => ?_⟩⟩⟩
  · have hfailed := haccounts.2 name hvalue
    obtain ⟨hname, hfound⟩ := (mem_collect_values_iff found names name).mp hvalue
    have hpos := List.count_pos_iff.mpr hname
    rw [mem_collect_failed_iff, if_pos hfound, or_iff_right List.not_mem_nil] at hfailed
    omega
  · obtain ⟨-, hfound⟩ := (mem_collect_values_iff found names name).mp hvalue
    rw [mem_collect_failed_iff, if_pos hfound, or_iff_right List.not_mem_nil, honce name hvalue]
    exact Nat.lt_irrefl 1

end ParameterStore

/-! ### Look-ups one by one -/

namespace Source

variable {σ : Type} (source : String) (fetchOne : String → BackendOptions → Fetch σ RawValue)
  (options : BackendOptions)

/-- What the look-ups of names bring, one after another. -/
def lookUps : List String → World σ → List (String × Except Error RawValue)
  | [], _ => []
  | name :: rest, world =>
    match fetchOne name options world with
    | (.ok value, world) => (name, .ok value) :: lookUps rest world
    | (.error e, world) =>
      (name, .error e) ::
        lookUps rest { world with notes := world.notes ++ [.memberFailed source name e] }

/-- Every name is looked up as often as it is listed. -/
theorem map_lookUps (names : List String) (world : World σ) :
    (lookUps source fetchOne options names world).map (·.1) = names := by
  induction names generalizing world with
  | nil => rfl
  | cons name rest ih =>
      rw [lookUps]
      split <;> rw [List.map_cons, ih]

/-- A name has a value if one of its look-ups succeeds. -/
theorem mem_fetchEach_values_iff (bulk : BulkFetch) (names : List String) (world : World σ)
    (name : String) :
    name ∈ (fetchEach source fetchOne options bulk names world).1.values.names ↔
      name ∈ bulk.values.names ∨
        ∃ value, (name, .ok value) ∈ lookUps source fetchOne options names world := by
  induction names generalizing bulk world with
  | nil => simp [fetchEach, lookUps]
  | cons first rest ih =>
      rw [fetchEach, lookUps]
      rcases fetchOne first options world with ⟨outcome, after⟩
      cases outcome with
      | ok value =>
          dsimp only
          rw [ih, Dict.mem_names_iff, Dict.mem_names_iff]
          by_cases hname : first = name
          · subst hname
            simp [Dict.get?_insert]
          · simp [Dict.get?_insert, hname, Ne.symm hname]
      | error e =>
          dsimp only
          rw [ih]
          simp

/-- A name is listed as failed if one of its look-ups fails. -/
theorem mem_fetchEach_failed_iff (bulk : BulkFetch) (names : List String) (world : World σ)
    (name : String) :
    name ∈ (fetchEach source fetchOne options bulk names world).1.failed ↔
      name ∈ bulk.failed ∨
        ∃ e, (name, .error e) ∈ lookUps source fetchOne options names world := by
  induction names generalizing bulk world with
  | nil => simp [fetchEach, lookUps]
  | cons first rest ih =>
      rw [fetchEach, lookUps]
      rcases fetchOne first options world with ⟨outcome, after⟩
      cases outcome with
      | ok value =>
          dsimp only
          rw [ih]
          simp
      | error e =>
          dsimp only
          rw [ih, List.mem_append, List.mem_singleton]
          by_cases hname : first = name
          · subst hname
            simp
          · simp [Ne.symm hname]

/-- **Look-ups one by one cover their names**, and they account for them exactly if no name is found
by one look-up and not by another. -/
theorem fetchEach_accounts_iff (names : List String) (world : World σ) :
    (fetchEach source fetchOne options {} names world).1.Covers names ∧
      ((fetchEach source fetchOne options {} names world).1.Accounts names ↔
        ∀ name value e, (name, .ok value) ∈ lookUps source fetchOne options names world →
          (name, .error e) ∉ lookUps source fetchOne options names world) := by
  have hvalue : ∀ name, name ∈ (fetchEach source fetchOne options {} names world).1.values.names ↔
      ∃ value, (name, .ok value) ∈ lookUps source fetchOne options names world := fun name =>
    (mem_fetchEach_values_iff ..).trans (or_iff_right List.not_mem_nil)
  have hfailed : ∀ name, name ∈ (fetchEach source fetchOne options {} names world).1.failed ↔
      ∃ e, (name, .error e) ∈ lookUps source fetchOne options names world := fun name =>
    (mem_fetchEach_failed_iff ..).trans (or_iff_right List.not_mem_nil)
  have hcovers : (fetchEach source fetchOne options {} names world).1.Covers names := by
    intro name
    have hlooked := map_lookUps source fetchOne options names world
    rw [hvalue, hfailed]
    constructor
    · rintro (⟨value, hmem⟩ | ⟨e, hmem⟩) <;> exact hlooked ▸ List.mem_map_of_mem hmem
    · intro hname
      rw [← hlooked] at hname
      obtain ⟨⟨_, outcome⟩, hmem, rfl⟩ := List.mem_map.mp hname
      cases outcome with
      | ok value => exact .inl ⟨value, hmem⟩
      | error e => exact .inr ⟨e, hmem⟩
  refine ⟨hcovers, fun haccounts name value e hok herror => ?_, fun hagree => ⟨hcovers, ?_⟩⟩
  · exact haccounts.2 name ((hvalue name).mpr ⟨value, hok⟩) ((hfailed name).mpr ⟨e, herror⟩)
  · intro name hfound hlost
    obtain ⟨value, hok⟩ := (hvalue name).mp hfound
    obtain ⟨e, herror⟩ := (hfailed name).mp hlost
    exact hagree name value e hok herror

/-- Where no name is listed twice, no two look-ups of a name disagree. -/
theorem lookUps_agree {names : List String} (hnames : names.Nodup) (world : World σ) (name : String)
    (value : RawValue) (e : Error)
    (hok : (name, .ok value) ∈ lookUps source fetchOne options names world) :
    (name, .error e) ∉ lookUps source fetchOne options names world := by
  intro herror
  rw [← map_lookUps source fetchOne options names world] at hnames
  have hsame := List.inj_on_of_nodup_map hnames hok herror rfl
  cases hsame

end Source

/-! ### Both kinds of bulk look-ups -/

namespace BulkFetch

/-- **A bulk look-up covers its names** whatever the answers are, and if they are different it has
each of them on one side. In general a name is on both sides if the parameter store has found it and
it is listed again, or if it is looked up by itself more than once, found by one look-up and not
found by another. -/
theorem accounts_iff (names : List String) (options : BackendOptions) :
    (∀ (κ : Type) (store : ParameterStore κ) (world : World κ) (bulk : BulkFetch),
      (store.source.fetchBulk names options world).1 = .ok bulk →
        bulk.Covers names ∧ (names.Nodup → bulk.Accounts names) ∧
        (bulk.Accounts names ↔ ∀ name ∈ bulk.values.names, names.count name = 1)) ∧
    ∀ (σ : Type) (source : String) (fetchOne : String → BackendOptions → Fetch σ RawValue)
      (fetchMany : String → BackendOptions → Fetch σ Listing) (world : World σ) (bulk : BulkFetch),
      ((Source.ofSingles source fetchOne fetchMany).fetchBulk names options world).1 = .ok bulk →
        bulk.Covers names ∧ (names.Nodup → bulk.Accounts names) ∧
        (bulk.Accounts names ↔ ∀ name value e,
          (name, .ok value) ∈ Source.lookUps source fetchOne options names world →
            (name, .error e) ∉ Source.lookUps source fetchOne options names world) := by
  constructor
  · intro κ store world bulk hok
    obtain ⟨found, rfl⟩ := ParameterStore.eq_collect_of_ok hok
    obtain ⟨hcovers, haccounts⟩ := ParameterStore.collect_accounts_iff found names
    refine ⟨hcovers, fun hnames => haccounts.mpr fun name hvalue => ?_, haccounts⟩
    exact List.count_eq_one_of_mem hnames ((hcovers name).mp (.inl hvalue))
  · intro σ source fetchOne fetchMany world bulk hok
    obtain rfl : (Source.fetchEach source fetchOne options {} names world).1 = bulk :=
      Except.ok.inj hok
    obtain ⟨hcovers, haccounts⟩ :=
      Source.fetchEach_accounts_iff source fetchOne options names world
    exact ⟨hcovers, fun hnames => haccounts.mpr
      (Source.lookUps_agree source fetchOne options hnames world), haccounts⟩

/-- Of two different names one is found and the other one is not. -/
theorem accounts_iff_found_and_missing :
    let store : ParameterStore Memory.Parameters := ⟨Memory.Parameters.client, false⟩
    let world : World Memory.Parameters := ⟨Memory.Parameters.put {} "/a" "1" false, .zero, []⟩
    ["/a", "/b"].Nodup ∧ ∃ bulk, (store.source.fetchBulk ["/a", "/b"] .empty world).1 = .ok bulk ∧
      bulk.values.names = ["/a"] ∧ bulk.failed = ["/b"] ∧ bulk.Accounts ["/a", "/b"] := by
  intro store world
  have hnames : ["/a", "/b"].Nodup := by decide
  obtain ⟨hstores, -⟩ := accounts_iff ["/a", "/b"] .empty
  obtain ⟨-, haccounts, -⟩ := hstores _ store world _ rfl
  exact ⟨hnames, _, rfl, by decide, by decide, haccounts hnames⟩

/-- Names that are listed twice and end up on both sides: one that the parameter store has, and one
whose first look-up in the configuration store fails. -/
theorem repeated_on_both_sides :
    (∃ bulk, ((ParameterStore.source ⟨Memory.Parameters.client, false⟩).fetchBulk ["/a", "/a"]
          .empty ⟨Memory.Parameters.put {} "/a" "1" false, .zero, []⟩).1 = .ok bulk ∧
        "/a" ∈ bulk.values.names ∧ "/a" ∈ bulk.failed) ∧
      ∃ bulk, ((ConfigurationStore.source
          ⟨Memory.Configurations.client, "app", "prod", by decide⟩).fetchBulk ["p", "p"] .empty
            ⟨⟨{ Memory.Configurations.setProfile {} "p" "v" with failNextPoll := true }, .empty⟩,
              .zero, []⟩).1 = .ok bulk ∧
        "p" ∈ bulk.values.names ∧ "p" ∈ bulk.failed :=
  ⟨⟨_, rfl, by decide, by decide⟩, ⟨_, rfl, by decide, by decide⟩⟩

end BulkFetch

end CachedParameters
