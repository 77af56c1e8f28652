import CachedParameters.Batch
import CachedParameters.Proofs.Cache.Key
import CachedParameters.Proofs.Provider.Lookup
import Mathlib.Data.List.Basic
import Mathlib.Data.List.Perm.Basic

/-!
# The intake and the plan of a batch

A batch first asks the cache for every name. The names that it does not serve are grouped by the
fingerprint of their options and cut into bulk calls. Whatever the cache serves and whatever the
limit of a call is, the plan looks up every other name once, in a call that carries the options of
that name, in the order of the fingerprints and the names.

## Main results

- `Provider.takeIn_served`, `Provider.takeIn_grouped`: the intake sorts the names.
- `Provider.takeIn_state`: it changes nothing but the log.
- `Batch.plan_perm`: a plan looks up the deferred names, each once.
- `Batch.mem_plan`: a call asks for at least one name, keeps to the limit and carries the options of
  its names.
- `Batch.plan_ascending`: a plan goes by fingerprint, then by name.
-/

namespace CachedParameters

namespace Batch

/-! ### Bulk calls -/

theorem flatten_pieces {α : Type} {size : ℕ} (hsize : 0 < size) (xs : List α) :
    (pieces size xs).flatten = xs := by
  induction xs using pieces.induct size with
  | case1 xs h ih =>
      rw [pieces, dif_pos h, List.flatten_cons, ih, List.take_append_drop]
  | case2 xs h =>
      have hempty : xs = [] := List.length_eq_zero_iff.mp (by omega)
      rw [pieces, dif_neg h, hempty, List.flatten_nil]

/-- A piece is not empty and not longer than allowed. -/
theorem length_of_mem_pieces {α : Type} {size : ℕ} {xs piece : List α}
    (h : piece ∈ pieces size xs) : 0 < piece.length ∧ piece.length ≤ size := by
  induction xs using pieces.induct size with
  | case1 xs hsize ih =>
      rw [pieces, dif_pos hsize] at h
      rcases List.mem_cons.mp h with rfl | h
      · rw [List.length_take]
        omega
      · exact ih h
  | case2 xs hsize =>
      rw [pieces, dif_neg hsize] at h
      exact absurd h List.not_mem_nil

/-! ### Groups -/

/-- A name that was put off, with the options it is to be looked up with. Names with the same
options share calls, so the options decide into which group it goes. -/
structure Deferred where
  options : BackendOptions
  pending : Pending

/-- The group of names with one fingerprint, which has the options of the first one. -/
def groupOf : List Deferred → Option PendingGroup
  | [] => none
  | x :: rest => some ⟨x.options, x.pending :: rest.map (·.pending)⟩

/-- The deferred names whose options have this fingerprint. They are asked for in the same calls. -/
def withFingerprint (fingerprint : String) (deferred : List Deferred) : List Deferred :=
  deferred.filter fun x => x.options.fingerprint = fingerprint

/-- The deferred names with a fingerprint are those that have it. -/
theorem mem_withFingerprint {fingerprint : String} {deferred : List Deferred} {x : Deferred} :
    x ∈ withFingerprint fingerprint deferred ↔
      x ∈ deferred ∧ x.options.fingerprint = fingerprint := by
  rw [withFingerprint, List.mem_filter, decide_eq_true_iff]

/-- Groups hold the names that were put off, by their fingerprints and in their order. -/
def Grouped (deferred : List Deferred) (groups : Dict PendingGroup) : Prop :=
  ∀ fingerprint, groups.get? fingerprint = groupOf (withFingerprint fingerprint deferred)

/-- A group grows at its end. -/
theorem groupOf_append (deferred : List Deferred) (x : Deferred) :
    groupOf (deferred ++ [x]) =
      some ⟨((groupOf deferred).getD ⟨x.options, []⟩).options,
        ((groupOf deferred).getD ⟨x.options, []⟩).lookups ++ [x.pending]⟩ := by
  cases deferred with
  | nil => rfl
  | cons first rest => simp [groupOf]

/-- Putting off one more name keeps the groups in order. -/
theorem Grouped.defer {deferred : List Deferred} {intake : Intake}
    (h : Grouped deferred intake.groups) (x : Deferred) :
    Grouped (deferred ++ [x]) (intake.defer x.options x.pending).groups := by
  intro fingerprint
  simp only [Intake.defer, Dict.get?_insert]
  by_cases hsame : x.options.fingerprint = fingerprint
  · have hfilter : withFingerprint fingerprint (deferred ++ [x]) =
        withFingerprint fingerprint deferred ++ [x] := by simp [withFingerprint, hsame]
    rw [if_pos hsame, hfilter, groupOf_append, hsame, h fingerprint]
  · have hfilter : withFingerprint fingerprint (deferred ++ [x]) =
        withFingerprint fingerprint deferred := by simp [withFingerprint, hsame]
    rw [if_neg hsame, hfilter, h fingerprint]

variable {deferred : List Deferred} {groups : Dict PendingGroup}

/-- A group consists of the deferred names with its fingerprint, of which there is one at least. -/
theorem Grouped.group_eq (h : Grouped deferred groups) {fingerprint : String}
    {group : PendingGroup} (hmem : (fingerprint, group) ∈ groups.entries) :
    ∃ first rest, withFingerprint fingerprint deferred = first :: rest ∧
      group = ⟨first.options, first.pending :: rest.map (·.pending)⟩ := by
  have hgroup := h fingerprint
  rw [Dict.mem_entries_iff.mp hmem] at hgroup
  cases hfilter : withFingerprint fingerprint deferred with
  | nil =>
      rw [hfilter] at hgroup
      exact absurd hgroup (Option.some_ne_none group)
  | cons first rest =>
      rw [hfilter] at hgroup
      exact ⟨first, rest, rfl, Option.some.inj hgroup⟩

/-- A group holds the deferred names with its fingerprint. -/
theorem Grouped.lookups_eq (h : Grouped deferred groups) {fingerprint : String}
    {group : PendingGroup} (hmem : (fingerprint, group) ∈ groups.entries) :
    group.lookups = (withFingerprint fingerprint deferred).map (·.pending) := by
  obtain ⟨first, rest, hfilter, rfl⟩ := h.group_eq hmem
  rw [hfilter, List.map_cons]

/-- A group stands under the fingerprint of its options. -/
theorem Grouped.fingerprint_eq (h : Grouped deferred groups) {fingerprint : String}
    {group : PendingGroup} (hmem : (fingerprint, group) ∈ groups.entries) :
    group.options.fingerprint = fingerprint := by
  obtain ⟨first, rest, hfilter, rfl⟩ := h.group_eq hmem
  have hfirst : first ∈ withFingerprint fingerprint deferred := hfilter ▸ List.mem_cons_self
  exact (mem_withFingerprint.mp hfirst).2

/-- The names of a group have its options. -/
theorem Grouped.options_eq (h : Grouped deferred groups) {fingerprint : String}
    {group : PendingGroup} (hmem : (fingerprint, group) ∈ groups.entries) {x : Deferred}
    (hx : x ∈ withFingerprint fingerprint deferred) : x.options = group.options :=
  BackendOptions.fingerprint_injective
    ((mem_withFingerprint.mp hx).2.trans (h.fingerprint_eq hmem).symm)

/-- There is a group for every deferred name. -/
theorem Grouped.mem_names (h : Grouped deferred groups) {x : Deferred} (hx : x ∈ deferred) :
    x.options.fingerprint ∈ groups.names := by
  have hmem : x ∈ withFingerprint x.options.fingerprint deferred :=
    mem_withFingerprint.mpr ⟨hx, rfl⟩
  rw [Dict.mem_names_iff, h]
  cases hfilter : withFingerprint x.options.fingerprint deferred with
  | nil =>
      rw [hfilter] at hmem
      exact absurd hmem List.not_mem_nil
  | cons first rest => exact ⟨_, rfl⟩

/-! ### The plan -/

/-- Going through the keys of a list one after another finds every element once. -/
theorem flatMap_filter_perm {α κ : Type} [DecidableEq κ] (key : α → κ) (keys : List κ)
    (xs : List α) (hkeys : keys.Nodup) (hall : ∀ x ∈ xs, key x ∈ keys) :
    (keys.flatMap fun k => xs.filter fun x => key x = k).Perm xs := by
  induction keys generalizing xs with
  | nil =>
      have hempty : xs = [] :=
        List.eq_nil_iff_forall_not_mem.mpr fun x hx => List.not_mem_nil (hall x hx)
      rw [hempty, List.flatMap_nil]
  | cons k keys ih =>
      obtain ⟨hk, hkeys⟩ := List.nodup_cons.mp hkeys
      have hothers : (keys.flatMap fun other => xs.filter fun x => key x = other) =
          keys.flatMap fun other =>
            (xs.filter fun x => !decide (key x = k)).filter fun x => key x = other := by
        refine List.flatMap_congr fun other hother => ?_
        rw [List.filter_filter]
        refine List.filter_congr fun x _ => ?_
        by_cases hx : key x = other
        · have hne : key x ≠ k := fun hk' => hk (hk' ▸ hx ▸ hother)
          simp [hx, hx ▸ hne]
        · simp [hx]
      have hrest := ih (xs.filter fun x => !decide (key x = k)) hkeys fun x hx => by
        obtain ⟨hmem, hne⟩ := List.mem_filter.mp hx
        have hne' : key x ≠ k := by simpa using hne
        exact List.mem_of_ne_of_mem hne' (hall x hmem)
      rw [List.flatMap_cons, hothers]
      exact (hrest.append_left _).trans (List.filter_append_perm (fun x => key x = k) xs)

/-- A look-up of a plan, with the options of its call. -/
def BulkCall.asked (call : BulkCall) : List Deferred :=
  call.lookups.map fun pending => ⟨call.options, pending⟩

/-- The calls of a group look up its names in their order. -/
theorem flatMap_bulks (limit : Option ℕ) (options : BackendOptions) (lookups : List Pending) :
    (((bulks limit lookups).map fun piece => (⟨options, piece⟩ : BulkCall)).flatMap
      (·.asked)) = lookups.map fun pending => ⟨options, pending⟩ := by
  rw [List.flatMap_map]
  have hflatten : (bulks limit lookups).flatten = lookups :=
    flatten_pieces (Nat.lt_of_lt_of_le Nat.zero_lt_one (Nat.le_max_left ..)) lookups
  conv_rhs => rw [← hflatten, List.map_flatten]
  rw [List.flatMap]
  rfl

/-- A plan goes through the groups, and through the names of each group. -/
theorem plan_flatMap (h : Grouped deferred groups) (limit : Option ℕ) :
    (plan limit groups).flatMap (·.asked) =
      groups.names.flatMap fun fingerprint => withFingerprint fingerprint deferred := by
  rw [plan, List.flatMap_assoc, Dict.names, List.flatMap_map]
  refine List.flatMap_congr fun entry hentry => ?_
  rw [flatMap_bulks, h.lookups_eq hentry, List.map_map]
  refine List.map_congr_left (fun x hx => ?_) |>.trans (List.map_id _)
  rw [Function.comp_apply, ← h.options_eq hentry hx]
  rfl

/-- **A plan looks up the deferred names**, each once and with its own options. Grouping and cutting
into calls only rearrange them. -/
theorem plan_perm (h : Grouped deferred groups) (limit : Option ℕ) :
    ((plan limit groups).flatMap (·.asked)).Perm deferred := by
  rw [plan_flatMap h]
  exact flatMap_filter_perm (·.options.fingerprint) groups.names deferred groups.names_nodup
    fun x hx => h.mem_names hx

/-- A call asks for at least one name and keeps to the limit; a limit of zero counts as one, or no
call could be made. -/
theorem mem_plan {limit : Option ℕ} {call : BulkCall}
    (hmem : call ∈ plan limit groups) :
    call.lookups ≠ [] ∧ ∀ n ∈ limit, call.lookups.length ≤ max 1 n := by
  obtain ⟨⟨fingerprint, group⟩, hentry, hcall⟩ := List.mem_flatMap.mp hmem
  obtain ⟨lookups, hpiece, rfl⟩ := List.mem_map.mp hcall
  obtain ⟨hpos, hle⟩ := length_of_mem_pieces hpiece
  refine ⟨List.ne_nil_of_length_pos hpos, ?_⟩
  rintro n hn
  rw [Option.mem_def] at hn
  rwa [hn] at hle

/-- What a plan goes by: the fingerprint of the options first, then the name. -/
def Deferred.Before (x y : Deferred) : Prop :=
  x.options.fingerprint < y.options.fingerprint ∨
    x.options.fingerprint = y.options.fingerprint ∧ x.pending.name < y.pending.name

/-- **A plan goes by fingerprint, then by name**, if the names were put off in their order. -/
theorem plan_ascending (h : Grouped deferred groups) (limit : Option ℕ)
    (hnames : deferred.Pairwise fun x y => x.pending.name < y.pending.name) :
    ((plan limit groups).flatMap (·.asked)).Pairwise Deferred.Before := by
  rw [plan_flatMap h, List.pairwise_flatMap]
  constructor
  · intro fingerprint _
    refine (hnames.filter _).imp_of_mem fun hx hy hlt => Or.inr ⟨?_, hlt⟩
    exact (mem_withFingerprint.mp hx).2.trans (mem_withFingerprint.mp hy).2.symm
  · refine groups.names_ascending.imp ?_
    intro fingerprint other hlt x hx y hy
    left
    rwa [(mem_withFingerprint.mp hx).2, (mem_withFingerprint.mp hy).2]

end Batch

namespace Provider

open Batch

variable {σ : Type}

/-! ### The intake -/

/-- What the cache serves for a name of a batch. -/
def served? (p : Provider σ) (options : BatchOptions) (s : State σ)
    (entry : String × Overrides) : Option ParameterValue :=
  p.cachedValue? entry.1 (options.forName entry.2) s

/-- A name of a batch with all that is needed to look it up. -/
def deferredOf (p : Provider σ) (options : BatchOptions) (entry : String × Overrides) :
    Deferred where
  options := (options.forName entry.2).backend
  pending :=
    { name := entry.1
      transform := (options.forName entry.2).transform.resolve entry.1
      key := p.singleKey entry.1 (options.forName entry.2) }

/-- The names that the cache serves, with their values. -/
def hits (p : Provider σ) (options : BatchOptions) (s : State σ)
    (entries : List (String × Overrides)) : List (String × ParameterValue) :=
  entries.filterMap fun entry => (p.served? options s entry).map fun value => (entry.1, value)

/-- The names that the cache does not serve. -/
def misses (p : Provider σ) (options : BatchOptions) (s : State σ)
    (entries : List (String × Overrides)) : List (String × Overrides) :=
  entries.filter fun entry => (p.served? options s entry).isNone

variable {p : Provider σ} {options : BatchOptions} {intake : Intake}
  {entries : List (String × Overrides)} {s : State σ}

/-- A name that the cache serves goes into the result. -/
theorem takeIn_of_served {entry : String × Overrides} {value : ParameterValue}
    (h : p.served? options s entry = some value) :
    p.takeIn options intake (entry :: entries) s =
      p.takeIn options { intake with served := intake.served.addValue entry.1 value } entries
        (p.record .getByName (consulted (options.forName entry.2).forceFetch true) entry.1 s) := by
  rw [served?, cachedValue?, singleKey] at h
  simp only [takeIn, consult_eq, h]
  rfl

/-- A name that it does not serve is put off. -/
theorem takeIn_of_missed {entry : String × Overrides} (h : p.served? options s entry = none) :
    p.takeIn options intake (entry :: entries) s =
      p.takeIn options
        (intake.defer (p.deferredOf options entry).options (p.deferredOf options entry).pending)
        entries
        (p.record .getByName (consulted (options.forName entry.2).forceFetch false) entry.1 s) := by
  rw [served?, cachedValue?, singleKey] at h
  simp only [takeIn, consult_eq, h]
  rfl

/-- The intake changes neither the world nor the cache. So all names of a batch are asked for at one
time, before any call is made. -/
theorem takeIn_state (p : Provider σ) (options : BatchOptions) (intake : Intake)
    (entries : List (String × Overrides)) (s : State σ) :
    (p.takeIn options intake entries s).2.world = s.world ∧
      (p.takeIn options intake entries s).2.cache = s.cache := by
  induction entries generalizing intake s with
  | nil => exact ⟨rfl, rfl⟩
  | cons entry rest ih =>
      cases h : p.served? options s entry with
      | some value =>
          rw [takeIn_of_served h]
          exact ih _ _
      | none =>
          rw [takeIn_of_missed h]
          exact ih _ _

/-- The names that the cache serves go into the result at once, in the order of the names. No call
is made for them. -/
theorem takeIn_served (p : Provider σ) (options : BatchOptions) (intake : Intake)
    (entries : List (String × Overrides)) (s : State σ) :
    (p.takeIn options intake entries s).1.served =
      (p.hits options s entries).foldl (fun result hit => result.addValue hit.1 hit.2)
        intake.served := by
  induction entries generalizing intake s with
  | nil => rfl
  | cons entry rest ih =>
      rw [hits, List.filterMap_cons]
      cases h : p.served? options s entry with
      | some value =>
          rw [takeIn_of_served h]
          exact ih _ _
      | none =>
          rw [takeIn_of_missed h]
          exact ih _ _

/-- The names that it does not serve end up in their groups, behind those deferred before. The
induction is on the names, for any groups to begin with. -/
theorem takeIn_grouped (p : Provider σ) (options : BatchOptions) (intake : Intake)
    (entries : List (String × Overrides)) (s : State σ) {done : List Deferred}
    (hdone : Grouped done intake.groups) :
    Grouped (done ++ (p.misses options s entries).map (p.deferredOf options))
      (p.takeIn options intake entries s).1.groups := by
  induction entries generalizing intake s done with
  | nil =>
      rw [misses, List.filter_nil, List.map_nil, List.append_nil]
      exact hdone
  | cons entry rest ih =>
      rw [misses, List.filter_cons]
      cases h : p.served? options s entry with
      | some value =>
          rw [takeIn_of_served h]
          exact ih _ _ hdone
      | none =>
          rw [takeIn_of_missed h, Option.isNone_none, if_pos rfl, List.map_cons,
            List.append_cons]
          exact ih _ _ (hdone.defer _)

/-- The intake makes no call: it only asks the cache, so being watched changes nothing of it. -/
theorem takeIn_watch (p : Provider σ) (options : BatchOptions) (intake : Intake)
    (entries : List (String × Overrides)) (seen : List Exchange) (s : State σ) :
    p.watched.takeIn options intake entries (s.watch seen) =
      ((p.takeIn options intake entries s).1,
        (p.takeIn options intake entries s).2.watch seen) := by
  induction entries generalizing intake s with
  | nil => rfl
  | cons entry rest ih =>
      cases h : p.served? options s entry with
      | some value =>
          have hwatched : p.watched.served? options (s.watch seen) entry = some value :=
            (p.cached?_watch ..).trans h
          rw [takeIn_of_served h, takeIn_of_served hwatched, record_watch]
          exact ih _ _
      | none =>
          have hwatched : p.watched.served? options (s.watch seen) entry = none :=
            (p.cached?_watch ..).trans h
          rw [takeIn_of_missed h, takeIn_of_missed hwatched, record_watch]
          exact ih _ _

end Provider

end CachedParameters
