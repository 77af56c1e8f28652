import CachedParameters.Memory.Parameters
import CachedParameters.Proofs.Batch.Modes
import CachedParameters.Store.Parameters
import Mathlib.Algebra.BigOperators.Group.Finset.Basic

/-!
# The calls that a batch makes

A batch (`get_parameters_by_name`) asks its source only for names that the cache does not serve, and
for none of them twice. The calls of `fetch_bulk` keep to the `bulk_limit` of the source and carry
the options of their names, and there are as many of them as it takes to look up the names of each
set of options separately. In which order the parameters are given makes no difference.

What is counted are the bulk calls as the source sees them. A strict batch may end before all its
calls are made, so what is said about all of them holds for a batch that does not.

## Main results

- `Batch.length_plan`: how many calls a plan has.
- `Provider.callsByPlan`: the calls of a batch.
-/

namespace CachedParameters

open Batch

/-- Options for a backend are compared by their fingerprints. -/
instance : DecidableEq BackendOptions := fun a b =>
  decidable_of_iff (a.fingerprint = b.fingerprint) BackendOptions.fingerprint_injective.eq_iff

/-! ### The length of a plan -/

namespace Batch

/-- How many bulk calls it takes to look up so many names: as many as cover them. Without a limit
one call does for any names, and a limit of zero counts as one. -/
def callsNeeded (limit : Option ℕ) (count : ℕ) : ℕ :=
  match limit with
  | some n => (count + max 1 n - 1) / max 1 n
  | none => min 1 count

/-- There are as many pieces as it takes to cover a list. -/
theorem length_pieces {α : Type} {size : ℕ} (hsize : 0 < size) (xs : List α) :
    (pieces size xs).length = (xs.length + size - 1) / size := by
  induction xs using pieces.induct size with
  | case1 xs h ih =>
      have hround : (xs.length + size - 1) / size = (xs.length - 1) / size + 1 := by
        rw [← Nat.add_div_right _ hsize]
        congr 1
        omega
      rw [pieces, dif_pos h, List.length_cons, ih, List.length_drop, hround]
      by_cases hlast : xs.length < size
      · rw [Nat.div_eq_of_lt (by omega), Nat.div_eq_of_lt (by omega)]
      · congr 2
        omega
  | case2 xs h =>
      have hempty : xs.length = 0 := by omega
      rw [pieces, dif_neg h, List.length_nil, hempty, Nat.div_eq_of_lt (by omega)]

/-- Names are cut into as many calls as needed. -/
theorem length_bulks {α : Type} (limit : Option ℕ) (xs : List α) :
    (bulks limit xs).length = callsNeeded limit xs.length := by
  rw [bulks, length_pieces (by omega)]
  cases limit with
  | some n => rfl
  | none =>
      rw [callsNeeded, Option.getD_none]
      rcases Nat.eq_zero_or_pos xs.length with hzero | hpos
      · rw [hzero]
        rfl
      · rw [Nat.max_eq_right hpos, Nat.min_eq_left hpos]
        exact Nat.div_eq_of_lt_le (by omega) (by omega)

variable {deferred : List Deferred} {groups : Dict PendingGroup}

/-- There is a group for every set of options that a deferred name has. -/
theorem Grouped.toFinset_names (h : Grouped deferred groups) :
    groups.names.toFinset =
      (deferred.map (·.options)).toFinset.image BackendOptions.fingerprint := by
  ext fingerprint
  simp only [List.mem_toFinset, Finset.mem_image, List.mem_map, exists_exists_and_eq_and]
  constructor
  · intro hname
    obtain ⟨group, hget⟩ := Dict.mem_names_iff.mp hname
    obtain ⟨first, rest, hfilter, -⟩ := h.group_eq (Dict.mem_entries_iff.mpr hget)
    have hfirst : first ∈ withFingerprint fingerprint deferred := hfilter ▸ List.mem_cons_self
    exact ⟨first, mem_withFingerprint.mp hfirst⟩
  · rintro ⟨x, hx, rfl⟩
    exact h.mem_names hx

/-- **A plan has as many calls as it takes** to look up the names of each set of options
separately. -/
theorem length_plan (h : Grouped deferred groups) (limit : Option ℕ) :
    (plan limit groups).length =
      ∑ backend ∈ (deferred.map (·.options)).toFinset,
        callsNeeded limit (deferred.countP fun x => x.options = backend) := by
  have hgroups : (plan limit groups).length =
      (groups.names.map fun fingerprint =>
        callsNeeded limit (withFingerprint fingerprint deferred).length).sum := by
    rw [plan, List.length_flatMap, Dict.names, List.map_map]
    refine congrArg List.sum (List.map_congr_left fun entry hentry => ?_)
    rw [List.length_map, length_bulks, h.lookups_eq hentry, List.length_map]
    rfl
  rw [hgroups, ← List.sum_toFinset _ groups.names_nodup, h.toFinset_names,
    Finset.sum_image fun _ _ _ _ hsame => BackendOptions.fingerprint_injective hsame]
  refine Finset.sum_congr rfl fun backend _ => congrArg _ ?_
  rw [withFingerprint, ← List.countP_eq_length_filter]
  refine List.countP_congr fun x _ => ?_
  simp only [decide_eq_true_eq, BackendOptions.fingerprint_injective.eq_iff]

end Batch

/-! ### Bulk calls as they are seen -/

/-- The names and the options of a bulk call, if the exchange is one. -/
def Exchange.bulk? (exchange : Exchange) : Option (List String × BackendOptions) :=
  match exchange.answer with
  | .bulk names options _ => some (names, options)
  | .one .. | .many .. => none

/-- The options that hold for a name of a batch: its own overrides on top of those of the batch. -/
def effective (parameters : List (String × Overrides)) (options : BatchOptions) (name : String) :
    GetOptions :=
  options.forName (overridesOf parameters name)

namespace Provider

variable {σ : Type} (p : Provider σ) (parameters : List (String × Overrides))
  (options : BatchOptions) (s : State σ)

/-- The bulk calls that a batch makes, with their names and options. -/
def bulkCalls : List (List String × BackendOptions) :=
  (p.exchanges (.getByName parameters options) s).filterMap Exchange.bulk?

/-- The names of a batch that the cache does not serve, each once and in ascending order. -/
def pendingNames : List String :=
  (requested parameters).names.filter fun name =>
    (p.cachedValue? name (effective parameters options name) s).isNone

/-- A strict batch ends early if one of its calls shows a fault: it failed, or brought a value that
cannot be decoded. -/
def EndsEarly : Prop :=
  options.strict = true ∧ ∃ exchange ∈ p.exchanges (.getByName parameters options) s,
    (exchange.fault? parameters options).isSome = true

/-- The calls of a batch **go by plan**. -/
structure CallsByPlan : Prop where
  /-- No other calls are made. -/
  bulk : ∀ exchange ∈ p.exchanges (.getByName parameters options) s, exchange.bulk?.isSome = true
  /-- A call asks for at least one name and keeps to the limit of the source. -/
  sized : ∀ call ∈ p.bulkCalls parameters options s,
    1 ≤ call.1.length ∧ ∀ limit ∈ p.source.bulkLimit, call.1.length ≤ max 1 limit
  /-- The names of a call ascend. -/
  ascending : ∀ call ∈ p.bulkCalls parameters options s, call.1.Pairwise (· < ·)
  /-- A call carries the options of all its names. -/
  carried : ∀ call ∈ p.bulkCalls parameters options s, ∀ name ∈ call.1,
    call.2 = (effective parameters options name).backend
  /-- Pending are the requested names that the cache does not serve, and all of them if it is passed
  over. -/
  missed : ∀ name, name ∈ p.pendingNames parameters options s ↔
    name ∈ parameters.map (·.1) ∧ (options.forceFetch = true ∨
      p.cachedValue? name (effective parameters options name) s = none)
  /-- A call asks for pending names only. -/
  pending : ∀ call ∈ p.bulkCalls parameters options s, ∀ name ∈ call.1,
    name ∈ p.pendingNames parameters options s
  /-- No name is asked for twice. -/
  once : ∀ name, (p.bulkCalls parameters options s).countP (name ∈ ·.1) ≤ 1
  /-- Unless the batch ends early, every pending name is asked for. -/
  complete : ¬ p.EndsEarly parameters options s →
    ∀ name ∈ p.pendingNames parameters options s,
      (p.bulkCalls parameters options s).countP (name ∈ ·.1) = 1
  /-- Unless the batch ends early, it makes as many calls as it takes to look up the names of each
  set of options separately. -/
  counted : ¬ p.EndsEarly parameters options s →
    (p.bulkCalls parameters options s).length =
      ∑ backend ∈ ((p.pendingNames parameters options s).map fun name =>
          (effective parameters options name).backend).toFinset,
        callsNeeded p.source.bulkLimit
          ((p.pendingNames parameters options s).countP fun name =>
            (effective parameters options name).backend = backend)

variable {p parameters options s}

/-- What is put off are the names that the cache does not serve, with their own options. -/
theorem deferred_eq :
    (p.misses options s (requested parameters).entries).map (p.deferredOf options) =
      (p.pendingNames parameters options s).map fun name =>
        p.deferredOf options (name, overridesOf parameters name) := by
  rw [pendingNames, Dict.names, List.filter_map, List.map_map, misses]
  have hsame : (requested parameters).entries.filter
        (fun entry => (p.served? options s entry).isNone) =
      (requested parameters).entries.filter
        ((fun name => (p.cachedValue? name (effective parameters options name) s).isNone) ∘
          Prod.fst) := by
    refine List.filter_congr fun entry hentry => ?_
    rw [Function.comp_apply, served?, effective, overridesOf_of_mem hentry]
  rw [hsame]
  refine List.map_congr_left fun entry hentry => ?_
  rw [Function.comp_apply, overridesOf_of_mem (List.mem_of_mem_filter hentry)]

/-- The calls that are seen are those that were answered. -/
theorem bulkCalls_eq (h : errorsKey ∉ (requested parameters).names) :
    p.bulkCalls parameters options s =
      ((p.answered parameters options s).map (·.call)).map fun call =>
        (call.names, call.options) := by
  rw [bulkCalls, exchanges_getByName h, List.filterMap_map, List.map_map, ← List.filterMap_eq_map]
  rfl

/-- Every call that is seen is one of the plan. -/
theorem exists_planned_of_mem (h : errorsKey ∉ (requested parameters).names)
    {seen : List String × BackendOptions} (hseen : seen ∈ p.bulkCalls parameters options s) :
    ∃ call ∈ p.planned parameters options s, seen = (call.names, call.options) := by
  rw [bulkCalls_eq h, List.mem_map] at hseen
  obtain ⟨call, hcall, rfl⟩ := hseen
  exact ⟨call, (p.answered_prefix parameters options s).subset hcall, rfl⟩

/-- The names of all calls of a plan are those that the cache does not serve. -/
theorem planned_names_perm :
    ((p.planned parameters options s).flatMap (·.names)).Perm
      (p.pendingNames parameters options s) := by
  have hperm := (p.planned_perm parameters options s).map fun x => x.pending.name
  rw [deferred_eq, List.map_map, List.map_flatMap] at hperm
  have hnames : (p.pendingNames parameters options s).map
      ((fun x => x.pending.name) ∘ fun name =>
        p.deferredOf options (name, overridesOf parameters name)) =
      p.pendingNames parameters options s := List.map_id' _
  have hasked : ∀ call : BulkCall, call.asked.map (fun x => x.pending.name) = call.names := by
    intro call
    rw [BulkCall.asked, List.map_map]
    rfl
  rw [hnames] at hperm
  simpa only [hasked] using hperm

/-- Unless the batch ends early, all calls of the plan are made. -/
theorem bulkCalls_of_not_endsEarly (h : errorsKey ∉ (requested parameters).names)
    (hends : ¬ p.EndsEarly parameters options s) :
    p.bulkCalls parameters options s =
      (p.planned parameters options s).map fun call => (call.names, call.options) := by
  rw [bulkCalls_eq h]
  congr 1
  cases hstrict : options.strict with
  | false => rw [answered, hstrict, answers_calls]
  | true =>
      have hfault : (p.answered parameters options s).findSome? (·.fault?) = none := by
        rw [← p.exchanges_fault? parameters options s h, List.findSome?_eq_none_iff]
        intro exchange hexchange
        by_contra hshown
        exact hends ⟨hstrict, exchange, hexchange, Option.isSome_iff_ne_none.mpr hshown⟩
      rw [answered, hstrict] at hfault ⊢
      obtain ⟨hfirst, hsame⟩ := p.answers_strict (p.planned parameters options s) s.world
      rw [hsame (hfirst.symm.trans hfault), answers_calls]

/-- A name is asked for by no more calls than it stands in. -/
theorem countP_mem_le_count (calls : List (List String × BackendOptions)) (name : String) :
    calls.countP (name ∈ ·.1) ≤ (calls.flatMap (·.1)).count name := by
  induction calls with
  | nil => exact Nat.le_refl 0
  | cons call rest ih =>
      rw [List.countP_cons, List.flatMap_cons, List.count_append]
      split
      · rename_i hmem
        have hone : 1 ≤ call.1.count name := List.one_le_count_iff.mpr (of_decide_eq_true hmem)
        omega
      · omega

/-- The names that a batch asks for are the first ones of its plan, so no name is asked for
twice. -/
theorem bulkCalls_names_nodup (h : errorsKey ∉ (requested parameters).names) :
    ((p.bulkCalls parameters options s).flatMap (·.1)).Nodup := by
  have hnodup : ((p.planned parameters options s).flatMap (·.names)).Nodup :=
    planned_names_perm.nodup_iff.mpr ((requested parameters).names_nodup.filter _)
  obtain ⟨more, hmore⟩ := p.answered_prefix parameters options s
  rw [← hmore, List.flatMap_append] at hnodup
  rw [bulkCalls_eq h, List.flatMap_map]
  exact hnodup.of_append_left

/-- The names that a batch does not get from the cache. -/
theorem mem_pendingNames {name : String} : name ∈ p.pendingNames parameters options s ↔
    name ∈ parameters.map (·.1) ∧ (options.forceFetch = true ∨
      p.cachedValue? name (effective parameters options name) s = none) := by
  have hforced : options.forceFetch = true →
      p.cachedValue? name (effective parameters options name) s = none := fun hforce =>
    if_pos hforce
  rw [pendingNames, List.mem_filter, mem_requested, Option.isNone_iff_eq_none,
    or_iff_right_of_imp hforced]

/-- The calls of a batch go by plan. -/
theorem callsByPlan_of_allowed (h : errorsKey ∉ (requested parameters).names) :
    p.CallsByPlan parameters options s where
  bulk := by
    rw [exchanges_getByName h, List.forall_mem_map]
    exact fun _ _ => rfl
  sized := by
    intro seen hseen
    obtain ⟨call, hcall, rfl⟩ := exists_planned_of_mem h hseen
    obtain ⟨hsome, hlimit⟩ := mem_plan hcall
    rw [BulkCall.names, List.length_map]
    exact ⟨List.length_pos_iff.mpr hsome, hlimit⟩
  ascending := by
    intro seen hseen
    obtain ⟨call, hcall, rfl⟩ := exists_planned_of_mem h hseen
    have hasked := (List.pairwise_flatMap.mp (p.planned_ascending parameters options s)).1 call
      hcall
    rw [BulkCall.asked, List.pairwise_map] at hasked
    rw [BulkCall.names, List.pairwise_map]
    exact hasked.imp fun hbefore =>
      (hbefore.resolve_left (String.lt_irrefl call.options.fingerprint)).2
  carried := by
    intro seen hseen name hname
    obtain ⟨call, hcall, rfl⟩ := exists_planned_of_mem h hseen
    obtain ⟨pending, hpending, rfl⟩ := List.mem_map.mp hname
    obtain ⟨entry, hentry, hdeferred⟩ :=
      p.exists_of_mem_planned parameters options s hcall hpending
    obtain ⟨hoptions, hpending⟩ := Deferred.mk.inj hdeferred
    rw [← hpending, ← hoptions, effective, overridesOf_of_mem (List.mem_of_mem_filter hentry)]
  missed := fun name => mem_pendingNames
  pending := by
    intro seen hseen name hname
    obtain ⟨call, hcall, rfl⟩ := exists_planned_of_mem h hseen
    exact planned_names_perm.mem_iff.mp (List.mem_flatMap.mpr ⟨call, hcall, hname⟩)
  once := fun name => (countP_mem_le_count _ name).trans
    (List.nodup_iff_count_le_one.mp (bulkCalls_names_nodup h) name)
  complete := by
    intro hends name hname
    have hmem := planned_names_perm.mem_iff.mpr hname
    obtain ⟨call, hcall, hname⟩ := List.mem_flatMap.mp hmem
    have hseen : (call.names, call.options) ∈ p.bulkCalls parameters options s := by
      rw [bulkCalls_of_not_endsEarly h hends]
      exact List.mem_map_of_mem hcall
    have hpos : 0 < (p.bulkCalls parameters options s).countP (name ∈ ·.1) :=
      List.countP_pos_iff.mpr ⟨_, hseen, decide_eq_true hname⟩
    exact Nat.le_antisymm ((countP_mem_le_count _ name).trans
      (List.nodup_iff_count_le_one.mp (bulkCalls_names_nodup h) name)) hpos
  counted := by
    intro hends
    rw [bulkCalls_of_not_endsEarly h hends, List.length_map, planned,
      length_plan (p.planned_grouped parameters options s), deferred_eq, List.map_map]
    refine Finset.sum_congr rfl fun backend _ => congrArg _ ?_
    rw [List.countP_map]
    rfl

/-- In which order different names are given makes no difference to a batch. -/
theorem exchanges_getByName_of_perm {others : List (String × Overrides)}
    (hnames : (parameters.map (·.1)).Nodup) (hperm : others.Perm parameters) :
    p.exchanges (.getByName others options) s = p.exchanges (.getByName parameters options) s := by
  have hsame : Dict.ofList others = Dict.ofList parameters :=
    (Dict.insertAll_eq_of_perm hperm.symm hnames .empty).symm
  rw [exchanges, exchanges, serve, serve, getByName, getByName, hsame]

/-- **The calls of a batch go by plan**, unless one of the names is the reserved one. Names that are
given once each may be given in any order, and a parameter store is never asked for more names at
once than it allows. -/
theorem callsByPlan (p : Provider σ) (parameters : List (String × Overrides))
    (options : BatchOptions) (s : State σ) (hreserved : errorsKey ∉ parameters.map (·.1)) :
    p.CallsByPlan parameters options s ∧
    ((parameters.map (·.1)).Nodup → ∀ others : List (String × Overrides),
      others.Perm parameters →
        p.bulkCalls others options s = p.bulkCalls parameters options s) ∧
    ∀ store : ParameterStore σ, p.source = store.source →
      ∀ call ∈ p.bulkCalls parameters options s, call.1.length ≤ maxBulkNames := by
  have hplan : p.CallsByPlan parameters options s :=
    callsByPlan_of_allowed fun h => hreserved (mem_requested.mp h)
  refine ⟨hplan, fun hnames others hperm => ?_, fun store hstore call hcall => ?_⟩
  · rw [bulkCalls, bulkCalls, exchanges_getByName_of_perm hnames hperm]
  · exact (hplan.sized call hcall).2 maxBulkNames (by rw [hstore]; rfl)

/-- A batch of three names over a store in memory, one of them with options of its own, makes two
calls. -/
theorem callsByPlan_two_groups :
    let p : Provider Memory.Parameters :=
      ⟨ParameterStore.source ⟨Memory.Parameters.client, false⟩, defaultMaxAge⟩
    let parameters : List (String × Overrides) :=
      [("/b", {}), ("/a", { decrypt := some true }), ("/c", {})]
    let s : State Memory.Parameters := { world := { backend := {}, now := .zero } }
    errorsKey ∉ parameters.map (·.1) ∧ p.CallsByPlan parameters { strict := false } s ∧
      (p.bulkCalls parameters { strict := false } s).length = 2 := by
  intro p parameters s
  have hreserved : errorsKey ∉ parameters.map (·.1) := by decide
  obtain ⟨hplan, -⟩ := callsByPlan p parameters { strict := false } s hreserved
  have hends : ¬ p.EndsEarly parameters { strict := false } s := fun h => Bool.noConfusion h.1
  exact ⟨hreserved, hplan, (hplan.counted hends).trans (by decide)⟩

end Provider

end CachedParameters
