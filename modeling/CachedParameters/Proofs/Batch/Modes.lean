import CachedParameters.Proofs.Batch.Tally
import CachedParameters.Proofs.Provider.Requests

/-!
# Graceful and strict batches

A batch is graceful or strict (`raise_on_error`). A graceful one always comes to a result, which
divides the requested names into those with a value and those without. A strict batch started from
the same state comes to the same result if that is complete. Otherwise it fails, with the first
fault that a call shows if there is one, and else with the names that are missing.

The two batches are compared as runs over one plan: they make the same calls up to the first fault.
A fault always leaves a name without a value, since every call asks for at least one name and no
name is asked for twice.

## Main results

- `Provider.getByName_graceful`: a graceful batch comes to a result.
- `Provider.getByName_strict`: the reply of a strict batch, told by what a graceful one does.
- `Provider.errors_ne_nil_of_fault`: a fault makes a graceful result incomplete.
- `Provider.strict_refines_graceful`: how the two kinds of batches are related.
-/

namespace CachedParameters

open Batch

/-- Functions that agree on a list find the same in it. -/
theorem findSome?_congr {α β : Type} {f g : α → Option β} {xs : List α}
    (h : ∀ x ∈ xs, f x = g x) : xs.findSome? f = xs.findSome? g := by
  induction xs with
  | nil => rfl
  | cons x rest ih =>
      rw [List.findSome?_cons, List.findSome?_cons, h x List.mem_cons_self,
        ih fun y hy => h y (List.mem_cons_of_mem x hy)]

/-! ### Calls that were seen -/

/-- What holds for a name of a batch beside the options of the batch. -/
def overridesOf (parameters : List (String × Overrides)) (name : String) : Overrides :=
  ((Provider.requested parameters).get? name).getD {}

/-- The overrides that a requested name comes with are those that hold for it. -/
theorem overridesOf_of_mem {parameters : List (String × Overrides)} {entry : String × Overrides}
    (h : entry ∈ (Provider.requested parameters).entries) :
    overridesOf parameters entry.1 = entry.2 := by
  rw [overridesOf, Dict.mem_entries_iff.mp h, Option.getD_some]

namespace Exchange

/-- The names that a bulk call asks for, with the fingerprint of its options. -/
def asked (exchange : Exchange) : List (String × String) :=
  match exchange.answer with
  | .bulk names options _ => names.map fun name => (options.fingerprint, name)
  | .one .. | .many .. => []

/-- The first fault that a bulk call of a batch shows: its own failure, or that of the first name
whose value cannot be decoded. -/
def fault? (parameters : List (String × Overrides)) (options : BatchOptions)
    (exchange : Exchange) : Option Error :=
  match exchange.answer with
  | .bulk _ _ (.error e) => some e
  | .bulk names _ (.ok bulk) =>
    names.findSome? fun name =>
      (bulk.values.get? name).bind fun raw =>
        Except.failure? ((options.forName (overridesOf parameters name)).transform.apply name raw)
  | .one .. | .many .. => none

end Exchange

namespace Provider

variable {σ : Type} (p : Provider σ) (parameters : List (String × Overrides))
  (options : BatchOptions) (s : State σ)

/-- The calls that were made are the first ones of the plan. -/
theorem answered_prefix :
    (p.answered parameters options s).map (·.call) <+: p.planned parameters options s :=
  p.answers_prefix options.strict (p.planned parameters options s) s.world

/-- What is looked up is a requested name that the cache does not serve. -/
theorem exists_of_mem_planned {call : BulkCall} (hcall : call ∈ p.planned parameters options s)
    {pending : Pending} (hpending : pending ∈ call.lookups) :
    ∃ entry ∈ p.misses options s (requested parameters).entries,
      p.deferredOf options entry = ⟨call.options, pending⟩ := by
  have hasked : (⟨call.options, pending⟩ : Deferred) ∈
      (p.planned parameters options s).flatMap (·.asked) :=
    List.mem_flatMap.mpr ⟨call, hcall, List.mem_map.mpr ⟨pending, hpending, rfl⟩⟩
  exact List.mem_map.mp ((p.planned_perm parameters options s).mem_iff.mp hasked)

/-- A name that was asked for is decoded as its overrides and the batch say. -/
theorem failure?_of_mem_planned {call : BulkCall}
    (hcall : call ∈ p.planned parameters options s) {pending : Pending}
    (hpending : pending ∈ call.lookups) (bulk : BulkFetch) :
    (pending.fate (.ok bulk)).error? =
      (bulk.values.get? pending.name).bind fun raw =>
        Except.failure? ((options.forName (overridesOf parameters pending.name)).transform.apply
          pending.name raw) := by
  obtain ⟨⟨name, overrides⟩, hentry, hdeferred⟩ :=
    p.exists_of_mem_planned parameters options s hcall hpending
  obtain rfl : _ = pending := congrArg Deferred.pending hdeferred
  have hoverrides : overridesOf parameters name = overrides :=
    overridesOf_of_mem (List.mem_of_mem_filter hentry)
  simp only [deferredOf, hoverrides, Pending.fate]
  cases bulk.values.get? name with
  | none => rfl
  | some raw =>
      simp only [Transform.apply_resolve, Option.bind_some]
      cases (options.forName overrides).transform.apply name raw <;> rfl

/-- The faults of the calls are those that can be seen. -/
theorem exchange_fault? {answered : Answered} (hmem : answered ∈ p.answered parameters options s) :
    answered.exchange.fault? parameters options = answered.fault? := by
  have hcall : answered.call ∈ p.planned parameters options s :=
    (p.answered_prefix parameters options s).subset (List.mem_map_of_mem hmem)
  rw [Exchange.fault?, Answered.exchange, Answered.fault?]
  cases houtcome : answered.outcome with
  | error e => rfl
  | ok bulk =>
      simp only [BulkCall.names, Answered.settled, List.findSome?_map, houtcome]
      refine (findSome?_congr fun pending hpending => ?_).symm
      exact p.failure?_of_mem_planned parameters options s hcall hpending bulk

/-- The first fault that can be seen is the first one that a call shows. -/
theorem exchanges_fault? (h : errorsKey ∉ (requested parameters).names) :
    (p.exchanges (.getByName parameters options) s).findSome?
        (Exchange.fault? parameters options) =
      (p.answered parameters options s).findSome? (·.fault?) := by
  rw [exchanges_getByName h, List.findSome?_map]
  exact findSome?_congr fun answered hmem => p.exchange_fault? parameters options s hmem

/-- **Names are asked for in the order of their options, then by name.** -/
theorem exchanges_ascending (h : errorsKey ∉ (requested parameters).names) :
    ((p.exchanges (.getByName parameters options) s).flatMap Exchange.asked).Pairwise
      (Prod.Lex (· < ·) (· < ·)) := by
  have hasked : (p.exchanges (.getByName parameters options) s).flatMap Exchange.asked =
      (((p.answered parameters options s).map (·.call)).flatMap (·.asked)).map
        fun x => (x.options.fingerprint, x.pending.name) := by
    rw [exchanges_getByName h, List.flatMap_map, List.flatMap_map, List.map_flatMap]
    refine List.flatMap_congr fun answered _ => ?_
    simp only [Exchange.asked, Answered.exchange, BulkCall.asked, BulkCall.names, List.map_map]
    rfl
  obtain ⟨more, hmore⟩ := p.answered_prefix parameters options s
  have hplanned := p.planned_ascending parameters options s
  rw [← hmore, List.flatMap_append] at hplanned
  rw [hasked, List.pairwise_map]
  refine (List.pairwise_append.mp hplanned).1.imp fun hbefore => ?_
  rcases hbefore with hoptions | ⟨hsame, hname⟩
  · exact Prod.Lex.left _ _ hoptions
  · rw [hsame]
    exact Prod.Lex.right _ hname

/-! ### Graceful batches -/

variable {p parameters options s}

/-- **A graceful batch comes to a result**, whatever its calls bring. Only the reserved name is
refused, and before any call is made. -/
theorem getByName_graceful (h : errorsKey ∉ (requested parameters).names) :
    (p.getByName parameters { options with strict := false } s).1 =
      .ok (p.collected parameters { options with strict := false } s) := by
  rw [(getByName_eq h).1, conclude_false]
  rfl

/-- The values and the failed names of a graceful batch are the requested names. -/
theorem collected_names (name : String) :
    name ∈ (p.collected parameters { options with strict := false } s).values.names ∨
        name ∈ (p.collected parameters { options with strict := false } s).errors ↔
      name ∈ (requested parameters).names := by
  rw [Dict.mem_names_iff, collected_error_iff, ← (p.outcomes_perm parameters options s).mem_iff,
    List.mem_map]
  constructor
  · rintro (⟨value, hvalue⟩ | hmem)
    · exact ⟨_, (p.collected_value_iff parameters options s).mp hvalue, rfl⟩
    · exact ⟨_, hmem, rfl⟩
  · rintro ⟨⟨name, outcome⟩, hmem, rfl⟩
    cases outcome with
    | some value => exact Or.inl ⟨value, (p.collected_value_iff parameters options s).mpr hmem⟩
    | none => exact Or.inr hmem

/-- No name has both a value and a failure. -/
theorem collected_disjoint {name : String}
    (hvalue : name ∈ (p.collected parameters { options with strict := false } s).values.names) :
    name ∉ (p.collected parameters { options with strict := false } s).errors := by
  obtain ⟨value, hget⟩ := Dict.mem_names_iff.mp hvalue
  have hfound := (p.collected_value_iff parameters options s).mp hget
  rw [collected_error_iff]
  intro hfailed
  have hnodup := p.outcomes_nodup parameters options s
  have hsome := (Entries.get?_eq_some_iff hnodup).mpr hfound
  rw [(Entries.get?_eq_some_iff hnodup).mpr hfailed] at hsome
  exact Option.some_ne_none value (Option.some.inj hsome).symm

/-- A call that shows a fault has a name that failed. -/
theorem exists_failed_of_fault {answered : Answered} (hlookups : answered.call.lookups ≠ [])
    {e : Error} (hfault : answered.fault? = some e) :
    ∃ x ∈ answered.settled, x.fate.value? = none := by
  rw [Answered.fault?] at hfault
  split at hfault
  · rename_i failure houtcome
    obtain ⟨pending, rest, hcons⟩ := List.exists_cons_of_ne_nil hlookups
    refine ⟨_, List.mem_map_of_mem (hcons ▸ List.mem_cons_self), ?_⟩
    rw [houtcome]
    rfl
  · obtain ⟨x, hmem, herror⟩ := List.exists_of_findSome?_eq_some hfault
    refine ⟨x, hmem, ?_⟩
    cases hfate : x.fate with
    | found value =>
        rw [hfate] at herror
        exact absurd herror.symm (Option.some_ne_none e)
    | missing => rfl
    | failed failure => rfl

/-- **A fault makes a graceful result incomplete.** The call that meets it asked for at least one
name, and that name ends up among the failures. -/
theorem errors_ne_nil_of_fault {e : Error}
    (hfault : (p.answered parameters { options with strict := false } s).findSome? (·.fault?) =
      some e) : (p.collected parameters { options with strict := false } s).errors ≠ [] := by
  obtain ⟨answered, hmem, hfault⟩ := List.exists_of_findSome?_eq_some hfault
  have hcall : answered.call ∈ p.planned parameters options s := by
    rw [← answered_calls]
    exact List.mem_map_of_mem hmem
  obtain ⟨x, hx, hfate⟩ := exists_failed_of_fault (mem_plan hcall).1 hfault
  have houtcome : (x.pending.name, none) ∈
      p.outcomes parameters { options with strict := false } s := by
    have hsettled := List.mem_flatMap.mpr ⟨_, hmem, hx⟩
    refine List.mem_append_right _ (List.mem_map.mpr ⟨x, hsettled, ?_⟩)
    rw [Settled.outcome, hfate]
  exact List.ne_nil_of_mem ((p.collected_error_iff parameters options s).mpr houtcome)

/-! ### Strict batches -/

/-- A strict batch meets the first fault of a graceful one. -/
theorem answered_fault? :
    (p.answered parameters { options with strict := true } s).findSome? (·.fault?) =
      (p.answered parameters { options with strict := false } s).findSome? (·.fault?) := by
  rw [p.answered_strict parameters options true, p.answered_strict parameters options false]
  exact (p.answers_strict _ _).1

/-- A strict batch without a fault collects what a graceful one does. -/
theorem collected_strict
    (hfault : (p.answered parameters { options with strict := false } s).findSome? (·.fault?) =
      none) :
    p.collected parameters { options with strict := true } s =
      p.collected parameters { options with strict := false } s := by
  have hsame : p.answered parameters { options with strict := true } s =
      p.answered parameters { options with strict := false } s := by
    rw [p.answered_strict parameters options false] at hfault
    rw [p.answered_strict parameters options true, p.answered_strict parameters options false,
      (p.answers_strict (p.planned parameters options s) s.world).2 hfault]
  rw [collected, collected, settled, settled, hsame]
  rfl

/-- **The reply of a strict batch** is told by what a graceful one does from the same state. -/
theorem getByName_strict (h : errorsKey ∉ (requested parameters).names) :
    (p.getByName parameters { options with strict := true } s).1 =
      match (p.answered parameters { options with strict := false } s).findSome? (·.fault?) with
      | some e => .error e
      | none =>
        if (p.collected parameters { options with strict := false } s).errors = [] then
          .ok (p.collected parameters { options with strict := false } s)
        else
          .error (.missing (p.collected parameters { options with strict := false } s).errors) := by
  rw [(getByName_eq h).1, answered_fault?]
  cases hfault :
      (p.answered parameters { options with strict := false } s).findSome? (·.fault?) with
  | some e => rfl
  | none =>
      rw [collected_strict hfault]
      simp only [conclude, Except.bind, conclusion, Bool.true_and, Bool.not_eq_true',
        ← BatchResult.isComplete_iff]
      cases (p.collected parameters { options with strict := false } s).isComplete <;> rfl

/-- **What a batch replies with success** is the complete tally of its outcomes, strict or not. -/
theorem eq_collected_of_ok {result : BatchResult}
    (hok : (p.getByName parameters options s).1 = .ok result) :
    result = p.collected parameters { options with strict := false } s := by
  have hreserved : errorsKey ∉ (requested parameters).names := by
    intro h
    rw [getByName_of_reserved h] at hok
    cases hok
  obtain ⟨maxAge, transform, forceFetch, strict, backend⟩ := options
  cases strict with
  | false =>
      rw [@getByName_graceful _ p parameters ⟨maxAge, transform, forceFetch, false, backend⟩ s
        hreserved] at hok
      exact (Except.ok.inj hok).symm
  | true =>
      rw [@getByName_strict _ p parameters ⟨maxAge, transform, forceFetch, true, backend⟩ s
        hreserved] at hok
      split at hok
      · cases hok
      · split at hok
        · exact (Except.ok.inj hok).symm
        · cases hok

/-- A name that the cache serves is put in with the value served. -/
theorem mem_outcomes_of_served {name : String} {overrides : Overrides} {value : ParameterValue}
    (hname : (requested parameters).get? name = some overrides)
    (hserved : p.served? options s (name, overrides) = some value) :
    (name, some value) ∈ p.outcomes parameters { options with strict := false } s := by
  have hhit : (name, value) ∈
      p.hits { options with strict := false } s (requested parameters).entries := by
    refine List.mem_filterMap.mpr ⟨(name, overrides), Dict.mem_entries_iff.mpr hname, ?_⟩
    exact congrArg (Option.map fun value => (name, value)) hserved
  exact List.mem_append_left _ (List.mem_map_of_mem hhit)

/-- A name that the cache serves is not looked up. -/
theorem name_ne_of_served {name : String} {overrides : Overrides} {value : ParameterValue}
    (hname : (requested parameters).get? name = some overrides)
    (hserved : p.served? options s (name, overrides) = some value) {call : BulkCall}
    (hcall : call ∈ p.planned parameters options s) {pending : Pending}
    (hpending : pending ∈ call.lookups) : pending.name ≠ name := by
  obtain ⟨⟨other, others⟩, hentry, hdeferred⟩ :=
    p.exists_of_mem_planned parameters options s hcall hpending
  obtain ⟨hmem, hmissed⟩ := List.mem_filter.mp hentry
  obtain rfl : _ = pending := congrArg Deferred.pending hdeferred
  rintro rfl
  have hsame := Dict.mem_entries_iff.mp hmem
  rw [deferredOf, hsame] at hname
  obtain rfl := Option.some.inj hname
  rw [deferredOf] at hserved
  rw [hserved] at hmissed
  exact Bool.noConfusion hmissed

/-- The names that a batch takes are those of its parameters. -/
theorem mem_requested {name : String} :
    name ∈ (requested parameters).names ↔ name ∈ parameters.map (·.1) :=
  Dict.mem_names_ofList

/-- The first fault that can be seen of either kind of batch is the first one of the graceful
one. -/
theorem exchanges_fault?_graceful (h : errorsKey ∉ (requested parameters).names)
    (strict : Bool) :
    (p.exchanges (.getByName parameters { options with strict }) s).findSome?
        (Exchange.fault? parameters options) =
      (p.answered parameters { options with strict := false } s).findSome? (·.fault?) := by
  have hseen := p.exchanges_fault? parameters { options with strict } s h
  cases strict with
  | false => exact hseen
  | true => exact hseen.trans answered_fault?

/-- **How strict batches follow graceful ones.** Either kind of batch is refused outright if a
parameter bears the reserved name. Otherwise the graceful batch divides the requested names into
values and failures, and the strict one from the same state comes to that result exactly if nothing
failed. If it fails, it does so with the first fault that can be seen in the calls of either batch,
which go by the fingerprint of the options and then by name, and if there is none with the names
that are missing. -/
theorem strict_refines_graceful (p : Provider σ) (parameters : List (String × Overrides))
    (options : BatchOptions) (s : State σ) :
    (errorsKey ∈ parameters.map (·.1) → ∀ strict : Bool,
      p.getByName parameters { options with strict } s = (.error .reservedName, s) ∧
        p.exchanges (.getByName parameters { options with strict }) s = [] ∧
        Error.reservedName.kind = .configuration) ∧
    (errorsKey ∉ parameters.map (·.1) → ∃ result : BatchResult,
      (p.getByName parameters { options with strict := false } s).1 = .ok result ∧
        (∀ name ∈ result.values.names, name ∉ result.errors) ∧
        (∀ name, name ∈ result.values.names ∨ name ∈ result.errors ↔
          name ∈ parameters.map (·.1)) ∧
        (∀ r, (p.getByName parameters { options with strict := true } s).1 = .ok r ↔
          r = result ∧ result.errors = []) ∧
        result.errors.Pairwise (· < ·) ∧
        ∀ strict : Bool,
          ((p.exchanges (.getByName parameters { options with strict }) s).flatMap
            Exchange.asked).Pairwise (Prod.Lex (· < ·) (· < ·)) ∧
          ∀ e, (p.getByName parameters { options with strict := true } s).1 = .error e ↔
            match (p.exchanges (.getByName parameters { options with strict }) s).findSome?
              (Exchange.fault? parameters options) with
            | some fault => e = fault
            | none => result.errors ≠ [] ∧ e = .missing result.errors ∧ e.kind = .retrieval) := by
  rw [← mem_requested]
  refine ⟨fun h strict => ⟨getByName_of_reserved h, exchanges_getByName_of_reserved h, rfl⟩,
    fun h => ⟨_, getByName_graceful h, fun name => collected_disjoint, fun name => ?_, ?_,
      BatchResult.errors_ascending _, fun strict => ⟨p.exchanges_ascending _ _ s h, ?_⟩⟩⟩
  · rw [collected_names, mem_requested]
  · intro r
    rw [getByName_strict h]
    cases hfault : (p.answered parameters { options with strict := false } s).findSome?
        (·.fault?) with
    | some e => simp [errors_ne_nil_of_fault hfault]
    | none =>
        dsimp only
        split
        · rename_i hcomplete
          simp [hcomplete, eq_comm]
        · rename_i hincomplete
          simp [hincomplete]
  · intro e
    rw [getByName_strict h, exchanges_fault?_graceful h]
    cases (p.answered parameters { options with strict := false } s).findSome? (·.fault?) with
    | some fault => simp [eq_comm]
    | none =>
        dsimp only
        split
        · rename_i hcomplete
          simp [hcomplete]
        · rename_i hincomplete
          constructor
          · intro heq
            obtain rfl := Except.error.inj heq
            exact ⟨hincomplete, rfl, rfl⟩
          · rintro ⟨-, rfl, -⟩
            rfl

end Provider

end CachedParameters
