import CachedParameters.Memory.Scripted
import CachedParameters.Proofs.Batch.Modes

/-!
# Batches as documents

The result of a batch is written as one object (`to_json`): every value stands under its name, and
the names that failed stand under the reserved one (`ERRORS_KEY`). No parameter of a batch may bear
that name, so nothing is written twice, and `BatchResult.failuresIn` and `BatchResult.valuesIn` read
back from the object what was written, whatever the values are. A document with a member of the
reserved name is a value like any other: it stands one level below.

## Main results

- `Provider.reserved_not_mem_values`: no batch comes to a value under the reserved name.
- `BatchResult.renders`: the members of the object of a result.
- `BatchResult.failuresIn_toDocument`, `BatchResult.valuesIn_toDocument`: reading back.
- `Provider.toDocument_unambiguous`: what holds of every result that a batch comes to.
-/

namespace CachedParameters

namespace BatchResult

/-! ### Writing -/

/-- The members of an object tell a result. -/
structure Renders (r : BatchResult) (members : Dict Document) : Prop where
  /-- The object has the names of the values and, if any name failed, the reserved one. -/
  names : ∀ name, name ∈ members.names ↔
    name ∈ r.values.names ∨ name = errorsKey ∧ r.errors ≠ []
  /-- Under the reserved name stand the names that failed. -/
  failures : r.errors ≠ [] → members.get? errorsKey = some (.list (r.errors.map .text))
  /-- They ascend. -/
  ascending : r.errors.Pairwise (· < ·)
  /-- A text stands under its name. -/
  text : ∀ name content, r.values.get? name = some (.text content) →
    members.get? name = some (.text content)
  /-- Bytes stand under their name in base64. -/
  bytes : ∀ name content, r.values.get? name = some (.bytes content) →
    members.get? name = some (.text (Base64.render content))
  /-- A document stands under its name as it is. -/
  document : ∀ name content, r.values.get? name = some (.document content) →
    members.get? name = some content

/-- The members of the object of a result. -/
def members (r : BatchResult) : Dict Document :=
  let values := r.values.mapEntries fun _ value => valueDocument value
  if r.isComplete then values else values.insert errorsKey (.list (r.errors.map .text))

/-- A result is written as the object of its members. -/
theorem toDocument_eq (r : BatchResult) : r.toDocument = .ofDict r.members := rfl

/-- What stands under a name. -/
theorem get?_members (r : BatchResult) (name : String) :
    r.members.get? name =
      if name = errorsKey ∧ r.errors ≠ [] then some (.list (r.errors.map .text))
      else (r.values.get? name).map valueDocument := by
  rw [members]
  by_cases hcomplete : r.isComplete = true
  · have herrors := isComplete_iff.mp hcomplete
    rw [if_pos hcomplete, Dict.get?_mapEntries, if_neg fun h => h.2 herrors]
  · have herrors : r.errors ≠ [] := fun h => hcomplete (isComplete_iff.mpr h)
    rw [if_neg hcomplete, Dict.get?_insert, Dict.get?_mapEntries]
    simp only [and_iff_left herrors, eq_comm (a := errorsKey)]

variable {r : BatchResult} (h : errorsKey ∉ r.values.names)

include h

/-- A value stands under its name if that is not the reserved one. -/
theorem get?_members_of_value {name : String} {value : ParameterValue}
    (hvalue : r.values.get? name = some value) :
    r.members.get? name = some (valueDocument value) := by
  have hname : ¬ (name = errorsKey ∧ r.errors ≠ []) := by
    rintro ⟨rfl, -⟩
    exact h (Dict.mem_names_iff.mpr ⟨value, hvalue⟩)
  rw [get?_members, if_neg hname, hvalue, Option.map_some]

/-- **The object of a result tells it**, if no value bears the reserved name. A value under that
name would be taken for the list of failures. -/
theorem renders : r.Renders r.members where
  names name := by
    rw [Dict.mem_names_iff, Dict.mem_names_iff, get?_members]
    split
    · rename_i hreserved
      exact ⟨fun _ => .inr hreserved, fun _ => ⟨_, rfl⟩⟩
    · rename_i hother
      rw [or_iff_left hother]
      simp only [Option.map_eq_some_iff]
      exact ⟨fun ⟨_, value, hvalue, _⟩ => ⟨value, hvalue⟩,
        fun ⟨value, hvalue⟩ => ⟨_, value, hvalue, rfl⟩⟩
  failures herrors := by rw [get?_members, if_pos ⟨rfl, herrors⟩]
  ascending := r.errors_ascending
  text _ _ hvalue := get?_members_of_value h hvalue
  bytes _ _ hvalue := get?_members_of_value h hvalue
  document _ _ hvalue := get?_members_of_value h hvalue

/-! ### Reading back -/

omit h

/-- The names that failed, read from an object. -/
def failuresIn : Document → List String
  | .object members =>
    match Entries.get? errorsKey members with
    | some (.list names) => names.filterMap Document.asText?
    | _ => []
  | _ => []

/-- The names with values, each with what is written for it, read from an object. -/
def valuesIn : Document → List (String × Document)
  | .object members => Entries.erase errorsKey members
  | _ => []

theorem filterMap_asText? (names : List String) :
    (names.map Document.text).filterMap Document.asText? = names := by
  rw [List.filterMap_map]
  exact List.filterMap_some

include h

/-- **The names that failed can be read back.** No value stands under the reserved name, so the
member of that name is the list of the failures or is not there. -/
theorem failuresIn_toDocument : failuresIn r.toDocument = r.errors := by
  have hvalue : r.values.get? errorsKey = none :=
    Option.eq_none_iff_forall_ne_some.mpr fun value hvalue =>
      h (Dict.mem_names_iff.mpr ⟨value, hvalue⟩)
  have hmember : Entries.get? errorsKey r.members.entries = _ := r.get?_members errorsKey
  rw [toDocument_eq, Document.ofDict, failuresIn, hmember]
  by_cases herrors : r.errors = []
  · rw [if_neg fun hboth => hboth.2 herrors, hvalue, herrors]
    rfl
  · rw [if_pos ⟨rfl, herrors⟩]
    exact filterMap_asText? r.errors

/-- **What is written for the values can be read back.** The member of the reserved name is taken
away, and the others are the values. -/
theorem valuesIn_toDocument :
    valuesIn r.toDocument =
      r.values.entries.map fun entry => (entry.1, valueDocument entry.2) := by
  have herased : r.members.erase errorsKey =
      r.values.mapEntries fun _ value => valueDocument value := by
    refine Dict.ext fun name => ?_
    rw [Dict.get?_erase, Dict.get?_mapEntries]
    by_cases hname : errorsKey = name
    · rw [if_pos hname, ← hname]
      exact (Option.map_eq_none_iff.mpr (Option.eq_none_iff_forall_ne_some.mpr fun value hvalue =>
        h (Dict.mem_names_iff.mpr ⟨value, hvalue⟩))).symm
    · rw [if_neg hname, get?_members, if_neg fun hboth => hname hboth.1.symm]
  exact congrArg Dict.entries herased

end BatchResult

namespace Provider

variable {σ : Type} {p : Provider σ} {parameters : List (String × Overrides)}
  {options : BatchOptions} {s : State σ} {result : BatchResult}

/-- **No batch comes to a value under the reserved name**: a batch that bears it is refused, and the
others come to values of the names they were asked for. -/
theorem reserved_not_mem_values (hok : (p.getByName parameters options s).1 = .ok result) :
    errorsKey ∉ result.values.names := by
  have hreserved : errorsKey ∉ (requested parameters).names := by
    intro hreserved
    rw [getByName_of_reserved hreserved] at hok
    cases hok
  intro hvalue
  rw [eq_collected_of_ok hok] at hvalue
  exact hreserved (collected_names errorsKey |>.mp (.inl hvalue))

/-- **The object of a batch is unambiguous.** Its members are the values and, if any name failed,
the list of the failed names in ascending order, and both can be read back from it. -/
theorem toDocument_unambiguous (hok : (p.getByName parameters options s).1 = .ok result) :
    ∃ members : Dict Document, result.toDocument = .ofDict members ∧ result.Renders members ∧
      BatchResult.failuresIn result.toDocument = result.errors ∧
      BatchResult.valuesIn result.toDocument =
        result.values.entries.map fun entry => (entry.1, BatchResult.valueDocument entry.2) :=
  have hvalues := reserved_not_mem_values hok
  ⟨result.members, result.toDocument_eq, BatchResult.renders hvalues,
    BatchResult.failuresIn_toDocument hvalues, BatchResult.valuesIn_toDocument hvalues⟩

/-- A graceful batch of three names finds a document and bytes, and does not find the third name.
The document has a member of the reserved name. -/
theorem toDocument_unambiguous_nested :
    let p : Provider Memory.Script := ⟨Memory.Script.bulkSource none, defaultMaxAge⟩
    let inner : Document := .object [("_errors", .list [.text "/c"])]
    let script : Memory.Script :=
      { values := .ofList
          [("/a", .text "\x7b\"_errors\":[\"/c\"]\x7d"), ("/b", .bytes [0x68, 0x69])] }
    let s : State Memory.Script := { world := { backend := script, now := .zero } }
    let parameters : List (String × Overrides) :=
      [("/a", { transform := some .json }), ("/b", {}), ("/c", {})]
    let result : BatchResult :=
      ⟨.ofList [("/a", .document inner), ("/b", .bytes [0x68, 0x69])], .ofList [("/c", ())]⟩
    (p.getByName parameters { strict := false } s).1 = .ok result ∧
      ∃ members : Dict Document, result.toDocument = .ofDict members ∧ result.Renders members ∧
        BatchResult.failuresIn result.toDocument = ["/c"] ∧
        BatchResult.valuesIn result.toDocument = [("/a", inner), ("/b", .text "aGk=")] := by
  intro p inner script s parameters result
  have hplanned : p.planned parameters { strict := false } s =
      [⟨.empty, [⟨"/a", .json, .single p.source.name "/a" .json .empty⟩,
        ⟨"/b", .plain, .single p.source.name "/b" .plain .empty⟩,
        ⟨"/c", .plain, .single p.source.name "/c" .plain .empty⟩]⟩] := by
    with_unfolding_all rfl
  have hsettled : p.settled parameters { strict := false } s =
      [⟨⟨"/a", .json, .single p.source.name "/a" .json .empty⟩, .found (.document inner), .zero⟩,
        ⟨⟨"/b", .plain, .single p.source.name "/b" .plain .empty⟩, .found (.bytes [0x68, 0x69]),
          .zero⟩,
        ⟨⟨"/c", .plain, .single p.source.name "/c" .plain .empty⟩, .missing, .zero⟩] := by
    rw [settled, answered, hplanned]
    dsimp only [p, s, script, inner]
    rfl
  have hok : (p.getByName parameters { strict := false } s).1 = .ok result := by
    have hallowed : errorsKey ∉ (requested parameters).names := by decide
    refine (@getByName_graceful _ p parameters {} s hallowed).trans ?_
    rw [collected, hsettled]
    dsimp only [p, s, script, inner, result, parameters]
    with_unfolding_all rfl
  have hwritten : result.values.entries.map (fun entry =>
      (entry.1, BatchResult.valueDocument entry.2)) = [("/a", inner), ("/b", .text "aGk=")] := by
    have hbytes : BatchResult.valueDocument (.bytes [0x68, 0x69]) = .text "aGk=" := by
      with_unfolding_all rfl
    rw [← hbytes]
    dsimp only [result, inner]
    rfl
  obtain ⟨members, hmembers, hrenders, hfailures, hvalues⟩ := toDocument_unambiguous hok
  exact ⟨hok, members, hmembers, hrenders, hfailures, hvalues.trans hwritten⟩

end Provider

end CachedParameters
