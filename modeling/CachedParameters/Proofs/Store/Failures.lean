import CachedParameters.Cloud.Clients
import CachedParameters.Memory.Configurations
import CachedParameters.Memory.Parameters
import CachedParameters.Memory.Secrets
import CachedParameters.Memory.Table
import CachedParameters.Proofs.Source.Failures

/-!
# The stores fail to fetch

The four stores never decode what they fetch: over a client that fails to fetch, if at all, so do
they. All clients of this library are of that kind, those that keep their contents in memory and
those that ask a cloud service.

## Main results

- `ParameterStore.failsToFetch`, `SecretStore.failsToFetch`, `ConfigurationStore.failsToFetch`,
  `TableStore.failsToFetch`: the stores fail as their clients do.
- `Source.BuiltIn.failsToFetch`: the stores over the clients of this library fail to fetch, if at
  all.
-/

namespace CachedParameters

variable {κ γ : Type}

/-! ### The stores over any client -/

/-- A client that fails to fetch, if at all, whether it reads one parameter, a page or several. -/
structure ParameterClient.FailsToFetch (client : ParameterClient κ) : Prop where
  one (name : String) (decrypt : Bool) (options : BackendOptions) :
    CachedParameters.FailsToFetch (client.getParameter name decrypt options)
  page (request : PathRequest) (options : BackendOptions) (token : Option String) :
    CachedParameters.FailsToFetch ((client.getByPath request options).page token)
  bulk (names : List String) (decrypt : Bool) (options : BackendOptions) :
    CachedParameters.FailsToFetch (client.getParameters names decrypt options)

/-- The parameter store fails as its client does, since nothing that it does with an answer can
fail. -/
theorem ParameterStore.failsToFetch {store : ParameterStore κ} (h : store.client.FailsToFetch) :
    store.source.FailsToFetch where
  one name options := by
    refine .ofCall fun s e he => ?_
    rw [fetchOne] at he
    split at he
    · cases he
    · rename_i failure after hcall
      obtain rfl := Except.error.inj he
      exact h.one name (store.decrypts options) options s failure (by rw [hcall])
  many path options := by
    refine .ofCall fun s => ?_
    exact Pager.fold_fails (h.page _ options) (fun sum content e he => by cases he) _ _ s
  bulk names options world e he := by
    simp only [source, fetchBulk] at he
    split at he
    · rename_i failure after hcall
      obtain rfl := Except.error.inj he
      exact FailsToFetch.ofCall (h.bulk names (store.decrypts options) options) world failure
        (by rw [hcall])
    · cases he

/-- The secret store fails as its client does, and when it is asked to list secrets. -/
theorem SecretStore.failsToFetch {store : SecretStore κ}
    (h : ∀ request options, FailsToFetch (store.client.getSecretValue request options)) :
    store.source.FailsToFetch :=
  .ofSingles "secrets" (fun name options => .ofCall (h (request name options) options))
    fun _ _ => .fail (.inr rfl)

/-- A client that fails to fetch, if at all, whether it opens a session or polls. -/
structure ConfigurationClient.FailsToFetch (client : ConfigurationClient κ) : Prop where
  start (application environment profile : String) (options : BackendOptions) :
    CachedParameters.FailsToFetch (client.startSession application environment profile options)
  poll (token : String) (options : BackendOptions) :
    CachedParameters.FailsToFetch (client.getLatest token options)

/-- The configuration store fails as its client does, and when it is asked to list profiles. -/
theorem ConfigurationStore.failsToFetch {store : ConfigurationStore κ}
    (h : store.client.FailsToFetch) : store.source.FailsToFetch := by
  refine .ofSingles "appconfig" (fun profile options => .ofCall fun s e he => ?_)
    fun _ _ => .fail (.inr rfl)
  rw [fetchOne] at he
  split at he
  · rename_i failure after htoken
    obtain rfl := Except.error.inj he
    rw [token] at htoken
    split at htoken
    · cases htoken
    · exact h.start _ _ profile options s.client failure (congrArg Prod.fst htoken)
  · split at he
    · rename_i failure after hpoll
      obtain rfl := Except.error.inj he
      exact h.poll _ options _ failure (by rw [hpoll])
    · cases he

/-- A client that fails to fetch, if at all, whether it reads an item or a page. -/
structure TableClient.FailsToFetch (client : TableClient κ γ) : Prop where
  item (request : TableRequest) (options : BackendOptions) :
    CachedParameters.FailsToFetch (client.getItem request options)
  page (request : TableRequest) (options : BackendOptions) (start : Option γ) :
    CachedParameters.FailsToFetch ((client.query request options).page start)

namespace TableStore

/-- An attribute that is missing is a failure to fetch. -/
theorem ofFetch_of_takeAttr {item : Item} {attr key : String} {e : Error}
    (h : takeAttr item attr key = .error e) : e.OfFetch := by
  rw [takeAttr] at h
  split at h
  · cases h
  · obtain rfl := Except.error.inj h
    exact .inl rfl

/-- An item without a sub-key or a value is a failure to fetch. -/
theorem ofFetch_of_keyedValue {sortAttr valueAttr path : String} {item : Item} {e : Error}
    (h : keyedValue sortAttr valueAttr path item = .error e) : e.OfFetch := by
  rw [keyedValue] at h
  split at h
  · rename_i failure htake
    obtain rfl := Except.error.inj h
    exact ofFetch_of_takeAttr htake
  · obtain rfl := Except.error.inj h
    exact .inl rfl
  · split at h
    · rename_i failure htake
      obtain rfl := Except.error.inj h
      exact ofFetch_of_takeAttr htake
    · cases h

/-- Items fail to be added as one of them does. -/
theorem ofFetch_of_addItems {sortAttr valueAttr path : String} {listing : Listing}
    {items : List Item} {e : Error}
    (h : addItems sortAttr valueAttr path listing items = .error e) : e.OfFetch := by
  induction items generalizing listing with
  | nil => cases h
  | cons item rest ih =>
      rw [addItems] at h
      split at h
      · rename_i failure hitem
        obtain rfl := Except.error.inj h
        exact ofFetch_of_keyedValue hitem
      · exact ih h

/-- The table fails as its client does, and when an item lacks what it should have. -/
theorem failsToFetch {store : TableStore κ γ} (h : store.client.FailsToFetch) :
    store.source.FailsToFetch := by
  refine .ofSingles "table" (fun name options => .ofCall fun s e he => ?_)
    fun path options => .ofCall fun s => ?_
  · rw [fetchOne] at he
    split at he
    · rename_i failure after hcall
      obtain rfl := Except.error.inj he
      exact h.item (store.request name options) options s failure (by rw [hcall])
    · obtain rfl := Except.error.inj he
      exact .inl rfl
    · split at he
      · rename_i failure htake
        obtain rfl := Except.error.inj he
        exact ofFetch_of_takeAttr htake
      · cases he
  · exact Pager.fold_fails (h.page _ options) (fun _ _ _ => ofFetch_of_addItems) _ _ s

end TableStore

/-! ### Clients in memory -/

namespace Memory

/-- A call that is made to fail is a failure to fetch. -/
theorem Recorder.ofFetch_of_record {call : String} {r later : Recorder} {e : Error}
    (h : record call r = (.error e, later)) : e.OfFetch := by
  have houtcome := congrArg Prod.fst h
  rw [record] at houtcome
  dsimp only at houtcome
  split at houtcome
  · obtain rfl := Except.error.inj houtcome
    exact .inl rfl
  · cases houtcome

/-- The parameters in memory fail to be fetched, if at all. -/
theorem Parameters.client_failsToFetch : Parameters.client.FailsToFetch where
  one name decrypt _ s e he := by
    simp only [client, getParameter] at he
    split at he
    · rename_i failure recorder hrecord
      obtain rfl := Except.error.inj he
      exact Recorder.ofFetch_of_record hrecord
    · split at he
      · cases he
      · obtain rfl := Except.error.inj he
        exact .inl rfl
  page request _ token s e he := by
    simp only [client, getPage] at he
    split at he
    · rename_i failure recorder hrecord
      obtain rfl := Except.error.inj he
      exact Recorder.ofFetch_of_record hrecord
    · split at he
      · rename_i failure hoffset
        obtain rfl := Except.error.inj he
        rw [offset.eq_def] at hoffset
        split at hoffset
        · cases hoffset
        · split at hoffset
          · cases hoffset
          · obtain rfl := Except.error.inj hoffset
            exact .inl rfl
      · cases he
  bulk names decrypt _ s e he := by
    simp only [client, getParameters] at he
    split at he
    · rename_i failure recorder hrecord
      obtain rfl := Except.error.inj he
      exact Recorder.ofFetch_of_record hrecord
    · split at he
      · obtain rfl := Except.error.inj he
        exact .inl rfl
      · cases he

/-- The secrets in memory fail to be fetched, if at all. -/
theorem Secrets.client_failsToFetch (request : SecretRequest) (options : BackendOptions) :
    FailsToFetch (Secrets.client.getSecretValue request options) := by
  intro s e he
  simp only [client, getSecretValue] at he
  split at he
  · rename_i failure recorder hrecord
    obtain rfl := Except.error.inj he
    exact Recorder.ofFetch_of_record hrecord
  · split at he
    · cases he
    · obtain rfl := Except.error.inj he
      exact .inl rfl

/-- The configurations in memory fail to be fetched, if at all. -/
theorem Configurations.client_failsToFetch : Configurations.client.FailsToFetch where
  start application environment profile _ s e he := by
    simp only [client, startSession] at he
    split at he
    · rename_i failure recorder hrecord
      obtain rfl := Except.error.inj he
      exact Recorder.ofFetch_of_record hrecord
    · split at he
      · cases he
      · obtain rfl := Except.error.inj he
        exact .inl rfl
  poll token _ s e he := by
    simp only [client, getLatest] at he
    split at he
    · rename_i failure recorder hrecord
      obtain rfl := Except.error.inj he
      exact Recorder.ofFetch_of_record hrecord
    · split at he
      · obtain rfl := Except.error.inj he
        exact .inl rfl
      · rw [poll] at he
        split at he
        · obtain rfl := Except.error.inj he
          exact .inl rfl
        · split at he
          · obtain rfl := Except.error.inj he
            exact .inl rfl
          · cases he

/-- The items in memory fail to be fetched, if at all. -/
theorem Table.client_failsToFetch : Table.client.FailsToFetch where
  item request _ s e he := by
    simp only [client, getItem] at he
    split at he
    · rename_i failure recorder hrecord
      obtain rfl := Except.error.inj he
      exact Recorder.ofFetch_of_record hrecord
    · cases he
  page request _ start s e he := by
    simp only [client, getPage] at he
    split at he
    · rename_i failure recorder hrecord
      obtain rfl := Except.error.inj he
      exact Recorder.ofFetch_of_record hrecord
    · cases he

end Memory

/-! ### Clients of cloud services -/

namespace Cloud

/-- A request fails to be answered, or the answer lacks what is read from it. -/
theorem Service.send_failsToFetch {α : Type} {request : Request}
    {read : Answer → Except Error α} (h : ∀ answer e, read answer = .error e → e.OfFetch) :
    FailsToFetch (Service.send request read) := by
  intro s e he
  rw [send] at he
  split at he
  · dsimp only at he
    split at he
    · exact h _ e he
    · obtain rfl := Except.error.inj he
      exact .inl rfl
  · obtain rfl := Except.error.inj he
    exact .inl rfl
  · obtain rfl := Except.error.inj he
    exact .inl rfl

/-- What is always read from an answer does not fail. -/
theorem Service.send_ok_failsToFetch {α : Type} {request : Request} {read : Answer → α} :
    FailsToFetch (Service.send request fun answer => .ok (read answer)) :=
  Service.send_failsToFetch fun _ _ he => nomatch he

/-- The parameters of a service fail to be fetched, if at all. -/
theorem parameterClient_failsToFetch : parameterClient.FailsToFetch where
  one name decrypt _ := by
    refine Service.send_failsToFetch fun answer e he => ?_
    rw [readParameter] at he
    split at he
    · cases he
    · obtain rfl := Except.error.inj he
      exact .inl rfl
  page _ _ _ := Service.send_ok_failsToFetch
  bulk _ _ _ := Service.send_ok_failsToFetch

/-- The secrets of a service fail to be fetched, if at all. -/
theorem secretClient_failsToFetch (request : SecretRequest) (options : BackendOptions) :
    FailsToFetch (secretClient.getSecretValue request options) := by
  refine Service.send_failsToFetch fun answer e he => ?_
  rw [readSecret] at he
  split at he
  · cases he
  · cases he
  · obtain rfl := Except.error.inj he
    exact .inl rfl

/-- The configurations of a service fail to be fetched, if at all. -/
theorem configurationClient_failsToFetch : configurationClient.FailsToFetch where
  start application environment profile _ := by
    refine Service.send_failsToFetch fun answer e he => ?_
    rw [readSession] at he
    split at he
    · cases he
    · obtain rfl := Except.error.inj he
      exact .inl rfl
  poll token _ := by
    refine Service.send_failsToFetch fun answer e he => ?_
    rw [readLatest] at he
    split at he
    · cases he
    · obtain rfl := Except.error.inj he
      exact .inl rfl

/-- The items of a service fail to be fetched, if at all. -/
theorem tableClient_failsToFetch : tableClient.FailsToFetch where
  item _ _ := Service.send_ok_failsToFetch
  page _ _ _ := Service.send_ok_failsToFetch

end Cloud

/-! ### The stores of this library -/

/-- The stores over the clients that this library comes with, in memory and of a cloud service. -/
inductive Source.BuiltIn : {σ : Type} → Source σ → Prop where
  | parameters (decrypt : Bool) :
      BuiltIn (ParameterStore.source ⟨Memory.Parameters.client, decrypt⟩)
  | secrets : BuiltIn (SecretStore.source ⟨Memory.Secrets.client⟩)
  | configurations {application environment : String}
      (given : application ≠ "" ∧ environment ≠ "") :
      BuiltIn (ConfigurationStore.source
        ⟨Memory.Configurations.client, application, environment, given⟩)
  | table {config : TableConfig} (complete : config.blankField? = none) :
      BuiltIn (TableStore.source ⟨Memory.Table.client, config, complete⟩)
  | cloudParameters (decrypt : Bool) :
      BuiltIn (ParameterStore.source ⟨Cloud.parameterClient, decrypt⟩)
  | cloudSecrets : BuiltIn (SecretStore.source ⟨Cloud.secretClient⟩)
  | cloudConfigurations {application environment : String}
      (given : application ≠ "" ∧ environment ≠ "") :
      BuiltIn (ConfigurationStore.source
        ⟨Cloud.configurationClient, application, environment, given⟩)
  | cloudTable {config : TableConfig} (complete : config.blankField? = none) :
      BuiltIn (TableStore.source ⟨Cloud.tableClient, config, complete⟩)

/-- **The stores of this library fail to fetch, if at all.** -/
theorem Source.BuiltIn.failsToFetch {σ : Type} {source : Source σ} (h : source.BuiltIn) :
    source.FailsToFetch := by
  cases h with
  | parameters decrypt => exact ParameterStore.failsToFetch Memory.Parameters.client_failsToFetch
  | secrets => exact SecretStore.failsToFetch Memory.Secrets.client_failsToFetch
  | configurations given =>
      exact ConfigurationStore.failsToFetch Memory.Configurations.client_failsToFetch
  | table complete => exact TableStore.failsToFetch Memory.Table.client_failsToFetch
  | cloudParameters decrypt => exact ParameterStore.failsToFetch Cloud.parameterClient_failsToFetch
  | cloudSecrets => exact SecretStore.failsToFetch Cloud.secretClient_failsToFetch
  | cloudConfigurations given =>
      exact ConfigurationStore.failsToFetch Cloud.configurationClient_failsToFetch
  | cloudTable complete => exact TableStore.failsToFetch Cloud.tableClient_failsToFetch

end CachedParameters
