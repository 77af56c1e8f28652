import CachedParameters.Store.Paging
import CachedParameters.Text
import CachedParameters.Source

/-!
# The parameter store and the secret store

Both are asked through a client, which is the part that a service or a store in memory provides.

The `ParameterStore` keeps texts under hierarchical names, some of them encrypted. Its
`ParameterClient` (`ParameterStoreClient`) lists the names under a path in pages and looks up
several names in one call. A listing puts the values under their names relative to the path; where
two of these agree, the later value stands.

The `SecretStore` keeps texts and bytes under flat names. Its `SecretClient` (`SecretStoreClient`)
answers one `SecretRequest` at a time, so its bulk look-ups go name by name, and it lists nothing.
-/

namespace CachedParameters

/-! ### Parameters -/

/-- A request for the parameters under a path. A listing that is not recursive stays at the first
level. -/
structure PathRequest where
  path : String
  recursive : Bool
  decrypt : Bool
  deriving DecidableEq, Repr

/-- What a bulk look-up of parameters yields: the values of the names that were found, and the names
that were not. -/
structure ParametersBatch where
  found : Dict String := .empty
  invalid : List String := []

/-- The calls that a parameter store answers: to read one parameter, to read the parameters under a
path by their full names, and to read several parameters. Each is given the backend options as well,
for keys that only the client knows. -/
structure ParameterClient (κ : Type) where
  getParameter : (name : String) → (decrypt : Bool) → BackendOptions → Call κ String
  getByPath : PathRequest → BackendOptions → Pager κ String (List (String × String))
  getParameters : (names : List String) → (decrypt : Bool) → BackendOptions →
    Call κ ParametersBatch

/-- A parameter store, and whether it decrypts unless a call says otherwise. -/
structure ParameterStore (κ : Type) where
  client : ParameterClient κ
  defaultDecrypt : Bool := false

namespace ParameterStore

variable {κ : Type}

/-- Whether a call asks for decryption: what its options say, or else the setting of the store. -/
def decrypts (store : ParameterStore κ) (options : BackendOptions) : Bool :=
  (options.flag BackendOptions.decryptKey).getD store.defaultDecrypt

def fetchOne (store : ParameterStore κ) (name : String) (options : BackendOptions) :
    Call κ RawValue := fun s =>
  match store.client.getParameter name (store.decrypts options) options s with
  | (.ok value, s) => (.ok (.text value), s)
  | (.error e, s) => (.error e, s)

/-- Adds the parameters of a page under their names relative to the path. Names that differ only in
slashes behind the path have the same relative name, and then the later one takes the place of the
earlier one. -/
def addPage (path : String) (listing : Listing) (page : List (String × String)) : Listing :=
  page.foldl (fun listing entry => listing.insert (Path.relative path entry.1) (.text entry.2))
    listing

/-- Reads the parameters under a path, page by page. -/
def fetchMany (store : ParameterStore κ) (path : String) (options : BackendOptions) :
    Call κ Listing :=
  let request : PathRequest :=
    { path
      recursive := (options.flag BackendOptions.recursiveKey).getD false
      decrypt := store.decrypts options }
  (store.client.getByPath request options).fold
    (fun listing page => .ok (addPage path listing page)) .empty none

/-- Divides names into those found and those not. A name that is asked for twice is found once,
since what was found is taken away when it is first met. -/
def collect (found : Dict String) (bulk : BulkFetch) : List String → BulkFetch
  | [] => bulk
  | name :: rest =>
    match found.get? name with
    | some value =>
      collect (found.erase name) { bulk with values := bulk.values.insert name (.text value) }
        rest
    | none => collect found { bulk with failed := bulk.failed ++ [name] } rest

/-- Reads several parameters in one call, and notes the names that the store reports. Which names
failed is decided by what was found, not by that report. -/
def fetchBulk (store : ParameterStore κ) (names : List String) (options : BackendOptions) :
    Fetch κ BulkFetch := fun world =>
  let call := store.client.getParameters names (store.decrypts options) options
  match Fetch.ofCall call world with
  | (.error e, world) => (.error e, world)
  | (.ok batch, world) =>
    let notes := if batch.invalid.isEmpty then [] else [Note.invalidNames batch.invalid]
    (.ok (collect batch.found {} names), { world with notes := world.notes ++ notes })

/-- The store as a source (`ssm`). Its bulk look-ups are limited. -/
def source (store : ParameterStore κ) : Source κ where
  name := "ssm"
  fetchOne name options := .ofCall (store.fetchOne name options)
  fetchMany path options := .ofCall (store.fetchMany path options)
  bulkLimit := some maxBulkNames
  fetchBulk := store.fetchBulk

end ParameterStore

/-! ### Secrets -/

/-- Which version of which secret to read: an exact one, the one with a staging label, or the
current one. -/
structure SecretRequest where
  secretId : String
  versionId : Option String := none
  versionStage : Option String := none
  deriving DecidableEq, Repr

/-- The one call that a secret store answers, which is to read a secret. -/
structure SecretClient (κ : Type) where
  getSecretValue : SecretRequest → BackendOptions → Call κ RawValue

/-- A secret store. -/
structure SecretStore (κ : Type) where
  client : SecretClient κ

namespace SecretStore

variable {κ : Type}

/-- The request for a secret under the given options. -/
def request (name : String) (options : BackendOptions) : SecretRequest where
  secretId := name
  versionId := options.text BackendOptions.versionIdKey
  versionStage := options.text BackendOptions.versionStageKey

/-- The store as a source. It lists nothing. -/
def source (store : SecretStore κ) : Source κ :=
  .ofSingles "secrets"
    (fun name options => .ofCall (store.client.getSecretValue (request name options) options))
    (fun path _ => .fail (.secretsNotListed path))

end SecretStore

end CachedParameters
