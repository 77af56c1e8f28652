import CachedParameters.Value
import CachedParameters.Cache
import CachedParameters.Request
import CachedParameters.Provider

/-!
# Batches

A batch, `Provider.getByName` (`get_parameters_by_name`), retrieves independently named parameters,
each with overrides of its own. Names with a fresh value in the cache are served first. The others
are grouped by their effective options, and every group is cut into bulk calls that keep to the
limit of the source. That is the plan of the batch. The calls are made as planned, in order, and
what they bring is decoded and stored name by name.

A strict batch (`raise_on_error`) ends at the first failure of a call or of a decoding, and fails at
the end if a name is missing. Otherwise failures only end up on the list of failed names. A
`BatchResult` holds both: no name is on both sides of it, whatever is put in.
-/

namespace CachedParameters

/-! ### Results -/

/-- What became of the names of a batch: the values of those that were retrieved, and those that
were not, each without further content. -/
structure BatchResult where
  values : Dict ParameterValue
  failures : Dict Unit

namespace BatchResult

def empty : BatchResult := ⟨.empty, .empty⟩

/-- Records the value of a name, which is then no longer among those that failed. -/
def addValue (r : BatchResult) (name : String) (value : ParameterValue) : BatchResult :=
  ⟨r.values.insert name value, r.failures.erase name⟩

/-- Records that a name failed, which then no longer has a value. -/
def addError (r : BatchResult) (name : String) : BatchResult :=
  ⟨r.values.erase name, r.failures.insert name ()⟩

/-- The names that failed, in ascending order. -/
def errors (r : BatchResult) : List String := r.failures.names

/-- Whether no name failed (`is_complete`). In strict mode nothing else is ever returned. -/
def isComplete (r : BatchResult) : Bool := r.failures.entries.isEmpty

/-- A value as a document: bytes become base64 text. -/
def valueDocument : ParameterValue → Document
  | .text content => .text content
  | .bytes content => .text (Base64.render content)
  | .document content => content

/-- The result as one document: every value under its name and, if any name failed, the names
that did under the reserved one. -/
def toDocument (r : BatchResult) : Document :=
  let values := r.values.mapEntries fun _ value => valueDocument value
  .ofDict <|
    if r.isComplete then values else values.insert errorsKey (.list (r.errors.map .text))

end BatchResult

/-! ### Plans -/

namespace Batch

/-- A name of a batch that the cache did not serve, with the transform that decodes its value and
the key to store it under. -/
structure Pending where
  name : String
  transform : Transform
  key : CacheKey

/-- The pending names with the same effective options, in ascending order. -/
structure PendingGroup where
  options : BackendOptions
  lookups : List Pending

/-- One bulk call of a plan: the options that it carries, and the names it asks for. -/
structure BulkCall where
  options : BackendOptions
  lookups : List Pending

/-- The names that a bulk call asks for. -/
def BulkCall.names (call : BulkCall) : List String := call.lookups.map (·.name)

/-- What the cache served, and the names it did not, grouped by the fingerprint of their options. -/
structure Intake where
  served : BatchResult := .empty
  groups : Dict PendingGroup := .empty

/-- Appends a name to the group of its options. -/
def Intake.defer (intake : Intake) (options : BackendOptions) (pending : Pending) : Intake :=
  let fingerprint := BackendOptions.fingerprint options
  let group := (intake.groups.get? fingerprint).getD ⟨options, []⟩
  { intake with
    groups :=
      intake.groups.insert fingerprint { group with lookups := group.lookups ++ [pending] } }

/-! ### Bulk calls -/

/-- Cuts a list into pieces of `size` elements, the last of which may be shorter. -/
def pieces {α : Type} (size : Nat) (xs : List α) : List (List α) :=
  if _h : 0 < xs.length ∧ 0 < size then xs.take size :: pieces size (xs.drop size)
  else []
termination_by xs.length
decreasing_by simp; omega

/-- The pieces of a list for one bulk call each. A limit of zero counts as one. -/
def bulks {α : Type} (limit : Option Nat) (xs : List α) : List (List α) :=
  pieces (max 1 (limit.getD xs.length)) xs

/-- The bulk calls for the pending names, the groups in the order of their fingerprints. -/
def plan (limit : Option Nat) (groups : Dict PendingGroup) : List BulkCall :=
  groups.entries.flatMap fun entry =>
    (bulks limit entry.2.lookups).map fun lookups => ⟨entry.2.options, lookups⟩

end Batch

/-! ### Runs -/

namespace Provider

open Batch

variable {σ : Type}

/-- Asks the cache for every name in turn. A name that is served needs no call, and any other one
joins the group of its options. -/
def takeIn (p : Provider σ) (options : BatchOptions) (intake : Intake) :
    List (String × Overrides) → State σ → Intake × State σ
  | [], s => (intake, s)
  | (name, overrides) :: rest, s =>
    let single := options.forName overrides
    let transform := single.transform.resolve name
    let key := CacheKey.single p.source.name name transform single.backend
    match p.consult .getByName key name single.forceFetch single.maxAge Cached.value? s with
    | (some value, s) =>
      p.takeIn options { intake with served := intake.served.addValue name value } rest s
    | (none, s) =>
      p.takeIn options (intake.defer single.backend ⟨name, transform, key⟩) rest s

/-- Decodes and stores what a bulk call brought, name by name. The names that the call was made for
are gone through, not those that it found, so a value that was not asked for is dropped. -/
def settle (p : Provider σ) (strict : Bool) (found : Listing) (result : BatchResult) :
    List Pending → State σ → Except Error BatchResult × State σ
  | [], s => (.ok result, s)
  | pending :: rest, s =>
    match found.get? pending.name with
    | none => p.settle strict found (result.addError pending.name) rest s
    | some raw =>
      match pending.transform.apply pending.name raw with
      | .ok value =>
        p.settle strict found (result.addValue pending.name value) rest
          (s.store pending.key (.value value))
      | .error e =>
        let s := p.record .getByName .transformFailed pending.name s
        if strict then (.error e, s)
        else p.settle strict found (result.addError pending.name) rest s

/-- Makes the calls of a plan in order. A call that fails marks all of its names, whatever the
failure is, and a strict batch ends there. -/
def runPlan (p : Provider σ) (strict : Bool) (result : BatchResult) :
    List BulkCall → State σ → Except Error BatchResult × State σ
  | [], s => (.ok result, s)
  | call :: rest, s =>
    let fetch := p.source.fetchBulk call.names call.options
    match p.fetch .getByName (",".intercalate call.names) fetch s with
    | (.error e, s) =>
      if strict then (.error e, s)
      else p.runPlan strict (call.names.foldl BatchResult.addError result) rest s
    | (.ok bulk, s) =>
      match p.settle strict bulk.values result call.lookups s with
      | (.error e, s) => (.error e, s)
      | (.ok result, s) => p.runPlan strict result rest s

/-- Retrieves a batch of names. Of several overrides for one name the last ones hold, and the
names are taken in ascending order. -/
def getByName (p : Provider σ) (parameters : List (String × Overrides)) (options : BatchOptions)
    (s : State σ) : Except Error BatchResult × State σ :=
  let requests : Dict Overrides := .ofList parameters
  if requests.contains errorsKey then (.error .reservedName, s)
  else
    let (intake, s) := p.takeIn options {} requests.entries s
    match p.runPlan options.strict intake.served (plan p.source.bulkLimit intake.groups) s with
    | (.error e, s) => (.error e, s)
    | (.ok result, s) =>
      if options.strict && !result.isComplete then (.error (.missing result.errors), s)
      else (.ok result, s)

end Provider

end CachedParameters
