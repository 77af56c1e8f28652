import CachedParameters.Source
import CachedParameters.Text

/-!
# Scripted sources

A `ParameterSource` without a store behind it: it answers from a list of values, may take its time
over every call, and fails the calls it is told to with the failures it is told. It comes with and
without a `fetch_bulk` of its own.
-/

namespace CachedParameters.Memory

/-- What a scripted source works on: the values, how long every call takes, which calls fail and
how, and the calls made, the oldest first. -/
structure Script where
  values : Dict RawValue := .empty
  slow : Duration := ⟨0⟩
  failures : Dict Error := .empty
  calls : List String := []

namespace Script

/-- Records a call, lets its time pass, and fails if it is one to fail. -/
def act {α : Type} (call : String) (answer : Script → Except Error α) : Fetch Script α :=
  fun world =>
    let script := { world.backend with calls := world.backend.calls ++ [call] }
    let world := { world with backend := script, now := world.now.advance script.slow }
    match script.failures.get? call with
    | some failure => (.error failure, world)
    | none => (answer script, world)

def fetchOne (name : String) : Fetch Script RawValue :=
  act ("one:" ++ name) fun script =>
    match script.values.get? name with
    | some value => .ok value
    | none => .error (.notFound name)

/-- The values whose names begin with a path, by the rest of the name. -/
def under (script : Script) (path : String) : Listing :=
  .ofList <| script.values.entries.filterMap fun entry =>
    (Text.dropStart? path.toList entry.1.toList).map fun rest => (String.ofList rest, entry.2)

def fetchMany (path : String) : Fetch Script Listing :=
  act ("many:" ++ path) fun script => .ok (script.under path)

/-- Adds the value of a name to a bulk, or the name to those that failed. -/
def addTo (script : Script) (bulk : BulkFetch) (name : String) : BulkFetch :=
  match script.values.get? name with
  | some value => { bulk with values := bulk.values.insert name value }
  | none => { bulk with failed := bulk.failed ++ [name] }

/-- Fetches several values in one call, which the script answers for all names together. -/
def fetchBulk (names : List String) : Fetch Script BulkFetch :=
  act ("bulk:" ++ ",".intercalate names) fun script => .ok (names.foldl script.addTo {})

/-- The source without a bulk look-up of its own. -/
def source : Source Script :=
  .ofSingles "scripted" (fun name _ => fetchOne name) (fun path _ => fetchMany path)

/-- The source with a bulk look-up of its own, up to a limit. -/
def bulkSource (limit : Option Nat) : Source Script where
  name := "scripted_bulk"
  fetchOne name _ := fetchOne name
  fetchMany path _ := fetchMany path
  bulkLimit := limit
  fetchBulk names _ := fetchBulk names

end Script

end CachedParameters.Memory
