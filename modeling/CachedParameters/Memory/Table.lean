import CachedParameters.Store.Paging
import CachedParameters.Memory.Secrets
import CachedParameters.Store.Table

/-!
# A table in memory

The `FakeTable`. Items are kept in the order they were inserted. Queries are paged, and a query is
continued at the number of items before the page.
-/

namespace CachedParameters.Memory

/-- A table in memory: the calls made, the items in the order in which they were inserted, and the
most items of one page. -/
structure Table where
  recorder : Recorder := {}
  items : List Item := []
  pageSize : PageSize := .ofNat 100

namespace Table

/-- Sets the size of a page; none counts as one. -/
def withPageSize (s : Table) (pageSize : Nat) : Table :=
  { s with pageSize := .ofNat pageSize }

def insertItem (s : Table) (item : Item) : Table := { s with items := s.items ++ [item] }

/-- The items whose key attribute is the text of the key. -/
def matching (s : Table) (request : TableRequest) : List Item :=
  s.items.filter fun item => item.get? request.keyAttr = some (.text request.key)

/-- The text that a call is recorded as: what is called, the table and the key that it is for, and
whether the read has to be consistent. -/
def describe (call : String) (request : TableRequest) : String :=
  call ++ ":" ++ request.tableName ++ "/" ++ request.keyAttr ++ "=" ++ request.key ++
    (if request.consistentRead then " consistent" else "")

/-- Reads the first item with a key. -/
def getItem (request : TableRequest) : Call Table (Option Item) := fun s =>
  match Recorder.record (describe "get_item" request) s.recorder with
  | (.error e, recorder) => (.error e, { s with recorder })
  | (.ok (), recorder) => (.ok (s.matching request).head?, { s with recorder })

/-- Reads the page of the items with a key that begins at a position. -/
def getPage (request : TableRequest) (start : Option Nat) :
    Call Table (List Item × Option Nat) := fun s =>
  match Recorder.record (describe "query" request) s.recorder with
  | (.error e, recorder) => (.error e, { s with recorder })
  | (.ok (), recorder) =>
    let page := Page.slice s.pageSize (start.getD 0) (s.matching request)
    (.ok (page.entries, page.next), { s with recorder })

/-- A bound on the pages from a position on: every page but an empty one moves the position towards
the end of the items. -/
def pagesLeft (start : Option Nat) (s : Table) : Nat := s.items.length - start.getD 0

/-- The bound falls from a page to the next one. -/
theorem pagesLeft_lt {request : TableRequest} {start : Option Nat} {s s' : Table}
    {page : List Item} {next : Nat}
    (h : getPage request start s = (.ok (page, some next), s')) :
    pagesLeft (some next) s' < pagesLeft start s := by
  rw [getPage] at h
  split at h
  · simp at h
  · simp only [Prod.mk.injEq, Except.ok.injEq] at h
    obtain ⟨⟨-, hnext⟩, rfl⟩ := h
    obtain ⟨hlt, hend⟩ := Page.lt_of_next hnext
    have hsize : (s.matching request).length ≤ s.items.length := List.length_filter_le _ _
    simp only [pagesLeft, Option.getD_some]
    omega

/-- The table as the client of a table. -/
def client : TableClient Table Nat where
  getItem request _ := getItem request
  query request _ :=
    { page := getPage request
      left := pagesLeft
      left_lt := pagesLeft_lt }

end Table

end CachedParameters.Memory
