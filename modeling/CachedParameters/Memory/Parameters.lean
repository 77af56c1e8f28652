import CachedParameters.Store.Paging
import CachedParameters.Memory.Secrets
import CachedParameters.Store.Parameters

/-!
# A parameter store in memory

The `FakeParameterStore`. Parameters are kept in the order of their names. A secure one is masked
unless decryption is asked for. Listings are paged, and the token of a page is the number of
parameters before it.
-/

namespace CachedParameters.Memory

/-- A parameter that is kept, and whether its value can only be read with decryption. -/
structure StoredParameter where
  value : String
  secure : Bool := false
  deriving DecidableEq, Repr

/-- What is read of a secure parameter without decryption. -/
def mask : String := "<encrypted>"

/-- What is read of a parameter: its value, or the mask for a secure one unless decryption is asked
for. -/
def StoredParameter.reading (p : StoredParameter) (decrypt : Bool) : String :=
  if p.secure && !decrypt then mask else p.value

/-- A parameter store in memory: the calls made, the parameters, and the most parameters of one
page. -/
structure Parameters where
  recorder : Recorder := {}
  parameters : Dict StoredParameter := .empty
  pageSize : PageSize := .ofNat 50

namespace Parameters

/-- Sets the size of a page; none counts as one. -/
def withPageSize (s : Parameters) (pageSize : Nat) : Parameters :=
  { s with pageSize := .ofNat pageSize }

/-- Keeps a parameter in place of the one of the same name. -/
def put (s : Parameters) (name value : String) (secure : Bool) : Parameters :=
  { s with parameters := s.parameters.insert name ⟨value, secure⟩ }

def remove (s : Parameters) (name : String) : Parameters :=
  { s with parameters := s.parameters.erase name }

def read? (s : Parameters) (name : String) (decrypt : Bool) : Option String :=
  (s.parameters.get? name).map (·.reading decrypt)

/-- Reads one parameter. The call is recorded first, and if it is made to fail the store is not
looked at. -/
def getParameter (name : String) (decrypt : Bool) : Call Parameters String := fun s =>
  match Recorder.record ("get_parameter:" ++ name) s.recorder with
  | (.error e, recorder) => (.error e, { s with recorder })
  | (.ok (), recorder) =>
    match s.read? name decrypt with
    | some value => (.ok value, { s with recorder })
    | none => (.error (.parameterNotFound name), { s with recorder })

/-! ### Listings -/

/-- The parameters that a request asks for, in the order of their names. -/
def matching (s : Parameters) (request : PathRequest) : List (String × String) :=
  (s.parameters.entries.filter fun entry =>
      Path.isUnder request.path request.recursive entry.1).map
    fun entry => (entry.1, entry.2.reading request.decrypt)

/-- The number of parameters before the page of a token. A token that the store did not give out is
read all the same if it is a number. -/
def offset : Option String → Except Error Nat
  | none => .ok 0
  | some token =>
    match Numeral.read Numeral.wordBound token with
    | .ok offset => .ok offset
    | .error reason => .error (.invalidPageToken token reason)

/-- Reads the page of a token. What matches is found anew for every page, so parameters that are
written between two pages shift the pages to come. -/
def getPage (request : PathRequest) (token : Option String) :
    Call Parameters (List (String × String) × Option String) := fun s =>
  match Recorder.record ("get_parameters_by_path:" ++ request.path) s.recorder with
  | (.error e, recorder) => (.error e, { s with recorder })
  | (.ok (), recorder) =>
    match offset token with
    | .error e => (.error e, { s with recorder })
    | .ok offset =>
      let page := Page.slice s.pageSize offset (s.matching request)
      (.ok (page.entries, page.next.map toString), { s with recorder })

/-- A bound on the pages from the one of a token on. Behind a token that is refused there is
none. -/
def pagesLeft (token : Option String) (s : Parameters) : Nat :=
  match offset token with
  | .ok offset => s.parameters.size - offset
  | .error _ => 0

/-- The bound falls from a page to the next one. -/
theorem pagesLeft_lt {request : PathRequest} {token : Option String} {s s' : Parameters}
    {page : List (String × String)} {next : String}
    (h : getPage request token s = (.ok (page, some next), s')) :
    pagesLeft (some next) s' < pagesLeft token s := by
  rw [getPage] at h
  split at h
  · simp at h
  · split at h
    · simp at h
    · rename_i start hstart
      simp only [Prod.mk.injEq, Except.ok.injEq, Option.map_eq_some_iff] at h
      obtain ⟨⟨-, stop, hstop, rfl⟩, rfl⟩ := h
      obtain ⟨hlt, hend⟩ := Page.lt_of_next hstop
      have hsize : (s.matching request).length ≤ s.parameters.size := by
        rw [matching, List.length_map]
        exact List.length_filter_le _ _
      simp only [pagesLeft, hstart]
      have hread : ∀ n, offset (some (toString stop)) = .ok n → n = stop := by
        intro n hn
        simp only [offset] at hn
        split at hn
        · rename_i m hm
          obtain rfl := Except.ok.inj hn
          exact Numeral.eq_of_read_toString hm
        · simp at hn
      split
      · rename_i n hn
        obtain rfl := hread n hn
        omega
      · omega

/-! ### The client -/

/-- Divides names into those that are kept and those that are not. -/
def lookUpAll (s : Parameters) (decrypt : Bool) (batch : ParametersBatch) :
    List String → ParametersBatch
  | [] => batch
  | name :: rest =>
    match s.read? name decrypt with
    | some value => s.lookUpAll decrypt { batch with found := batch.found.insert name value } rest
    | none => s.lookUpAll decrypt { batch with invalid := batch.invalid ++ [name] } rest

/-- Reads several parameters, up to a limit. -/
def getParameters (names : List String) (decrypt : Bool) : Call Parameters ParametersBatch :=
  fun s =>
    match Recorder.record ("get_parameters:" ++ ",".intercalate names) s.recorder with
    | (.error e, recorder) => (.error e, { s with recorder })
    | (.ok (), recorder) =>
      if maxBulkNames < names.length then
        (.error (.tooManyNames names.length), { s with recorder })
      else (.ok (s.lookUpAll decrypt {} names), { s with recorder })

/-- The store as the client of a parameter store. -/
def client : ParameterClient Parameters where
  getParameter name decrypt _ := getParameter name decrypt
  getByPath request _ :=
    { page := getPage request
      left := pagesLeft
      left_lt := pagesLeft_lt }
  getParameters names decrypt _ := getParameters names decrypt

end Parameters

end CachedParameters.Memory
