import CachedParameters.Proofs.Memory.Steady
import CachedParameters.Proofs.Memory.Truthful
import CachedParameters.Proofs.Store.Pages
import CachedParameters.Proofs.Text.Relative

/-!
# Listings of the parameter store in memory

The parameter store in memory (`FakeParameterStore`) gives a listing out in pages. The token of a
page is its offset in decimal digits, which a later call has to read back, so the listing ends only
because every offset that was printed is read as itself and lies behind the one before. As long as
no call is made to fail, the size of the pages shows in the calls and nowhere else:
`Memory.Parameters.listsInPages`.

## Main results

- `Memory.Parameters.serves`: the store serves the pages of the parameters under a path.
- `ParameterStore.fetchMany_eq`: a listing holds the parameters under its path, and takes one call
  for each page.
- `Memory.Parameters.listsInPages`: the size of the pages does not change a listing, no token is
  refused, and no offset overflows a machine word.
-/

namespace CachedParameters

/-! ### Watched clients -/

/-- The client, the pages of its listings written down. -/
def ParameterClient.watched {κ : Type} (client : ParameterClient κ) :
    ParameterClient (Pager.Visited κ String (List (String × String))) where
  getParameter name decrypt options s :=
    ((client.getParameter name decrypt options s.backend).1,
      { s with backend := (client.getParameter name decrypt options s.backend).2 })
  getByPath request options := (client.getByPath request options).watched
  getParameters names decrypt options s :=
    ((client.getParameters names decrypt options s.backend).1,
      { s with backend := (client.getParameters names decrypt options s.backend).2 })

namespace ParameterStore

variable {κ : Type}

/-- The store, the pages of its listings written down. -/
def watched (store : ParameterStore κ) :
    ParameterStore (Pager.Visited κ String (List (String × String))) where
  client := store.client.watched
  defaultDecrypt := store.defaultDecrypt

/-- Being watched changes no listing. -/
theorem fetchMany_watched (store : ParameterStore κ) (path : String) (options : BackendOptions)
    (s : Pager.Visited κ String (List (String × String))) :
    store.fetchMany path options s.backend =
      ((store.watched.fetchMany path options s).1,
        (store.watched.fetchMany path options s).2.backend) :=
  Pager.fold_watched _ _ _ _ s

/-! ### Pages of parameters -/

theorem addPage_append (path : String) (listing : Listing) (front back : List (String × String)) :
    addPage path listing (front ++ back) = addPage path (addPage path listing front) back :=
  List.foldl_append

end ParameterStore

namespace Memory.Parameters

/-- The parameters under a path, in the order of their names. -/
def under (s : Parameters) (path : String) (recursive : Bool) :
    List (String × StoredParameter) :=
  s.parameters.entries.filter fun entry => Path.Under path recursive entry.1

/-- A request is matched by what is read of the parameters under its path. -/
theorem matching_eq (s : Parameters) (request : PathRequest) :
    s.matching request = (s.under request.path request.recursive).map
      fun entry => (entry.1, entry.2.reading request.decrypt) := by
  have hunder : ∀ entry : String × StoredParameter,
      Path.isUnder request.path request.recursive entry.1 =
        decide (Path.Under request.path request.recursive entry.1) := fun entry => by
    rw [Bool.eq_iff_iff, Path.isUnder_iff, decide_eq_true_iff]
  simp only [matching, under, hunder]

/-- The store after pages of a path were asked for. -/
def asked (s : Parameters) (path : String) (pages : ℕ) : Parameters :=
  { s with recorder :=
      { s.recorder with
        calls := s.recorder.calls ++
          List.replicate pages ("get_parameters_by_path:" ++ path) } }

/-- A token that was printed for an offset is read as this offset. -/
theorem offset_askedAt {start : ℕ} (h : start < Numeral.wordBound) :
    offset (Pager.askedAt toString start) = .ok start := by
  rw [Pager.askedAt]
  split
  · rename_i hfirst
    rw [hfirst, offset]
  · simp only [offset, Numeral.read_toString h]

/-- **The store serves the pages of the parameters under a path**, as long as no call is made to
fail and their number fits into a machine word. -/
theorem serves (request : PathRequest) (options : BackendOptions) (s : Parameters)
    (hword : (s.matching request).length ≤ Numeral.wordBound) :
    Pager.Serves (client.getByPath request options) s.pageSize (s.matching request) toString
      (fun later => ∃ pages, later = s.asked request.path pages ∧ s.recorder.Calm)
      fun _ later => later.asked request.path 1 where
  keeps _ later := by
    rintro ⟨pages, rfl, hcalm⟩
    refine ⟨pages + 1, ?_, hcalm⟩
    simp only [asked, List.append_assoc, List.replicate_append_replicate]
  page start later := by
    rintro ⟨pages, rfl, hcalm⟩ hstart
    have hoffset : offset (Pager.askedAt toString start) = .ok start := by
      refine offset_askedAt ?_
      rcases hstart with rfl | hlt
      · decide
      · exact lt_of_lt_of_le hlt hword
    have hrecord : Recorder.record ("get_parameters_by_path:" ++ request.path)
        (s.asked request.path pages).recorder =
        (.ok (), ((s.asked request.path pages).asked request.path 1).recorder) := by
      rw [Recorder.record, asked, hcalm, if_neg Bool.false_ne_true]
      rfl
    have hmatching : (s.asked request.path pages).matching request = s.matching request := rfl
    simp only [client, getPage, hrecord, hoffset, hmatching, Pager.answerAt]
    rfl

/-- Pages that are asked for one after another are recorded one after another. -/
theorem foldl_asked (s : Parameters) (path : String) (offsets : List ℕ) :
    offsets.foldl (fun later _ => later.asked path 1) s = s.asked path offsets.length := by
  induction offsets generalizing s with
  | nil => simp [asked]
  | cons first rest ih =>
      rw [List.foldl_cons, ih, List.length_cons, Nat.add_comm]
      simp only [asked, List.append_assoc, List.replicate_append_replicate]

end Memory.Parameters

/-! ### Listings -/

namespace ParameterStore

open Memory (Page)

/-- What a listing of a path holds: the parameters under the path, each under its name relative to
the path, as it is read with or without decryption. -/
def listing (store : ParameterStore Memory.Parameters) (path : String) (options : BackendOptions)
    (s : Memory.Parameters) : Listing :=
  .ofList <| (s.under path (descends options)).map fun entry =>
    (Path.relative path entry.1, .text (entry.2.reading (store.decrypts options)))

/-- The parameters of a page are inserted one by one. -/
theorem addPage_map (path : String) (listing : Listing) (decrypt : Bool)
    (entries : List (String × Memory.StoredParameter)) :
    addPage path listing (entries.map fun entry => (entry.1, entry.2.reading decrypt)) =
      listing.insertAll (entries.map fun entry =>
        (Path.relative path entry.1, .text (entry.2.reading decrypt))) := by
  rw [addPage, Dict.insertAll, List.foldl_map, List.foldl_map]

/-- The pages that a listing asks for, with the answers. -/
def visits (store : ParameterStore Memory.Parameters) (path : String) (options : BackendOptions)
    (s : Memory.Parameters) : List (Pager.Visit String (List (String × String))) :=
  (store.watched.fetchMany path options ⟨s, []⟩).2.visits

/-- A listing that is watched holds the parameters under its path, and every page of them is asked
for once, in order. -/
theorem fetchMany_watched_eq (defaultDecrypt : Bool) (path : String) (options : BackendOptions)
    (s : Memory.Parameters) (hcalm : s.recorder.Calm)
    (hword : (s.under path (descends options)).length ≤ Numeral.wordBound) :
    let store : ParameterStore Memory.Parameters := ⟨Memory.Parameters.client, defaultDecrypt⟩
    let request : PathRequest := ⟨path, descends options, store.decrypts options⟩
    let offsets := Page.offsets s.pageSize 0 (s.matching request).length
    store.watched.fetchMany path options ⟨s, []⟩ =
      (.ok (store.listing path options s),
        ⟨s.asked path offsets.length,
          offsets.map (Pager.visitAt s.pageSize (s.matching request) toString)⟩) := by
  intro store request offsets
  have hmatching : (s.matching request).length = (s.under path (descends options)).length := by
    rw [Memory.Parameters.matching_eq, List.length_map]
  have hserves := (Memory.Parameters.serves request options s (hmatching ▸ hword)).watched
  obtain ⟨houtcome, hafter⟩ := hserves.fold
    (fun listing page => .ok (addPage path listing page))
    (fun sum front back => congrArg Except.ok (addPage_append path sum front back))
    (.inl rfl) .empty ⟨s, []⟩ ⟨0, by simp [Memory.Parameters.asked], hcalm⟩
  have hlisting : addPage path .empty ((s.matching request).drop 0) =
      store.listing path options s := by
    rw [List.drop_zero, Memory.Parameters.matching_eq, addPage_map]
    rfl
  rw [hlisting] at houtcome hafter
  have hvisits := Pager.foldl_visits (fun _ later => Memory.Parameters.asked later path 1)
    (Pager.visitAt s.pageSize (s.matching request) toString) offsets ⟨s, []⟩
  rw [Memory.Parameters.foldl_asked] at hvisits
  exact Prod.ext houtcome ((hafter _ rfl).trans hvisits)

/-- A listing asks for each page once, in order. -/
theorem visits_eq (defaultDecrypt : Bool) (path : String) (options : BackendOptions)
    (s : Memory.Parameters) (hcalm : s.recorder.Calm)
    (hword : (s.under path (descends options)).length ≤ Numeral.wordBound) :
    let store : ParameterStore Memory.Parameters := ⟨Memory.Parameters.client, defaultDecrypt⟩
    let request : PathRequest := ⟨path, descends options, store.decrypts options⟩
    store.visits path options s =
      (Page.offsets s.pageSize 0 (s.matching request).length).map
        (Pager.visitAt s.pageSize (s.matching request) toString) := by
  intro store request
  rw [visits, fetchMany_watched_eq defaultDecrypt path options s hcalm hword]

/-- **A listing holds the parameters under its path, and takes one call for each page.** -/
theorem fetchMany_eq (defaultDecrypt : Bool) (path : String) (options : BackendOptions)
    (s : Memory.Parameters) (hcalm : s.recorder.Calm)
    (hword : (s.under path (descends options)).length ≤ Numeral.wordBound) :
    let store : ParameterStore Memory.Parameters := ⟨Memory.Parameters.client, defaultDecrypt⟩
    store.fetchMany path options s =
      (.ok (store.listing path options s),
        s.asked path (Page.count s.pageSize (s.under path (descends options)).length)) := by
  intro store
  rw [fetchMany_watched store path options ⟨s, []⟩,
    fetchMany_watched_eq defaultDecrypt path options s hcalm hword]
  dsimp only
  rw [Page.offsets, List.length_map, List.length_range, Memory.Parameters.matching_eq,
    List.length_map]

end ParameterStore

/-! ### The size of the pages -/

namespace Memory.Parameters

/-- What it takes to list a path in pages of `pageSize` parameters, of at least one if it is zero.
What is listed does not depend on it. -/
structure ListsInPages (store : ParameterStore Parameters) (path : String)
    (options : BackendOptions) (s : Parameters) (pageSize : ℕ) : Prop where
  /-- The parameters under the path are listed. -/
  listed : (store.fetchMany path options (s.withPageSize pageSize)).1 =
    .ok (store.listing path options s)
  /-- One call is made for each page, and one if there is nothing to list. Nothing else happens. -/
  after : (store.fetchMany path options (s.withPageSize pageSize)).2 =
    (s.withPageSize pageSize).asked path
      (max 1 ((s.under path (ParameterStore.descends options)).length ⌈/⌉ max pageSize 1))
  /-- The first page is asked for without a token, every other one with its offset in digits. -/
  tokens : (store.visits path options (s.withPageSize pageSize)).map (·.token) =
    (List.range (max 1
        ((s.under path (ParameterStore.descends options)).length ⌈/⌉ max pageSize 1))).map
      fun k => if k = 0 then none else some (toString (k * max pageSize 1))
  /-- No token is refused: each is read as an offset, which does not overflow a machine word when a
  page is added to it. -/
  answered : ∀ visit ∈ store.visits path options (s.withPageSize pageSize),
    ∃ start, offset visit.token = .ok start ∧ start + max pageSize 1 < Numeral.wordBound ∧
      ∃ answer, visit.answer = .ok answer

/-- **The size of the pages does not change a listing.** -/
theorem listsInPages (defaultDecrypt : Bool) (path : String) (options : BackendOptions)
    (s : Parameters) (pageSize : ℕ) (hcalm : s.recorder.Calm)
    (hpage : pageSize < Numeral.wordBound) (hsize : s.parameters.size < 2 ^ 63) :
    ListsInPages ⟨client, defaultDecrypt⟩ path options s pageSize := by
  have hnumber : (s.under path (ParameterStore.descends options)).length < 2 ^ 63 :=
    lt_of_le_of_lt (List.length_filter_le _ _) hsize
  have hword : (s.under path (ParameterStore.descends options)).length ≤ Numeral.wordBound :=
    le_trans hnumber.le (by decide)
  constructor
  case listed =>
    rw [ParameterStore.fetchMany_eq defaultDecrypt path options (s.withPageSize pageSize) hcalm
      hword]
    rfl
  case after =>
    rw [ParameterStore.fetchMany_eq defaultDecrypt path options (s.withPageSize pageSize) hcalm
      hword]
    rfl
  case tokens =>
    rw [ParameterStore.visits_eq defaultDecrypt path options (s.withPageSize pageSize) hcalm hword,
      matching_eq, List.length_map, Page.offsets, List.map_map, List.map_map]
    exact List.map_congr_left fun k _ => Pager.askedAt_mul toString (.ofNat pageSize) k
  case answered =>
    intro visit hvisit
    rw [ParameterStore.visits_eq defaultDecrypt path options (s.withPageSize pageSize) hcalm
      hword] at hvisit
    obtain ⟨start, hstart, rfl⟩ := List.mem_map.mp hvisit
    have hends := Page.eq_or_le_and_lt_of_mem_offsets hstart
    rw [matching_eq, List.length_map] at hends
    have hbound : start + max pageSize 1 < Numeral.wordBound := by
      rcases hends with rfl | ⟨hle, hlt⟩
      · rw [Nat.zero_add]
        exact max_lt hpage (by decide)
      · have hlt : start < 2 ^ 63 := lt_trans hlt hnumber
        have hle : max pageSize 1 ≤ start := hle
        rw [Numeral.wordBound]
        omega
    exact ⟨start, offset_askedAt (lt_of_le_of_lt (Nat.le_add_right _ _) hbound), hbound, _, rfl⟩

/-- Three parameters under a path are listed in two pages of two. -/
theorem listsInPages_three_by_two :
    let s := (((put {} "/app/a" "1" false).put "/app/b/c" "2" true).put "/app/d" "3" true).put
      "/apple" "4" false
    let options : BackendOptions := .ofList [(BackendOptions.recursiveKey, .bool true)]
    s.recorder.Calm ∧ 2 < Numeral.wordBound ∧ s.parameters.size < 2 ^ 63 ∧
      (s.under "/app//" true).map (·.1) = ["/app/a", "/app/b/c", "/app/d"] ∧
      ListsInPages ⟨client, false⟩ "/app//" options s 2 := by
  intro s options
  have hcalm : s.recorder.Calm := fun _ => rfl
  have hpage : 2 < Numeral.wordBound := by decide
  have hsize : s.parameters.size < 2 ^ 63 := by decide
  exact ⟨hcalm, hpage, hsize, by decide, listsInPages false "/app//" options s 2 hcalm hpage hsize⟩

end Memory.Parameters

end CachedParameters
