import CachedParameters.Dict
import Mathlib.Data.List.Dedup
import Mathlib.Data.List.Nodup

/-!
# More on dictionaries

What a look-up sees in a dictionary that was filled from a list or name by name, and how the names
of a dictionary are ordered.

## Main results

- `Dict.insertAll_eq_of_perm`: entries with different names are inserted in any order.
- `Dict.get?_ofList`, `Dict.get?_ofList_eq_some_iff`: of several entries with one name the last one
  answers.
- `Dict.size_ofList_eq_iff`: no entry is lost exactly when the names differ.
- `Dict.ofList_entries`: a dictionary is filled again from its own entries.
- `Dict.Gathers.get?_of_mem`: what is found name by name answers for the names.
- `Dict.names_ascending`, `Dict.names_nodup`: names ascend and are listed once.
-/

namespace CachedParameters

universe u v

variable {α : Type u} {β : Type v}

/-- A look-up in two lists goes through the first one first. -/
theorem Entries.get?_append (name : String) (front back : List (String × α)) :
    get? name (front ++ back) = (get? name front).or (get? name back) := by
  induction front with
  | nil => rfl
  | cons entry rest ih =>
      rw [List.cons_append, get?, get?, ih]
      split <;> rfl

/-- A look-up succeeds only for a name that stands in the list. -/
theorem Entries.get?_isSome_iff (name : String) (entries : List (String × α)) :
    (get? name entries).isSome = true ↔ name ∈ entries.map (·.1) := by
  induction entries with
  | nil => simp [get?]
  | cons entry rest ih =>
      rw [get?, List.map_cons, List.mem_cons]
      by_cases h : entry.1 = name
      · simp [h]
      · rw [if_neg h, ih]
        simp [Ne.symm h]

/-- A look-up finds the first entry with its name. -/
theorem Entries.get?_eq_find? (name : String) (entries : List (String × α)) :
    get? name entries = (entries.find? (·.1 = name)).map (·.2) := by
  induction entries with
  | nil => rfl
  | cons entry rest ih =>
      rw [get?, List.find?_cons]
      by_cases h : entry.1 = name
      · simp [h]
      · simp [h, ih]

/-- A look-up is answered by an entry that none of its name comes before. -/
theorem Entries.get?_eq_some_iff_append {entries : List (String × α)} {name : String} {value : α} :
    get? name entries = some value ↔
      ∃ front back, entries = front ++ (name, value) :: back ∧ name ∉ front.map (·.1) := by
  have hnames : ∀ front : List (String × α),
      (∀ entry ∈ front, (!decide (entry.1 = name)) = true) ↔ name ∉ front.map (·.1) := by
    intro front
    simp only [Bool.not_eq_true', decide_eq_false_iff_not, List.mem_map, not_exists, not_and]
  rw [get?_eq_find?, Option.map_eq_some_iff]
  constructor
  · rintro ⟨⟨found, value⟩, hfind, rfl⟩
    obtain ⟨hfound, front, back, rfl, hfront⟩ := List.find?_eq_some_iff_append.mp hfind
    obtain rfl := of_decide_eq_true hfound
    exact ⟨front, back, rfl, (hnames front).mp hfront⟩
  · rintro ⟨front, back, rfl, hfront⟩
    refine ⟨(name, value), List.find?_eq_some_iff_append.mpr ⟨decide_eq_true rfl, ?_⟩, rfl⟩
    exact ⟨front, back, rfl, (hnames front).mpr hfront⟩

namespace Dict

/-! ### Filling a dictionary -/

theorem insertAll_cons (d : Dict α) (entry : String × α) (rest : List (String × α)) :
    d.insertAll (entry :: rest) = (d.insert entry.1 entry.2).insertAll rest := rfl

/-- Entries with different names are inserted in any order, so a dictionary may be filled from a
list that is only known up to its order. -/
theorem insertAll_eq_of_perm {left right : List (String × α)} (hperm : left.Perm right)
    (hnames : (left.map (·.1)).Nodup) (d : Dict α) : d.insertAll left = d.insertAll right := by
  refine hperm.foldl_eq' (fun first hfirst second hsecond d => ?_) d
  by_cases h : first.1 = second.1
  · rw [List.inj_on_of_nodup_map hnames hfirst hsecond h]
  · refine ext fun name => ?_
    rw [get?_insert, get?_insert, get?_insert, get?_insert]
    by_cases hname : first.1 = name
    · subst hname
      rw [if_pos rfl, if_neg (Ne.symm h), if_pos rfl]
    · rw [if_neg hname, if_neg hname]

/-- Of the entries inserted for a name the last one answers. -/
theorem get?_insertAll (d : Dict α) (entries : List (String × α)) (name : String) :
    (d.insertAll entries).get? name = (Entries.get? name entries.reverse).or (d.get? name) := by
  induction entries generalizing d with
  | nil => rfl
  | cons entry rest ih =>
      rw [insertAll_cons, ih, get?_insert, List.reverse_cons, Entries.get?_append, Option.or_assoc]
      congr 1
      rw [Entries.get?]
      split <;> rfl

/-- Of several entries with one name the last one answers, since each insertion replaces the one
before. -/
theorem get?_ofList (entries : List (String × α)) (name : String) :
    (ofList entries).get? name = Entries.get? name entries.reverse := by
  rw [ofList, get?_insertAll, get?_empty, Option.or_none]

/-- A name is answered with the value of its last entry. -/
theorem get?_ofList_eq_some_iff {entries : List (String × α)} {name : String} {value : α} :
    (ofList entries).get? name = some value ↔
      ∃ front back, entries = front ++ (name, value) :: back ∧ name ∉ back.map (·.1) := by
  rw [get?_ofList, Entries.get?_eq_some_iff_append]
  constructor
  · rintro ⟨back, front, hentries, hback⟩
    refine ⟨front.reverse, back.reverse, ?_, ?_⟩
    · rw [← List.reverse_inj, hentries, List.reverse_append, List.reverse_cons,
        List.reverse_reverse, List.reverse_reverse, List.append_assoc, List.singleton_append]
    · rwa [List.map_reverse, List.mem_reverse]
  · rintro ⟨front, back, rfl, hback⟩
    refine ⟨back.reverse, front.reverse, ?_, ?_⟩
    · rw [List.reverse_append, List.reverse_cons, List.append_assoc, List.singleton_append]
    · rwa [List.map_reverse, List.mem_reverse]

/-- What is made of a list is answered as it was made of the last element with the name. -/
theorem get?_ofList_map_eq_some_iff {γ : Type*} {f : γ → String × α} {xs : List γ} {name : String}
    {value : α} :
    (ofList (xs.map f)).get? name = some value ↔
      ∃ front x back, xs = front ++ x :: back ∧ f x = (name, value) ∧
        ∀ later ∈ back, (f later).1 ≠ name := by
  have hnames : ∀ back : List γ,
      name ∉ (back.map f).map (·.1) ↔ ∀ later ∈ back, (f later).1 ≠ name := by
    intro back
    simp only [List.map_map, List.mem_map, Function.comp_apply, not_exists, not_and, ne_eq]
  rw [get?_ofList_eq_some_iff]
  constructor
  · rintro ⟨before, behind, hxs, hbehind⟩
    obtain ⟨front, rest, rfl, rfl, hrest⟩ := List.map_eq_append_iff.mp hxs
    obtain ⟨x, back, rfl, hx, rfl⟩ := List.map_eq_cons_iff.mp hrest
    exact ⟨front, x, back, rfl, hx, (hnames back).mp hbehind⟩
  · rintro ⟨front, x, back, rfl, hx, hback⟩
    refine ⟨front.map f, back.map f, ?_, (hnames back).mpr hback⟩
    rw [List.map_append, List.map_cons, hx]

/-- Names that occur once in a list find what stands there in either direction. -/
theorem get?_reverse_entries (d : Dict α) (name : String) :
    Entries.get? name d.entries.reverse = d.get? name := by
  cases hget : d.get? name with
  | some value =>
      have hmem : name ∈ d.entries.reverse.map (·.1) := by
        rw [List.map_reverse, List.mem_reverse]
        exact mem_names_iff.mpr ⟨value, hget⟩
      obtain ⟨other, hother⟩ :=
        Option.isSome_iff_exists.mp ((Entries.get?_isSome_iff _ _).mpr hmem)
      have hentry := List.mem_reverse.mp (Entries.mem_of_get? hother)
      rw [hother, ← hget, ← mem_entries_iff.mp hentry]
  | none =>
      cases hother : Entries.get? name d.entries.reverse with
      | none => rfl
      | some value =>
          have hentry := List.mem_reverse.mp (Entries.mem_of_get? hother)
          rw [mem_entries_iff, hget] at hentry
          exact absurd hentry (Option.some_ne_none value).symm

theorem ofList_entries (d : Dict α) : ofList d.entries = d :=
  ext fun name => by rw [get?_ofList, get?_reverse_entries]

/-! ### Look-ups -/

theorem contains_iff {d : Dict α} {name : String} : d.contains name = true ↔ name ∈ d.names := by
  rw [contains, mem_names_iff, Option.isSome_iff_exists]

/-- A dictionary filled from a list contains the names of the list. -/
theorem mem_names_ofList {entries : List (String × α)} {name : String} :
    name ∈ (ofList entries).names ↔ name ∈ entries.map (·.1) := by
  rw [← contains_iff, contains, get?_ofList, Entries.get?_isSome_iff, List.map_reverse,
    List.mem_reverse]

theorem get?_mapEntries (f : String → α → β) (d : Dict α) (name : String) :
    (d.mapEntries f).get? name = (d.get? name).map (f name) := by
  have hentries : ∀ entries : List (String × α),
      Entries.get? name (entries.map fun entry => (entry.1, f entry.1 entry.2)) =
        (Entries.get? name entries).map (f name) := by
    intro entries
    induction entries with
    | nil => rfl
    | cons entry rest ih =>
        rw [List.map_cons, Entries.get?, Entries.get?]
        split
        · rename_i h
          rw [← h]
          rfl
        · exact ih
  exact hentries d.entries

/-! ### Gathering values -/

/-- From one dictionary to another, the values that are found for some names were put in. -/
def Gathers (found : String → Option α) (names : List String) (before after : Dict α) : Prop :=
  ∀ name, after.get? name =
    if name ∈ names then (found name).or (before.get? name) else before.get? name

theorem Gathers.nil (found : String → Option α) (d : Dict α) : Gathers found [] d d :=
  fun _ => rfl

/-- A name that is found is put in, even if it is not found again afterwards. -/
theorem Gathers.cons_once {found later : String → Option α} {first : String} {value : α}
    {rest : List String} {before after : Dict α} (hfirst : found first = some value)
    (hagain : ∀ other, later first = some other → other = value)
    (hothers : ∀ name, first ≠ name → later name = found name)
    (hrest : Gathers later rest (before.insert first value) after) :
    Gathers found (first :: rest) before after := by
  intro name
  rw [hrest name, get?_insert]
  by_cases hname : first = name
  · subst hname
    rw [if_pos rfl, if_pos List.mem_cons_self, hfirst, Option.some_or]
    cases hlater : later first with
    | none => exact ite_self _
    | some other => rw [hagain other hlater, Option.some_or, ite_self]
  · rw [if_neg hname, hothers name hname]
    simp only [List.mem_cons, Ne.symm hname, false_or]

/-- A name that is found is put in. -/
theorem Gathers.cons_some {found : String → Option α} {first : String} {value : α}
    {rest : List String} {before after : Dict α} (hfirst : found first = some value)
    (hrest : Gathers found rest (before.insert first value) after) :
    Gathers found (first :: rest) before after := by
  refine .cons_once hfirst ?_ (fun _ _ => rfl) hrest
  intro other hother
  exact Option.some.inj (hother.symm.trans hfirst)

/-- A name that is not found changes nothing. -/
theorem Gathers.cons_none {found : String → Option α} {first : String} {rest : List String}
    {before after : Dict α} (hfirst : found first = none)
    (hrest : Gathers found rest before after) : Gathers found (first :: rest) before after := by
  intro name
  rw [hrest name]
  by_cases hname : first = name
  · subst hname
    rw [if_pos List.mem_cons_self, hfirst, Option.none_or, ite_self]
  · simp only [List.mem_cons, Ne.symm hname, false_or]

/-- What is gathered into an empty dictionary is what was found. -/
theorem Gathers.get?_of_mem {found : String → Option α} {names : List String} {d : Dict α}
    (h : Gathers found names .empty d) {name : String} (hname : name ∈ names) :
    d.get? name = found name := by
  rw [h name, if_pos hname, get?_empty, Option.or_none]

/-- What is gathered into an empty dictionary was found. -/
theorem Gathers.found_of_get? {found : String → Option α} {names : List String} {d : Dict α}
    (h : Gathers found names .empty d) {name : String} {value : α}
    (hget : d.get? name = some value) : found name = some value := by
  rw [h name] at hget
  split at hget
  · rwa [get?_empty, Option.or_none] at hget
  · cases hget

/-! ### The order of the names -/

theorem names_ascending (d : Dict α) : d.names.Pairwise (· < ·) :=
  List.pairwise_map.mpr d.ascending

theorem names_nodup (d : Dict α) : d.names.Nodup := by
  refine List.Pairwise.imp ?_ d.names_ascending
  rintro a _ hlt rfl
  exact String.lt_irrefl a hlt

/-- **No entry is lost exactly when the names differ.** The size alone tells whether one entry has
replaced another. -/
theorem size_ofList_eq_iff {entries : List (String × α)} :
    (ofList entries).size = entries.length ↔ (entries.map (·.1)).Nodup := by
  have hperm : (ofList entries).names.Perm (entries.map (·.1)).dedup := by
    rw [List.perm_ext_iff_of_nodup (names_nodup _) (List.nodup_dedup _)]
    intro name
    rw [mem_names_ofList, List.mem_dedup]
  have hsize : (ofList entries).size = (entries.map (·.1)).dedup.length := by
    rw [← hperm.length_eq, names, List.length_map, size]
  rw [hsize, ← List.dedup_eq_self]
  constructor
  · intro hlength
    refine (List.dedup_sublist _).eq_of_length ?_
    rw [hlength, List.length_map]
  · intro hdedup
    rw [hdedup, List.length_map]

end Dict

end CachedParameters
