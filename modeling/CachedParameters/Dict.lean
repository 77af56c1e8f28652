/-!
# Dictionaries in the order of their names

A `Dict α` maps names to values and lists its entries in ascending order of the names, each name
once. The order belongs to the type, so two dictionaries that answer every look-up alike are the
same dictionary (`Dict.ext`), however they were filled. `BackendOptions`, a `BatchResult`, the open
sessions and the stores in memory are made of such dictionaries.

The operations are first given on plain lists of entries (`Entries`): a JSON document keeps
the members of an object as such a list.

## Main results

- `Dict.get?_insert`, `Dict.get?_erase`: what a look-up sees after a change;
- `Dict.ext`: a dictionary is determined by its look-ups;
- `Dict.mem_names_iff`: a name is listed exactly when its look-up succeeds.
-/

namespace CachedParameters

universe u v

/-! ### Lists of entries -/

namespace Entries

variable {α : Type u}

/-- Two names of which neither comes before the other are the same name. -/
theorem eq_of_not_lt_of_not_lt {a b : String} (h₁ : ¬ a < b) (h₂ : ¬ b < a) : a = b :=
  String.le_antisymm (String.not_lt.1 h₂) (String.not_lt.1 h₁)

/-- The names of a list of entries ascend strictly. -/
def Ascending (entries : List (String × α)) : Prop :=
  entries.Pairwise fun a b => a.1 < b.1

/-- The value of the first entry called `name`. -/
def get? (name : String) : List (String × α) → Option α
  | [] => none
  | entry :: rest => if entry.1 = name then some entry.2 else get? name rest

/-- Puts an entry where its name belongs; an entry of the same name gives way to it. -/
def insert (name : String) (value : α) : List (String × α) → List (String × α)
  | [] => [(name, value)]
  | entry :: rest =>
    if name < entry.1 then (name, value) :: entry :: rest
    else if entry.1 < name then entry :: insert name value rest
    else (name, value) :: rest

def erase (name : String) (entries : List (String × α)) : List (String × α) :=
  entries.filter fun entry => entry.1 ≠ name

/-- Whatever stands in the list after an insertion is new or stood there before. -/
theorem eq_or_mem_of_mem_insert {name : String} {value : α} {entries : List (String × α)}
    {entry : String × α} (h : entry ∈ insert name value entries) :
    entry = (name, value) ∨ entry ∈ entries := by
  induction entries with
  | nil => simpa [insert] using h
  | cons first rest ih =>
    rw [insert] at h
    split at h
    · simpa using h
    · split at h
      · rcases List.mem_cons.1 h with rfl | h
        · simp
        · rcases ih h with rfl | h <;> simp_all
      · rcases List.mem_cons.1 h with rfl | h
        · simp
        · simp [h]

theorem Ascending.insert {name : String} {value : α} {entries : List (String × α)}
    (h : Ascending entries) : Ascending (insert name value entries) := by
  induction entries with
  | nil => simp [Ascending, Entries.insert]
  | cons first rest ih =>
    obtain ⟨hfirst, hrest⟩ := List.pairwise_cons.1 h
    rw [Entries.insert]
    split
    · rename_i hlt
      refine List.pairwise_cons.2 ⟨fun entry hmem => ?_, h⟩
      rcases List.mem_cons.1 hmem with rfl | hmem
      · exact hlt
      · exact String.lt_trans hlt (hfirst entry hmem)
    · split
      · rename_i hgt
        refine List.pairwise_cons.2 ⟨fun entry hmem => ?_, ih hrest⟩
        rcases eq_or_mem_of_mem_insert hmem with rfl | hmem
        · exact hgt
        · exact hfirst entry hmem
      · rename_i hlt hgt
        have heq := eq_of_not_lt_of_not_lt hlt hgt
        subst heq
        exact List.pairwise_cons.2 ⟨hfirst, hrest⟩

theorem Ascending.erase {name : String} {entries : List (String × α)} (h : Ascending entries) :
    Ascending (erase name entries) :=
  List.Pairwise.filter _ h

theorem get?_eq_none_of_lt {name : String} {entries : List (String × α)}
    (h : ∀ entry ∈ entries, name < entry.1) : get? name entries = none := by
  induction entries with
  | nil => rfl
  | cons first rest ih =>
    have hne : first.1 ≠ name := fun he =>
      String.lt_irrefl name (he ▸ h first List.mem_cons_self)
    rw [get?, if_neg hne]
    exact ih fun entry hmem => h entry (List.mem_cons_of_mem _ hmem)

/-- After an insertion the new value answers for its name, and every other name keeps its
answer. -/
theorem get?_insert {name other : String} {value : α} {entries : List (String × α)} :
    get? other (insert name value entries) =
      if name = other then some value else get? other entries := by
  induction entries with
  | nil => simp [insert, get?]
  | cons first rest ih =>
    rw [insert]
    split
    · rfl
    · split
      · rename_i hgt
        have hne : first.1 ≠ name := fun he => String.lt_irrefl name (he ▸ hgt)
        rw [get?, get?, ih]
        by_cases h₁ : first.1 = other
        · have h₂ : name ≠ other := fun he => hne (h₁.trans he.symm)
          simp [h₁, h₂]
        · simp [h₁]
      · rename_i hlt hgt
        have heq := eq_of_not_lt_of_not_lt hlt hgt
        subst heq
        rw [get?, get?]
        split <;> rfl

/-- After an erasure the name has no answer, and every other name keeps its own. -/
theorem get?_erase {name other : String} {entries : List (String × α)} :
    get? other (erase name entries) = if name = other then none else get? other entries := by
  induction entries with
  | nil => simp [erase, get?]
  | cons first rest ih =>
    rw [erase] at ih
    by_cases h₁ : first.1 = name
    · rw [erase, List.filter_cons_of_neg (by simp [h₁]), ih, get?, h₁]
      split <;> rfl
    · rw [erase, List.filter_cons_of_pos (by simp [h₁]), get?, get?, ih]
      by_cases h₂ : first.1 = other
      · have h₃ : name ≠ other := fun he => h₁ (h₂.trans he.symm)
        simp [h₂, h₃]
      · simp [h₂]

/-- An entry that is looked up successfully stands in the list. -/
theorem mem_of_get? {name : String} {value : α} {entries : List (String × α)}
    (h : get? name entries = some value) : (name, value) ∈ entries := by
  induction entries with
  | nil => simp [get?] at h
  | cons first rest ih =>
    rw [get?] at h
    split at h
    · rename_i heq
      obtain rfl := Option.some.inj h
      exact List.mem_cons.2 (Or.inl (by rw [← heq]))
    · exact List.mem_cons_of_mem _ (ih h)

/-- In ascending order every entry is the one that its name finds. -/
theorem Ascending.get?_of_mem {name : String} {value : α} {entries : List (String × α)}
    (h : Ascending entries) (hmem : (name, value) ∈ entries) :
    get? name entries = some value := by
  induction entries with
  | nil => simp at hmem
  | cons first rest ih =>
    obtain ⟨hfirst, hrest⟩ := List.pairwise_cons.1 h
    rcases List.mem_cons.1 hmem with rfl | hmem
    · simp [get?]
    · have hne : first.1 ≠ name := fun he =>
        String.lt_irrefl name (by simpa [he] using hfirst _ hmem)
      rw [get?, if_neg hne]
      exact ih hrest hmem

/-- Ascending lists of entries with the same look-ups are the same list. -/
theorem Ascending.ext {entries others : List (String × α)} (h₁ : Ascending entries)
    (h₂ : Ascending others) (h : ∀ name, get? name entries = get? name others) :
    entries = others := by
  induction entries generalizing others with
  | nil =>
    cases others with
    | nil => rfl
    | cons other rest => simpa [get?] using h other.1
  | cons first rest ih =>
    obtain ⟨hfirst, hrest⟩ := List.pairwise_cons.1 h₁
    cases others with
    | nil => simpa [get?] using h first.1
    | cons other tail =>
      obtain ⟨hother, htail⟩ := List.pairwise_cons.1 h₂
      have hf := h first.1
      have ho := h other.1
      rw [get?, if_pos rfl, get?] at hf
      rw [get?, get?, if_pos rfl] at ho
      have hname : first.1 = other.1 := by
        by_cases he : other.1 = first.1
        · exact he.symm
        · rw [if_neg he] at hf
          rw [if_neg fun he' => he he'.symm] at ho
          have h₃ := hother _ (mem_of_get? hf.symm)
          have h₄ := hfirst _ (mem_of_get? ho)
          exact absurd (String.lt_trans h₃ h₄) (String.lt_irrefl _)
      have hvalue : first.2 = other.2 := by
        rw [if_pos hname.symm] at hf
        exact Option.some.inj hf
      have heq : first = other := Prod.ext hname hvalue
      subst heq
      congr 1
      refine ih hrest htail fun name => ?_
      by_cases he : first.1 = name
      · subst he
        rw [get?_eq_none_of_lt hfirst, get?_eq_none_of_lt hother]
      · have := h name
        rwa [get?, get?, if_neg he, if_neg he] at this

end Entries

/-! ### Dictionaries -/

/-- A finite map from names to values, its entries in ascending order of the names. -/
structure Dict (α : Type u) where
  /-- The entries, each name once. -/
  entries : List (String × α)
  /-- The names ascend strictly. -/
  ascending : Entries.Ascending entries

namespace Dict

variable {α : Type u} {β : Type v}

def empty : Dict α := ⟨[], List.Pairwise.nil⟩

instance : Inhabited (Dict α) := ⟨empty⟩

/-- The value of `name`, if it has one. -/
def get? (d : Dict α) (name : String) : Option α := Entries.get? name d.entries

def contains (d : Dict α) (name : String) : Bool := (d.get? name).isSome

/-- Gives `name` the value `value`, in place of the one it had. -/
def insert (d : Dict α) (name : String) (value : α) : Dict α :=
  ⟨Entries.insert name value d.entries, d.ascending.insert⟩

def erase (d : Dict α) (name : String) : Dict α :=
  ⟨Entries.erase name d.entries, d.ascending.erase⟩

/-- Inserts the entries of a list from left to right, so the last one of a name stays. -/
def insertAll (d : Dict α) (entries : List (String × α)) : Dict α :=
  entries.foldl (fun d entry => d.insert entry.1 entry.2) d

/-- The dictionary of a list of entries; the last one of a name stays. -/
def ofList (entries : List (String × α)) : Dict α := empty.insertAll entries

def size (d : Dict α) : Nat := d.entries.length

/-- The names in ascending order. -/
def names (d : Dict α) : List String := d.entries.map (·.1)

/-- Applies `f` to every name and its value. -/
def mapEntries (f : String → α → β) (d : Dict α) : Dict β :=
  ⟨d.entries.map fun entry => (entry.1, f entry.1 entry.2), by
    have h := d.ascending
    simp only [Entries.Ascending, List.pairwise_map] at h ⊢
    exact h⟩

instance [DecidableEq α] : DecidableEq (Dict α) := fun a b =>
  if h : a.entries = b.entries then
    .isTrue (by cases a; cases b; simp_all)
  else
    .isFalse fun he => h (he ▸ rfl)

/-! ### Look-ups -/

@[simp] theorem get?_empty (name : String) : (empty : Dict α).get? name = none := rfl

/-- After an insertion the new value answers for its name, and every other name keeps its
answer. -/
theorem get?_insert (d : Dict α) (name other : String) (value : α) :
    (d.insert name value).get? other = if name = other then some value else d.get? other :=
  Entries.get?_insert

/-- After an erasure the name has no answer, and every other name keeps its own. -/
theorem get?_erase (d : Dict α) (name other : String) :
    (d.erase name).get? other = if name = other then none else d.get? other :=
  Entries.get?_erase

/-- A dictionary is determined by its look-ups, since the entries stand in the order of their
names. -/
theorem ext {a b : Dict α} (h : ∀ name, a.get? name = b.get? name) : a = b := by
  have he := a.ascending.ext b.ascending h
  cases a; cases b; simp_all

/-- The entries of a dictionary are the pairs that its look-ups answer. -/
theorem mem_entries_iff {d : Dict α} {name : String} {value : α} :
    (name, value) ∈ d.entries ↔ d.get? name = some value :=
  ⟨d.ascending.get?_of_mem, Entries.mem_of_get?⟩

/-- A name is listed exactly when its look-up succeeds. -/
theorem mem_names_iff {d : Dict α} {name : String} :
    name ∈ d.names ↔ ∃ value, d.get? name = some value := by
  simp only [names, List.mem_map, ← mem_entries_iff]
  constructor
  · rintro ⟨⟨_, value⟩, hmem, rfl⟩
    exact ⟨value, hmem⟩
  · rintro ⟨value, hmem⟩
    exact ⟨(name, value), hmem, rfl⟩

end Dict

end CachedParameters
