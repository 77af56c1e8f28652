import CachedParameters.Document
import CachedParameters.Proofs.Dict

/-!
# Documents in order

The members of an object may be written in any order, and one name more than once. What is read is
the document sorted: the members ascend by name, and the last one of each name stays. Sorting an
object makes a dictionary of its members, so what is looked up in it was written somewhere, and the
order of writing does not matter where the names differ.

## Main definitions

- `Exact`: a document whose numbers are whole and fit a word, in whatever order its members are.
- `sorted`: the document with the members of its objects in order.

## Main results

- `sorted_of_wellFormed`: in a well-formed document the members are in order already.
- `sorted_object`: an object sorted is the dictionary of its members.
-/

namespace CachedParameters.Document

/-! ### Documents without reals -/

mutual

/-- There is no real number in the document. -/
def RealFree : Document → Prop
  | .real _ => False
  | .list elements => RealFreeElements elements
  | .object members => RealFreeMembers members
  | _ => True

/-- There is no real number in the elements. -/
def RealFreeElements : List Document → Prop
  | [] => True
  | element :: rest => RealFree element ∧ RealFreeElements rest

/-- There is no real number in the members. -/
def RealFreeMembers : List (String × Document) → Prop
  | [] => True
  | (_, value) :: rest => RealFree value ∧ RealFreeMembers rest

end

mutual

/-- The numbers in the document are whole and fit a signed or an unsigned word of 64 bits. -/
def Exact : Document → Prop
  | .integer value => -0x8000000000000000 ≤ value ∧ value < 0x10000000000000000
  | .real _ => False
  | .list elements => ExactElements elements
  | .object members => ExactMembers members
  | _ => True

/-- The numbers in the elements are whole and fit a word. -/
def ExactElements : List Document → Prop
  | [] => True
  | element :: rest => Exact element ∧ ExactElements rest

/-- The numbers in the members are whole and fit a word. -/
def ExactMembers : List (String × Document) → Prop
  | [] => True
  | (_, value) :: rest => Exact value ∧ ExactMembers rest

end

mutual

/-- The numbers in a well-formed document without reals are whole and fit a word. -/
theorem exact_of_wellFormed (d : Document) (hd : WellFormed d) (hreal : RealFree d) : Exact d := by
  match d with
  | .null | .bool _ | .text _ => exact trivial
  | .integer n => exact hd
  | .real x => exact hreal
  | .list elements =>
      rw [WellFormed] at hd
      rw [RealFree] at hreal
      rw [Exact]
      exact exactElements_of_wellFormed elements hd hreal
  | .object members =>
      rw [WellFormed] at hd
      rw [RealFree] at hreal
      rw [Exact]
      exact exactMembers_of_wellFormed members hd.2 hreal

theorem exactElements_of_wellFormed (elements : List Document) (hd : WellFormedElements elements)
    (hreal : RealFreeElements elements) : ExactElements elements := by
  match elements with
  | [] => exact trivial
  | element :: rest =>
      rw [WellFormedElements] at hd
      rw [RealFreeElements] at hreal
      exact ⟨exact_of_wellFormed element hd.1 hreal.1,
        exactElements_of_wellFormed rest hd.2 hreal.2⟩

theorem exactMembers_of_wellFormed (members : List (String × Document))
    (hd : WellFormedMembers members) (hreal : RealFreeMembers members) : ExactMembers members := by
  match members with
  | [] => exact trivial
  | (_, value) :: rest =>
      rw [WellFormedMembers] at hd
      rw [RealFreeMembers] at hreal
      exact ⟨exact_of_wellFormed value hd.1 hreal.1, exactMembers_of_wellFormed rest hd.2 hreal.2⟩

end

/-! ### Members in order -/

mutual

/-- The document with the members of every object in ascending order; the last member of a name
stays. -/
def sorted : Document → Document
  | .list elements => .list (sortedElements elements)
  | .object members => .object (insertMembers [] members)
  | d => d

def sortedElements : List Document → List Document
  | [] => []
  | element :: rest => sorted element :: sortedElements rest

/-- The members inserted one after another, their documents sorted, into those before. -/
def insertMembers (before : List (String × Document)) :
    List (String × Document) → List (String × Document)
  | [] => before
  | (name, value) :: rest => insertMembers (Entries.insert name (sorted value) before) rest

end

/-- An entry with a name above all others comes last. -/
theorem insert_of_forall_lt {α : Type} {name : String} {value : α} {entries : List (String × α)}
    (h : ∀ entry ∈ entries, entry.1 < name) :
    Entries.insert name value entries = entries ++ [(name, value)] := by
  induction entries with
  | nil => rfl
  | cons entry rest ih =>
      have hfirst := h entry List.mem_cons_self
      have hnot : ¬ name < entry.1 := fun hlt =>
        String.lt_irrefl name (String.lt_trans hlt hfirst)
      rw [Entries.insert, if_neg hnot, if_pos hfirst,
        ih fun other hother => h other (List.mem_cons_of_mem entry hother), List.cons_append]

mutual

/-- In a well-formed document the members are in order already. -/
theorem sorted_of_wellFormed (d : Document) (hd : WellFormed d) : sorted d = d := by
  match d with
  | .null | .bool _ | .integer _ | .real _ | .text _ => rw [sorted] <;> simp
  | .list elements =>
      rw [WellFormed] at hd
      rw [sorted, sortedElements_of_wellFormed elements hd]
  | .object members =>
      rw [WellFormed] at hd
      rw [sorted, insertMembers_of_wellFormed members hd.2 [] hd.1, List.nil_append]

theorem sortedElements_of_wellFormed (elements : List Document)
    (hd : WellFormedElements elements) : sortedElements elements = elements := by
  match elements with
  | [] => rw [sortedElements]
  | element :: rest =>
      rw [WellFormedElements] at hd
      rw [sortedElements, sorted_of_wellFormed element hd.1,
        sortedElements_of_wellFormed rest hd.2]

/-- Members in order are inserted behind those before. -/
theorem insertMembers_of_wellFormed (members : List (String × Document))
    (hd : WellFormedMembers members) (before : List (String × Document))
    (hascending : Entries.Ascending (before ++ members)) :
    insertMembers before members = before ++ members := by
  match members with
  | [] => rw [insertMembers, List.append_nil]
  | (name, value) :: rest =>
      rw [WellFormedMembers] at hd
      have hlast : ∀ entry ∈ before, entry.1 < name := fun entry hentry =>
        (List.pairwise_append.mp hascending).2.2 entry hentry _ List.mem_cons_self
      rw [insertMembers, sorted_of_wellFormed value hd.1, insert_of_forall_lt hlast,
        insertMembers_of_wellFormed rest hd.2 _ (by rwa [List.append_assoc]), List.append_assoc]
      rfl

end

/-! ### Elements and members one by one -/

theorem sortedElements_eq_map (elements : List Document) :
    sortedElements elements = elements.map sorted := by
  induction elements with
  | nil => rfl
  | cons element rest ih => rw [sortedElements, ih, List.map_cons]

theorem sorted_list_map {α : Type*} {f : α → Document} (h : ∀ a, (f a).sorted = f a)
    (values : List α) : sorted (.list (values.map f)) = .list (values.map f) := by
  rw [sorted, sortedElements_eq_map, List.map_map]
  exact congrArg list (List.map_congr_left fun a _ => h a)

/-- The numbers in all elements are whole and fit a word if those in each element do. -/
theorem exactElements_iff {elements : List Document} :
    ExactElements elements ↔ ∀ element ∈ elements, element.Exact := by
  induction elements with
  | nil => simp [ExactElements]
  | cons element rest ih => rw [ExactElements, ih, List.forall_mem_cons]

/-- The numbers in all members are whole and fit a word if those in each member do. -/
theorem exactMembers_iff {members : List (String × Document)} :
    ExactMembers members ↔ ∀ member ∈ members, member.2.Exact := by
  induction members with
  | nil => simp [ExactMembers]
  | cons member rest ih => rw [ExactMembers, ih, List.forall_mem_cons]

/-- All elements nest no deeper than a depth if each of them does not. -/
theorem depthElements_le_iff {elements : List Document} {depth : ℕ} :
    depthElements elements ≤ depth ↔ ∀ element ∈ elements, element.depth ≤ depth := by
  induction elements with
  | nil => simp [depthElements]
  | cons element rest ih => rw [depthElements, Nat.max_le, ih, List.forall_mem_cons]

/-- All members nest no deeper than a depth if each of them does not. -/
theorem depthMembers_le_iff {members : List (String × Document)} {depth : ℕ} :
    depthMembers members ≤ depth ↔ ∀ member ∈ members, member.2.depth ≤ depth := by
  induction members with
  | nil => simp [depthMembers]
  | cons member rest ih => rw [depthMembers, Nat.max_le, ih, List.forall_mem_cons]

/-! ### Objects as dictionaries -/

/-- The dictionary of the members of an object, their documents sorted. -/
def sortedDict (members : List (String × Document)) : Dict Document :=
  .ofList (members.map fun member => (member.1, member.2.sorted))

/-- Members are inserted as into a dictionary. -/
theorem insertMembers_entries (dict : Dict Document) (members : List (String × Document)) :
    insertMembers dict.entries members =
      (dict.insertAll (members.map fun member => (member.1, member.2.sorted))).entries := by
  induction members generalizing dict with
  | nil => rfl
  | cons member rest ih =>
      rw [insertMembers, List.map_cons, Dict.insertAll_cons, ← ih]
      rfl

/-- **An object sorted is the dictionary of its members**, each of them sorted. Of members with one
name the last one stays, as it does in reading. -/
theorem sorted_object (members : List (String × Document)) :
    sorted (.object members) = ofDict (sortedDict members) := by
  rw [sorted, ofDict, sortedDict, Dict.ofList, ← insertMembers_entries]
  rfl

/-- What stands in an object sorted was written under its name. -/
theorem exists_of_mem_sortedDict {members : List (String × Document)} {name : String}
    {value : Document} (h : (name, value) ∈ (sortedDict members).entries) :
    ∃ d, (name, d) ∈ members ∧ d.sorted = value := by
  obtain ⟨front, ⟨other, d⟩, back, rfl, heq, -⟩ :=
    Dict.get?_ofList_map_eq_some_iff.mp (Dict.mem_entries_iff.mp h)
  obtain ⟨rfl, rfl⟩ := Prod.mk.inj heq
  exact ⟨d, List.mem_append_right front List.mem_cons_self, rfl⟩

theorem mem_names_sortedDict {members : List (String × Document)} {name : String} :
    name ∈ (sortedDict members).names ↔ name ∈ members.map (·.1) := by
  rw [sortedDict, Dict.mem_names_ofList, List.map_map]
  rfl

/-- If the names differ, the order of writing does not matter. -/
theorem sortedDict_eq_of_perm {members others : List (String × Document)}
    (hperm : members.Perm others) (hnames : (members.map (·.1)).Nodup) :
    sortedDict members = sortedDict others := by
  refine Dict.insertAll_eq_of_perm (hperm.map _) ?_ _
  rwa [List.map_map]

end CachedParameters.Document
