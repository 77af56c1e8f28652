import CachedParameters.Limits
import CachedParameters.Proofs.Value.Transform

/-!
# Typed values are read back

A document stands for a value of a type if its compact text is read as the value, by the `json`
transform and then by `deserialize`. The numbers in it have to be whole and must fit a word, lists
and objects may nest as deep as the reader allows, and the document sorted must be a value of the
type, since sorted is how it is read.

Lists of counts and dictionaries of counts have one document, apart from the order of the members.
Limits have many: their fields come in any order and among any others, a burst that is none may be
left out, and the fields may stand in a list as well.

## Main definitions

- `Document.StandsFor`: the compact text of a document is read as a value of a type.
- `Limits.Spells`: the documents of a record of limits.

## Main results

- `Document.StandsFor.decoded`: the text is decoded, and what it is decoded as is the value.
- `Limits.Fits.takeAll_eq_ok`: what members are taken as, in any order and among others.
- `Limits.Spells.standsFor`: every document of a record stands for it.
- `Reading.standsFor_list`, `Reading.standsFor_dict`: lists and dictionaries of counts.
-/

namespace CachedParameters

/-! ### Documents that stand for a value -/

/-- A document stands for a value of a type: its numbers are whole and fit a word, it nests no
deeper than a text may, and sorted, it is read as the value. Sorting is what writing and reading
does to its members. -/
structure Document.StandsFor {α : Type} (reading : Reading α) (value : α) (d : Document) :
    Prop where
  exact : d.Exact
  shallow : d.depth ≤ Document.maxDepth
  read : reading d.sorted = .ok value

/-- **The text of a document that stands for a value is decoded**, and what it is decoded as is read
as the value. -/
theorem Document.StandsFor.decoded {α : Type} {reading : Reading α} {value : α} {d : Document}
    (h : d.StandsFor reading value) (name : String) :
    Transform.json.apply name (.text d.render) = .ok (.document d.sorted) ∧
      (ParameterValue.document d.sorted).read reading = .ok value := by
  have hnone : ∀ byte ∈ ([] : List UInt8), Cursor.isSpace byte = true :=
    fun byte hmem => absurd hmem List.not_mem_nil
  have hread := (read_render_sorted h.exact hnone hnone).1 h.shallow
  rw [List.nil_append, List.append_nil] at hread
  constructor
  · rw [Transform.apply_json, RawValue.toBytes, hread]
  · rw [ParameterValue.read, h.read]

/-! ### Counts, lists and dictionaries -/

/-- A count is a whole number of four bytes without a sign. -/
def IsCount (n : ℤ) : Prop := 0 ≤ n ∧ n < 2 ^ 32

instance : DecidablePred IsCount := fun n => inferInstanceAs (Decidable (0 ≤ n ∧ n < 2 ^ 32))

theorem IsCount.exact {n : ℤ} (h : IsCount n) : (Document.integer n).Exact := by
  obtain ⟨hnonneg, hlt⟩ := h
  exact ⟨by omega, by omega⟩

namespace Reading

variable {α : Type}

theorem count_integer {n : ℤ} (h : IsCount n) : count (.integer n) = .ok n := by
  obtain ⟨hnonneg, hlt⟩ := h
  exact if_pos ⟨hnonneg, by omega⟩

/-- Elements are read that are read one by one. -/
theorem elements_map {inner : Reading α} {f : α → Document} {values : List α}
    (h : ∀ value ∈ values, inner (f value) = .ok value) :
    elements inner (values.map f) = .ok values := by
  induction values with
  | nil => rfl
  | cons value rest ih =>
      obtain ⟨hvalue, hrest⟩ := List.forall_mem_cons.mp h
      rw [List.map_cons, elements, hvalue]
      dsimp only
      rw [ih hrest]

/-- Members are read that are read one by one. -/
theorem members_map {inner : Reading α} {f : α → Document} {entries : List (String × α)}
    (h : ∀ entry ∈ entries, inner (f entry.2) = .ok entry.2) :
    members inner (entries.map fun entry => (entry.1, f entry.2)) = .ok entries := by
  induction entries with
  | nil => rfl
  | cons entry rest ih =>
      obtain ⟨hentry, hrest⟩ := List.forall_mem_cons.mp h
      rw [List.map_cons, members, hentry]
      dsimp only
      rw [ih hrest]

theorem list_text (texts : List String) : list text (.list (texts.map .text)) = .ok texts :=
  elements_map fun _ _ => rfl

theorem standsFor_list {values : List ℤ} (h : ∀ value ∈ values, IsCount value) :
    (Document.list (values.map .integer)).StandsFor (list count) values where
  exact := by
    rw [Document.Exact, Document.exactElements_iff, List.forall_mem_map]
    exact fun value hmem => (h value hmem).exact
  shallow := by
    have hflat : Document.depthElements (values.map .integer) ≤ 0 := by
      rw [Document.depthElements_le_iff, List.forall_mem_map]
      exact fun value _ => le_rfl
    rw [Document.depth, Document.maxDepth]
    omega
  read := by
    rw [Document.sorted_list_map fun _ => rfl]
    exact elements_map fun value hmem => count_integer (h value hmem)

/-- A dictionary of counts is stood for by an object with its entries in any order. -/
theorem standsFor_dict {dict : Dict ℤ} (h : ∀ entry ∈ dict.entries, IsCount entry.2)
    {written : List (String × Document)}
    (hperm : written.Perm (dict.entries.map fun entry => (entry.1, .integer entry.2))) :
    (Document.object written).StandsFor (Reading.dict count) dict where
  exact := by
    rw [Document.Exact, Document.exactMembers_iff]
    intro member hmem
    obtain ⟨entry, hentry, rfl⟩ := List.mem_map.mp (hperm.mem_iff.mp hmem)
    exact (h entry hentry).exact
  shallow := by
    have hflat : Document.depthMembers written ≤ 0 := by
      rw [Document.depthMembers_le_iff]
      intro member hmem
      obtain ⟨entry, -, rfl⟩ := List.mem_map.mp (hperm.mem_iff.mp hmem)
      exact le_rfl
    rw [Document.depth, Document.maxDepth]
    omega
  read := by
    have hnames : (written.map (·.1)).Nodup := by
      rw [(hperm.map _).nodup_iff, List.map_map]
      exact dict.names_nodup
    have hsorted : Document.sortedDict written =
        dict.mapEntries fun _ n => Document.integer n := by
      rw [Document.sortedDict_eq_of_perm hperm hnames, Document.sortedDict, List.map_map]
      exact Dict.ofList_entries (dict.mapEntries fun _ n => Document.integer n)
    rw [Document.sorted_object, hsorted]
    simp only [Document.ofDict, Dict.mapEntries, Reading.dict]
    rw [members_map fun entry hmem => count_integer (h entry hmem)]
    dsimp only
    rw [Dict.ofList_entries]

end Reading

/-! ### Limits -/

namespace Limits

/-- The numbers of a record are counts: the rate, and the burst if there is any. -/
structure Fits (limits : Limits) : Prop where
  rps : IsCount limits.rps
  burst : ∀ burst ∈ limits.burst, IsCount burst

def burstDocument : Option ℤ → Document
  | some burst => .integer burst
  | none => .null

/-- The members for a burst: there is one, unless there is no burst, and then it may be left out. -/
inductive BurstMembers : Option ℤ → List (String × Document) → Prop where
  | present (burst : Option ℤ) : BurstMembers burst [("burst", burstDocument burst)]
  | absent : BurstMembers none []

def fieldNames : List String := ["rps", "burst", "regions"]

/-- The documents of a record: an object that holds the fields in any order, and any others, as deep
as a text may nest, or a list that holds the three fields in their order. -/
inductive Spells (limits : Limits) : Document → Prop where
  | object {members burst others : List (String × Document)} :
      members.Perm (("rps", .integer limits.rps) ::
        ("regions", .list (limits.regions.map .text)) :: (burst ++ others)) →
      BurstMembers limits.burst burst →
      (∀ other ∈ others, other.1 ∉ fieldNames ∧ other.2.Exact) →
      (Document.object members).depth ≤ Document.maxDepth →
      Spells limits (.object members)
  | list : Spells limits (.list
      [.integer limits.rps, burstDocument limits.burst, .list (limits.regions.map .text)])

/-! #### Members of an object -/

/-- Among some members, those with the name of a field say what the record does. -/
structure Agrees (limits : Limits) (members : List (String × Document)) : Prop where
  rps : ∀ d, ("rps", d) ∈ members → d = .integer limits.rps
  burst : ∀ d, ("burst", d) ∈ members → d = burstDocument limits.burst
  regions : ∀ d, ("regions", d) ∈ members → d = .list (limits.regions.map .text)

/-- Fields with those of a record in the place of the ones that are named. -/
def Fields.filled (fields : Fields) (limits : Limits) (names : List String) : Fields where
  rps := if "rps" ∈ names then some limits.rps else fields.rps
  burst := if "burst" ∈ names then limits.burst else fields.burst
  regions := if "regions" ∈ names then some limits.regions else fields.regions

variable {limits : Limits}

theorem Fits.read_burst (h : limits.Fits) :
    Reading.optional .count (burstDocument limits.burst) = .ok limits.burst := by
  cases hburst : limits.burst with
  | none => rfl
  | some burst =>
      rw [burstDocument, Reading.optional, Reading.count_integer (h.burst burst hburst)]
      exact fun hnull => Document.noConfusion hnull

/-- A member that agrees with a record is taken. -/
theorem Fits.take_eq_ok (h : limits.Fits) (fields : Fields) {name : String} {d : Document}
    (hrps : name = "rps" → d = .integer limits.rps)
    (hburst : name = "burst" → d = burstDocument limits.burst)
    (hregions : name = "regions" → d = .list (limits.regions.map .text)) :
    fields.take name d = .ok (fields.filled limits [name]) := by
  rw [Fields.take]
  split_ifs with hfirst hsecond hthird
  · rw [hrps hfirst, Reading.count_integer h.rps]
    subst hfirst
    rfl
  · rw [hburst hsecond, h.read_burst]
    subst hsecond
    rfl
  · rw [hregions hthird, Reading.list_text]
    subst hthird
    rfl
  · simp only [Fields.filled, List.mem_singleton, Ne.symm hfirst, Ne.symm hsecond, Ne.symm hthird,
      if_false]

theorem Fields.filled_filled (fields : Fields) (limits : Limits) (name : String)
    (rest : List String) :
    (fields.filled limits [name]).filled limits rest = fields.filled limits (name :: rest) := by
  have hor {α : Type} (p q : Prop) [Decidable p] [Decidable q] (a b : α) :
      (if q then a else if p then a else b) = if p ∨ q then a else b := by
    by_cases hp : p <;> simp [hp]
  simp only [filled, List.mem_cons, List.not_mem_nil, or_false, hor]

/-- **Members that agree with a record are taken**, in any order and among any others. -/
theorem Fits.takeAll_eq_ok (h : limits.Fits) {members : List (String × Document)}
    (hmembers : limits.Agrees members) (fields : Fields) :
    fields.takeAll members = .ok (fields.filled limits (members.map (·.1))) := by
  induction members generalizing fields with
  | nil => rfl
  | cons member rest ih =>
      obtain ⟨name, d⟩ := member
      have hrest : limits.Agrees rest :=
        ⟨fun d hmem => hmembers.rps d (List.mem_cons_of_mem _ hmem),
          fun d hmem => hmembers.burst d (List.mem_cons_of_mem _ hmem),
          fun d hmem => hmembers.regions d (List.mem_cons_of_mem _ hmem)⟩
      have hfirst : fields.take name d = .ok (fields.filled limits [name]) := by
        refine h.take_eq_ok fields ?_ ?_ ?_
        · rintro rfl
          exact hmembers.rps d List.mem_cons_self
        · rintro rfl
          exact hmembers.burst d List.mem_cons_self
        · rintro rfl
          exact hmembers.regions d List.mem_cons_self
      rw [Fields.takeAll, hfirst]
      dsimp only
      rw [ih hrest, Fields.filled_filled, List.map_cons]

/-- Where every field is named that there has to be, the record is complete. -/
theorem Fields.finish_filled {names : List String} (hrps : "rps" ∈ names)
    (hregions : "regions" ∈ names) (hburst : "burst" ∈ names ∨ limits.burst = none) :
    (Fields.filled {} limits names).finish = .ok limits := by
  have hsame : (if "burst" ∈ names then limits.burst else none) = limits.burst := by
    split_ifs with hnamed
    · rfl
    · exact (hburst.resolve_left hnamed).symm
  simp only [filled, finish, if_pos hrps, if_pos hregions, hsame]

/-! #### All documents of a record -/

theorem sorted_burstDocument (burst : Option ℤ) :
    (burstDocument burst).sorted = burstDocument burst := by
  cases burst <;> rfl

theorem depth_burstDocument (burst : Option ℤ) : (burstDocument burst).depth = 0 := by
  cases burst <;> rfl

theorem Fits.exact_burst (h : limits.Fits) : (burstDocument limits.burst).Exact := by
  cases hburst : limits.burst with
  | none => exact trivial
  | some burst => exact (h.burst burst hburst).exact

theorem exact_regions (regions : List String) : (Document.list (regions.map .text)).Exact := by
  rw [Document.Exact, Document.exactElements_iff, List.forall_mem_map]
  exact fun _ _ => trivial

theorem sorted_regions (regions : List String) :
    (Document.list (regions.map .text)).sorted = .list (regions.map .text) :=
  Document.sorted_list_map (fun _ => rfl) regions

theorem depthElements_regions (regions : List String) :
    Document.depthElements (regions.map .text) = 0 := by
  rw [← Nat.le_zero, Document.depthElements_le_iff, List.forall_mem_map]
  exact fun _ _ => le_rfl

/-- A member for a burst is the one that says the burst. -/
theorem BurstMembers.eq_of_mem {burst : Option ℤ} {members : List (String × Document)}
    (h : BurstMembers burst members) {member : String × Document} (hmem : member ∈ members) :
    member = ("burst", burstDocument burst) := by
  cases h with
  | present => exact List.mem_singleton.mp hmem
  | absent => exact absurd hmem List.not_mem_nil

/-- There is a member for a burst that is not none. -/
theorem BurstMembers.named {burst : Option ℤ} {members : List (String × Document)}
    (h : BurstMembers burst members) : "burst" ∈ members.map (·.1) ∨ burst = none := by
  cases h with
  | present => exact .inl List.mem_cons_self
  | absent => exact .inr rfl

/-- Sorting leaves members in agreement with a record. -/
theorem Agrees.sorted {members : List (String × Document)} (h : limits.Agrees members) :
    limits.Agrees (Document.sortedDict members).entries where
  rps d hmem := by
    obtain ⟨written, hwritten, rfl⟩ := Document.exists_of_mem_sortedDict hmem
    rw [h.rps written hwritten]
    rfl
  burst d hmem := by
    obtain ⟨written, hwritten, rfl⟩ := Document.exists_of_mem_sortedDict hmem
    rw [h.burst written hwritten, sorted_burstDocument]
  regions d hmem := by
    obtain ⟨written, hwritten, rfl⟩ := Document.exists_of_mem_sortedDict hmem
    rw [h.regions written hwritten, sorted_regions]

section Written

variable {members burst others : List (String × Document)}
  (hperm : members.Perm (("rps", .integer limits.rps) ::
    ("regions", .list (limits.regions.map .text)) :: (burst ++ others)))
  (hburst : BurstMembers limits.burst burst)
  (hothers : ∀ other ∈ others, other.1 ∉ fieldNames ∧ other.2.Exact)

include hperm hburst hothers

/-- A member of an object that is written for a record is a field or another one. -/
theorem mem_written {name : String} {d : Document} (hmem : (name, d) ∈ members) :
    name = "rps" ∧ d = .integer limits.rps ∨
      name = "regions" ∧ d = .list (limits.regions.map .text) ∨
      name = "burst" ∧ d = burstDocument limits.burst ∨
      name ∉ fieldNames ∧ d.Exact := by
  have hwritten := hperm.mem_iff.mp hmem
  simp only [List.mem_cons, List.mem_append, Prod.mk.injEq] at hwritten
  rcases hwritten with hrps | hregions | hburstMember | hother
  · exact .inl hrps
  · exact .inr (.inl hregions)
  · exact .inr (.inr (.inl (Prod.mk.inj (hburst.eq_of_mem hburstMember))))
  · exact .inr (.inr (.inr (hothers _ hother)))

/-- The members of an object that is written for a record agree with it. -/
theorem agrees_written : limits.Agrees members where
  rps d hmem := by
    obtain ⟨-, hd⟩ | ⟨hname, -⟩ | ⟨hname, -⟩ | ⟨hname, -⟩ :=
      mem_written hperm hburst hothers hmem
    · exact hd
    all_goals exact absurd hname (by decide)
  burst d hmem := by
    obtain ⟨hname, -⟩ | ⟨hname, -⟩ | ⟨-, hd⟩ | ⟨hname, -⟩ :=
      mem_written hperm hburst hothers hmem
    case inr.inr.inl => exact hd
    all_goals exact absurd hname (by decide)
  regions d hmem := by
    obtain ⟨hname, -⟩ | ⟨-, hd⟩ | ⟨hname, -⟩ | ⟨hname, -⟩ :=
      mem_written hperm hburst hothers hmem
    case inr.inl => exact hd
    all_goals exact absurd hname (by decide)

/-- An object that is written for a record stands for it. -/
theorem standsFor_written (h : limits.Fits)
    (hdepth : (Document.object members).depth ≤ Document.maxDepth) :
    (Document.object members).StandsFor reading limits where
  exact := by
    rw [Document.Exact, Document.exactMembers_iff]
    rintro ⟨name, d⟩ hmem
    obtain ⟨-, rfl⟩ | ⟨-, rfl⟩ | ⟨-, rfl⟩ | ⟨-, hd⟩ :=
      mem_written hperm hburst hothers hmem
    · exact h.rps.exact
    · exact exact_regions limits.regions
    · exact h.exact_burst
    · exact hd
  shallow := hdepth
  read := by
    have hnamed (name : String) (hname : name ∈ "rps" :: "regions" :: burst.map (·.1)) :
        name ∈ (Document.sortedDict members).names := by
      rw [Document.mem_names_sortedDict, (hperm.map _).mem_iff, List.map_cons, List.map_cons,
        List.map_append, ← List.cons_append, ← List.cons_append]
      exact List.mem_append_left _ hname
    have hread := h.takeAll_eq_ok (agrees_written hperm hburst hothers).sorted {}
    rw [Document.sorted_object, Document.ofDict, reading, hread]
    refine Fields.finish_filled (hnamed _ List.mem_cons_self)
      (hnamed _ (List.mem_cons_of_mem _ List.mem_cons_self)) ?_
    refine hburst.named.imp_left fun hmem => hnamed _ ?_
    exact List.mem_cons_of_mem _ (List.mem_cons_of_mem _ hmem)

end Written

/-- The list of the three fields stands for a record. Its elements are taken by their places, so the
names are not needed. -/
theorem Fits.standsFor_list (h : limits.Fits) :
    (Document.list [.integer limits.rps, burstDocument limits.burst,
      .list (limits.regions.map .text)]).StandsFor reading limits where
  exact := ⟨h.rps.exact, h.exact_burst, exact_regions limits.regions, trivial⟩
  shallow := by
    simp only [Document.depth, Document.depthElements, depth_burstDocument, depthElements_regions]
    decide
  read := by
    have hsorted : Document.sortedElements [.integer limits.rps, burstDocument limits.burst,
        .list (limits.regions.map .text)] = [.integer limits.rps, burstDocument limits.burst,
        .list (limits.regions.map .text)] := by
      simp only [Document.sortedElements, sorted_burstDocument, sorted_regions]
      rfl
    rw [Document.sorted, hsorted, reading, ofElements, Reading.count_integer h.rps]
    dsimp only
    rw [h.read_burst]
    dsimp only
    rw [Reading.list_text]
    rfl

/-- **Every document of a record stands for it**, whether it is an object with its members in any
order and others among them, or a list of the fields. -/
theorem Spells.standsFor {d : Document} (hd : limits.Spells d) (h : limits.Fits) :
    d.StandsFor reading limits := by
  cases hd with
  | object hperm hburst hothers hdepth =>
      exact standsFor_written hperm hburst hothers h hdepth
  | list => exact h.standsFor_list

/-- The record as an object is one of its documents. -/
theorem spells_toDocument (limits : Limits) : limits.Spells limits.toDocument := by
  have hdocument : limits.toDocument = .object [("rps", .integer limits.rps),
      ("burst", burstDocument limits.burst), ("regions", .list (limits.regions.map .text))] := by
    cases hburst : limits.burst <;> simp only [toDocument, burstDocument, hburst]
  rw [hdocument]
  refine .object (.cons _ (.swap ..)) (.present limits.burst)
    (fun other hmem => absurd hmem List.not_mem_nil) ?_
  simp only [Document.depth, Document.depthMembers, depth_burstDocument, depthElements_regions]
  decide

example : (toDocument ⟨250, none, ["eu-west-1"]⟩).render =
    "\x7b\"rps\":250,\"burst\":null,\"regions\":[\"eu-west-1\"]\x7d" := by
  decide

end Limits

end CachedParameters
