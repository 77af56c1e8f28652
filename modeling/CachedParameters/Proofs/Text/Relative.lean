import CachedParameters.Text
import Mathlib.Data.List.DropRight

/-!
# Names under a path and relative to it

A name lies under a path if the path without the slashes at its end, one slash and at least one
further character make up the name. `Path.Under` says so without an algorithm, and the search for a
common start decides it.

So a name under a path begins with the stem of the path, which is the path without the slashes at
its end. The name relative to the path (`relative_name`) is found by another rule: the path is taken
off as it is written, slashes at its end included, and if the name does not begin with it, nothing
is taken off. Either way the slashes that are then in front go. So names whose level behind the path
is empty may share a relative name, and a slash more at the end of a path may keep it from being
taken off.

## Main results

- `Path.isUnder_iff`: the search finds the names that lie under a path.
- `Path.relative_of_begins`, `Path.relative_of_not_begins`: what is left of a name under a path.
- `Path.eq_of_relative_eq`: names that skip no level differ relative to the path.
- `Path.relative_slash_iff`: a slash more at the end of the path changes the relative names of those
  that it detaches, and no others.
-/

namespace CachedParameters.Path

/-! ### Names under a path -/

/-- A name lies under a path, directly so unless `recursive`: what follows the path, its trailing
slashes aside, and one slash is not empty and, unless `recursive`, free of slashes. -/
def Under (path : String) (recursive : Bool) (name : String) : Prop :=
  ∃ rest, name.toList = path.toList.rdropWhile (· == '/') ++ '/' :: rest ∧
    rest ≠ [] ∧ (recursive = true ∨ '/' ∉ rest)

/-- The start that names under a path have in common is the path without the slashes at its end, and
one slash. -/
theorem directory_eq (path : String) :
    directory path = path.toList.rdropWhile (· == '/') ++ ['/'] := rfl

/-- The search for a common start finds the names that lie under a path. Slashes at the end of the
path make no difference to that. -/
theorem isUnder_iff {path : String} {recursive : Bool} {name : String} :
    isUnder path recursive name = true ↔ Under path recursive name := by
  have hrest : ∀ rest : List Char,
      (!rest.isEmpty && (recursive || !rest.contains '/')) = true ↔
        rest ≠ [] ∧ (recursive = true ∨ '/' ∉ rest) := by
    intro rest
    simp
  constructor
  · intro h
    rw [isUnder] at h
    split at h
    · rename_i rest hdrop
      refine ⟨rest, ?_, (hrest rest).mp h⟩
      rw [Text.dropStart?_eq_some_iff.mp hdrop, directory_eq, List.append_assoc,
        List.singleton_append]
    · cases h
  · rintro ⟨rest, hname, hends⟩
    have hdrop : Text.dropStart? (directory path) name.toList = some rest := by
      rw [Text.dropStart?_eq_some_iff, hname, directory_eq, List.append_assoc,
        List.singleton_append]
    rw [isUnder, hdrop]
    exact (hrest rest).mpr hends

instance (path : String) (recursive : Bool) : DecidablePred (Under path recursive) := fun _ =>
  decidable_of_iff _ isUnder_iff

/-! ### Names relative to a path -/

/-- The path without the slashes at its end. -/
def stem (path : String) : List Char := path.toList.rdropWhile (· == '/')

/-- The level of a name behind the path is empty: a slash follows the one behind the path. -/
def SkipsLevel (path name : String) : Prop := stem path ++ ['/', '/'] <+: name.toList

instance (path name : String) : Decidable (SkipsLevel path name) :=
  inferInstanceAs (Decidable (_ <+: _))

/-- One slash more at the end of the path detaches the name from it: the name begins with the path,
but not with the path and a slash. Nothing is detached from a path of slashes only. -/
structure Detached (path name : String) : Prop where
  /-- The name begins with the path. -/
  attached : path.toList <+: name.toList
  /-- It does not go on with a slash. -/
  ends : ¬ path.toList ++ ['/'] <+: name.toList
  /-- The path is more than slashes. -/
  stem_ne_nil : stem path ≠ []

variable {path name : String} {recursive : Bool} {rest : List Char}

/-! ### Slashes at the end of a path -/

theorem stem_append (path : String) :
    stem path ++ path.toList.rtakeWhile (· == '/') = path.toList :=
  List.rdropWhile_append_rtakeWhile

/-- One slash more at the end does not change the stem. -/
theorem stem_slash (path : String) : stem (path ++ "/") = stem path := by
  rw [stem, String.toList_append]
  exact List.rdropWhile_concat_pos _ _ _ rfl

/-- The same names lie under a path with a slash more at its end. -/
theorem under_slash_iff : Under (path ++ "/") recursive name ↔ Under path recursive name := by
  have hstem : (path ++ "/").toList.rdropWhile (· == '/') = path.toList.rdropWhile (· == '/') :=
    stem_slash path
  rw [Under, Under, hstem]

/-- A name under a path goes on behind the stem with a slash. -/
theorem Under.exists_rest (h : Under path recursive name) :
    ∃ rest, name.toList = stem path ++ '/' :: rest := by
  obtain ⟨rest, hname, -⟩ := h
  exact ⟨rest, hname⟩

/-- Slashes do not matter in front of what they are taken off from. -/
theorem dropWhile_slashes {slashes : List Char} (h : ∀ c ∈ slashes, (c == '/') = true)
    (tail : List Char) :
    (slashes ++ tail).dropWhile (· == '/') = tail.dropWhile (· == '/') :=
  List.dropWhile_append_of_pos h

/-- A stem that is not empty is more than slashes. -/
theorem dropWhile_stem_ne_nil (h : stem path ≠ []) : (stem path).dropWhile (· == '/') ≠ [] := by
  intro hall
  have hlast := List.rdropWhile_last_not (· == '/') path.toList h
  exact hlast (List.dropWhile_eq_nil_iff.mp hall _ (List.getLast_mem h))

/-! ### What is left of a name -/

/-- Of a name that begins with the path what follows the stem is left, without the slashes in
front. -/
theorem relative_of_begins (hname : name.toList = stem path ++ '/' :: rest)
    (h : path.toList <+: name.toList) :
    relative path name = String.ofList (rest.dropWhile (· == '/')) := by
  obtain ⟨tail, htail⟩ := h
  have hslashes : path.toList.rtakeWhile (· == '/') ++ tail = '/' :: rest := by
    rw [← stem_append path, List.append_assoc, hname] at htail
    exact List.append_cancel_left htail
  have hdrop : tail.dropWhile (· == '/') = rest.dropWhile (· == '/') := by
    rw [← dropWhile_slashes (fun c => List.mem_rtakeWhile_imp) tail, hslashes]
    rfl
  rw [relative, Text.dropStart?_eq_some_iff.mpr htail.symm, Option.getD_some, hdrop]

/-- Of a name that does not begin with the path all is left, without the slashes in front. -/
theorem relative_of_not_begins (h : ¬ path.toList <+: name.toList) :
    relative path name = String.ofList (name.toList.dropWhile (· == '/')) := by
  have hnone : Text.dropStart? path.toList name.toList = none := by
    rw [Option.eq_none_iff_forall_ne_some]
    intro tail hsome
    exact h ⟨tail, (Text.dropStart?_eq_some_iff.mp hsome).symm⟩
  rw [relative, hnone, Option.getD_none]

/-- A path of slashes only is in front of a name with the other slashes there. -/
theorem dropWhile_of_stem_nil (hname : name.toList = stem path ++ '/' :: rest)
    (h : stem path = []) :
    name.toList.dropWhile (· == '/') = rest.dropWhile (· == '/') := by
  rw [hname, h]
  rfl

/-- Of any other path the stem stays in front. -/
theorem dropWhile_of_stem_ne_nil (hname : name.toList = stem path ++ '/' :: rest)
    (h : stem path ≠ []) :
    name.toList.dropWhile (· == '/') = (stem path).dropWhile (· == '/') ++ '/' :: rest := by
  rw [hname, List.dropWhile_append, if_neg]
  rw [List.isEmpty_iff]
  exact dropWhile_stem_ne_nil h

/-! ### Names that skip no level -/

/-- Directly under a path no level is skipped, so a listing that is not recursive loses nothing. -/
theorem not_skipsLevel_of_under (h : Under path false name) : ¬ SkipsLevel path name := by
  rintro ⟨tail, htail⟩
  obtain ⟨rest, hname, -, hslash⟩ := h
  rw [hname, List.append_assoc] at htail
  obtain rfl : '/' :: tail = rest := (List.cons.inj (List.append_cancel_left htail)).2
  rcases hslash with hfalse | hslash
  · cases hfalse
  · exact hslash List.mem_cons_self

/-- Where no level is skipped, no slash is in front of what follows the path. -/
theorem dropWhile_of_not_skipsLevel (hname : name.toList = stem path ++ '/' :: rest)
    (h : ¬ SkipsLevel path name) : rest.dropWhile (· == '/') = rest := by
  cases rest with
  | nil => rfl
  | cons c tail =>
      refine List.dropWhile_cons_of_neg fun hslash => h ⟨tail, ?_⟩
      rw [hname, beq_iff_eq.mp hslash, List.append_assoc]
      rfl

/-- A name that skips no level begins with the path as it is written if the path has at most one
slash at its end. -/
theorem begins_iff_of_not_skipsLevel (hname : name.toList = stem path ++ '/' :: rest)
    (h : ¬ SkipsLevel path name) :
    path.toList <+: name.toList ↔ (path.toList.rtakeWhile (· == '/')).length ≤ 1 := by
  have hslashes : path.toList.rtakeWhile (· == '/') =
      List.replicate (path.toList.rtakeWhile (· == '/')).length '/' := by
    refine List.eq_replicate_of_mem fun c hc => ?_
    exact beq_iff_eq.mp (List.mem_rtakeWhile_imp (p := (· == '/')) hc)
  have hpath := stem_append path
  rw [hslashes] at hpath
  generalize (path.toList.rtakeWhile (· == '/')).length = number at hpath ⊢
  rw [← hpath, hname, List.prefix_append_right_inj]
  -- A second slash at the end of the path is one that a name with it has behind the stem.
  match number with
  | 0 => simp
  | 1 => simp
  | more + 2 =>
      refine iff_of_false (fun ⟨tail, htail⟩ => h ⟨List.replicate more '/' ++ tail, ?_⟩) (by omega)
      rw [hname, ← htail, List.append_assoc]
      rfl

/-- **Names that skip no level differ relative to the path.** Either the path is taken off from both
or from neither, and no slash goes but those of the path. -/
theorem eq_of_relative_eq {other : String} (hname : Under path recursive name)
    (hother : Under path recursive other) (hskips : ¬ SkipsLevel path name)
    (hskips' : ¬ SkipsLevel path other) (h : relative path name = relative path other) :
    name = other := by
  obtain ⟨rest, hname⟩ := hname.exists_rest
  obtain ⟨rest', hother⟩ := hother.exists_rest
  have hrest : rest = rest' := by
    by_cases hbegins : path.toList <+: name.toList
    · have hbegins' : path.toList <+: other.toList := by
        rwa [begins_iff_of_not_skipsLevel hother hskips',
          ← begins_iff_of_not_skipsLevel hname hskips]
      rw [relative_of_begins hname hbegins, relative_of_begins hother hbegins',
        dropWhile_of_not_skipsLevel hname hskips, dropWhile_of_not_skipsLevel hother hskips'] at h
      exact String.ofList_injective h
    · have hbegins' : ¬ path.toList <+: other.toList := by
        rwa [begins_iff_of_not_skipsLevel hother hskips',
          ← begins_iff_of_not_skipsLevel hname hskips]
      rw [relative_of_not_begins hbegins, relative_of_not_begins hbegins'] at h
      have hleft := String.ofList_injective h
      by_cases hstem : stem path = []
      · rwa [dropWhile_of_stem_nil hname hstem, dropWhile_of_stem_nil hother hstem,
          dropWhile_of_not_skipsLevel hname hskips, dropWhile_of_not_skipsLevel hother hskips']
          at hleft
      · rw [dropWhile_of_stem_ne_nil hname hstem, dropWhile_of_stem_ne_nil hother hstem] at hleft
        exact (List.cons.inj (List.append_cancel_left hleft)).2
  rw [← String.toList_inj, hname, hother, hrest]

/-! ### One slash more -/

/-- What is left of a detached name, with a slash more and without it. -/
theorem Detached.relative_eq (h : Detached path name)
    (hname : name.toList = stem path ++ '/' :: rest) :
    relative (path ++ "/") name =
        String.ofList ((stem path).dropWhile (· == '/') ++ '/' :: rest) ∧
      relative path name = String.ofList (rest.dropWhile (· == '/')) := by
  have hends : ¬ (path ++ "/").toList <+: name.toList := by
    rw [String.toList_append]
    exact h.ends
  rw [relative_of_not_begins hends, dropWhile_of_stem_ne_nil hname h.stem_ne_nil,
    relative_of_begins hname h.attached]
  exact ⟨rfl, rfl⟩

/-- **A slash more at the end of a path changes the relative names of those that it detaches, and no
others.** -/
theorem relative_slash_iff (h : Under path recursive name) :
    relative (path ++ "/") name = relative path name ↔ ¬ Detached path name := by
  obtain ⟨rest, hname⟩ := h.exists_rest
  have hslash : (path ++ "/").toList = path.toList ++ ['/'] := String.toList_append
  constructor
  · intro heq hdetached
    obtain ⟨hmore, hless⟩ := hdetached.relative_eq hname
    rw [hmore, hless] at heq
    have hlength := congrArg List.length (String.ofList_injective heq)
    have hle := (List.dropWhile_suffix (l := rest) (· == '/')).length_le
    rw [List.length_append, List.length_cons] at hlength
    omega
  · intro hnot
    have hname' : name.toList = stem (path ++ "/") ++ '/' :: rest := by
      rw [stem_slash, hname]
    by_cases hbegins : path.toList <+: name.toList
    · by_cases hends : path.toList ++ ['/'] <+: name.toList
      · rw [relative_of_begins hname' (hslash ▸ hends), relative_of_begins hname hbegins]
      · have hstem : stem path = [] := by
          by_contra hne
          exact hnot ⟨hbegins, hends, hne⟩
        rw [relative_of_not_begins (hslash ▸ hends), relative_of_begins hname hbegins,
          dropWhile_of_stem_nil hname hstem]
    · have hends : ¬ path.toList ++ ['/'] <+: name.toList := fun hends =>
        hbegins ((List.prefix_append _ _).trans hends)
      rw [relative_of_not_begins (hslash ▸ hends), relative_of_not_begins hbegins]

/-- A name is not detached if no slash is at the end of the path, or nothing else is in it. -/
theorem not_detached (h : Under path recursive name)
    (hpath : path.toList.getLast? = some '/' → stem path = []) : ¬ Detached path name := by
  intro hdetached
  obtain ⟨rest, hname⟩ := h.exists_rest
  have hstem : stem path = path.toList := by
    refine List.rdropWhile_eq_self_iff.mpr fun hne hslash => hdetached.stem_ne_nil (hpath ?_)
    rw [List.getLast?_eq_getLast_of_ne_nil hne, beq_iff_eq.mp hslash]
  refine hdetached.ends ⟨rest, ?_⟩
  rw [hname, ← hstem, List.append_assoc]
  rfl

/-- If a detached name is found where another one was, the other one is longer. -/
theorem Detached.length_lt {other : String} (h : Detached path name) (h' : Detached path other)
    (hname : Under path recursive name) (hother : Under path recursive other)
    (heq : relative (path ++ "/") name = relative path other) :
    name.toList.length < other.toList.length := by
  obtain ⟨rest, hname⟩ := hname.exists_rest
  obtain ⟨rest', hother⟩ := hother.exists_rest
  rw [(h.relative_eq hname).1, (h'.relative_eq hother).2] at heq
  have hlength := congrArg List.length (String.ofList_injective heq)
  have hle := (List.dropWhile_suffix (l := rest') (· == '/')).length_le
  rw [hname, hother]
  simp only [List.length_append, List.length_cons] at hlength ⊢
  omega

end CachedParameters.Path
