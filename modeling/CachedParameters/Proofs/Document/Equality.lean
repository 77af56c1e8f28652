import CachedParameters.Document
import CachedParameters.Proofs.Real.Equality

/-!
# Equal documents

Equality of documents follows their structure and compares the reals in them as numbers. Where two
documents are equal and not the same, a zero in the one has another sign than the zero at its place
in the other. So the signs of the zeros, from left to right, are all that equality leaves open.

## Main definitions

- `Document.zeroSigns`: the signs of the zeros among the reals of a document.

## Main results

- `Document.eq_iff_zeroSigns_eq`: equal documents are the same just if their zeros have the same
  signs.
-/

namespace CachedParameters.Document

/-! ### The signs of zeros -/

/-- The sign of a number if it is zero: `true` is the minus sign. -/
def zeroSign (x : Float) : List Bool := if Real.isZero x then [Real.isNegative x] else []

mutual

/-- The signs of the zeros among the reals of a document, from left to right. -/
def zeroSigns : Document → List Bool
  | .real value => zeroSign value
  | .list elements => zeroSignsElements elements
  | .object members => zeroSignsMembers members
  | _ => []

/-- The signs of the zeros in all elements. -/
def zeroSignsElements : List Document → List Bool
  | [] => []
  | element :: rest => zeroSigns element ++ zeroSignsElements rest

/-- The signs of the zeros in the documents of all members. -/
def zeroSignsMembers : List (String × Document) → List Bool
  | [] => []
  | (_, value) :: rest => zeroSigns value ++ zeroSignsMembers rest

end

/-! ### Equality up to the signs of zeros -/

/-- Two things are the same up to signs: there are as many signs in both, and if these agree, so do
the things. -/
def SameUpTo {α : Type} (signs : α → List Bool) (a b : α) : Prop :=
  (signs a).length = (signs b).length ∧ (signs a = signs b → a = b)

theorem SameUpTo.refl {α : Type} {signs : α → List Bool} (a : α) : SameUpTo signs a a :=
  ⟨rfl, fun _ => rfl⟩

/-- Signs that follow each other can be told apart, since there are as many in front on both
sides. -/
theorem SameUpTo.append {α β γ : Type} {signs : α → List Bool} {more : β → List Bool}
    {all : γ → List Bool} {a b : α} {c d : β} {first second : γ} (hfront : SameUpTo signs a b)
    (hback : SameUpTo more c d) (hfirst : all first = signs a ++ more c)
    (hsecond : all second = signs b ++ more d) (h : a = b → c = d → first = second) :
    SameUpTo all first second := by
  refine ⟨?_, fun hsigns => ?_⟩
  · rw [hfirst, hsecond, List.length_append, List.length_append, hfront.1, hback.1]
  · rw [hfirst, hsecond] at hsigns
    obtain ⟨hleft, hright⟩ := List.append_inj hsigns hfront.1
    exact h (hfront.2 hleft) (hback.2 hright)

/-- Equal numbers are the same up to the sign of zero. -/
theorem sameUpTo_of_beq {x y : Float} (h : (x == y) = true) : SameUpTo zeroSign x y := by
  rcases Real.eq_or_isZero_of_beq h with rfl | ⟨hx, hy⟩
  · exact .refl x
  · refine ⟨by rw [zeroSign, zeroSign, if_pos hx, if_pos hy]; rfl, fun hsigns => ?_⟩
    rw [zeroSign, zeroSign, if_pos hx, if_pos hy, List.singleton_inj] at hsigns
    exact Real.eq_of_ordinal_eq hsigns
      ((Real.isZero_iff.mp hx).trans (Real.isZero_iff.mp hy).symm)

mutual

/-- Equal documents are the same up to the signs of their zeros. -/
theorem sameUpTo_of_equals (a b : Document) (h : equals a b = true) :
    SameUpTo zeroSigns a b := by
  match a, b with
  | .null, .null => exact .refl _
  | .bool u, .bool v =>
    obtain rfl : u = v := by simpa [equals] using h
    exact .refl _
  | .integer m, .integer n =>
    obtain rfl : m = n := by simpa [equals] using h
    exact .refl _
  | .text t, .text u =>
    obtain rfl : t = u := by simpa [equals] using h
    exact .refl _
  | .real x, .real y =>
    rw [equals] at h
    obtain ⟨hlength, hsame⟩ := sameUpTo_of_beq h
    exact ⟨by rwa [zeroSigns, zeroSigns], fun hsigns => by
      rw [zeroSigns, zeroSigns] at hsigns
      rw [hsame hsigns]⟩
  | .list xs, .list ys =>
    rw [equals] at h
    obtain ⟨hlength, hsame⟩ := sameUpTo_of_equalElements xs ys h
    exact ⟨by rwa [zeroSigns, zeroSigns], fun hsigns => by
      rw [zeroSigns, zeroSigns] at hsigns
      rw [hsame hsigns]⟩
  | .object xs, .object ys =>
    rw [equals] at h
    obtain ⟨hlength, hsame⟩ := sameUpTo_of_equalMembers xs ys h
    exact ⟨by rwa [zeroSigns, zeroSigns], fun hsigns => by
      rw [zeroSigns, zeroSigns] at hsigns
      rw [hsame hsigns]⟩

/-- Equal elements are the same up to the signs of their zeros. -/
theorem sameUpTo_of_equalElements (xs ys : List Document) (h : equalElements xs ys = true) :
    SameUpTo zeroSignsElements xs ys := by
  match xs, ys with
  | [], [] => exact .refl _
  | x :: xs, y :: ys =>
    rw [equalElements, Bool.and_eq_true] at h
    exact (sameUpTo_of_equals x y h.1).append (sameUpTo_of_equalElements xs ys h.2)
      (by rw [zeroSignsElements]) (by rw [zeroSignsElements]) (by rintro rfl rfl; rfl)

/-- Equal members are the same up to the signs of the zeros in their documents. -/
theorem sameUpTo_of_equalMembers (xs ys : List (String × Document))
    (h : equalMembers xs ys = true) : SameUpTo zeroSignsMembers xs ys := by
  match xs, ys with
  | [], [] => exact .refl _
  | (name, x) :: xs, (other, y) :: ys =>
    rw [equalMembers, Bool.and_eq_true, Bool.and_eq_true, beq_iff_eq] at h
    obtain ⟨⟨rfl, hfirst⟩, hrest⟩ := h
    exact (sameUpTo_of_equals x y hfirst).append (sameUpTo_of_equalMembers xs ys hrest)
      (by rw [zeroSignsMembers]) (by rw [zeroSignsMembers]) (by rintro rfl rfl; rfl)

end

/-- **Equal documents** are the same just if their zeros have the same signs. -/
theorem eq_iff_zeroSigns_eq {a b : Document} (h : equals a b = true) :
    a = b ↔ a.zeroSigns = b.zeroSigns :=
  ⟨congrArg zeroSigns, (sameUpTo_of_equals a b h).2⟩

end CachedParameters.Document
