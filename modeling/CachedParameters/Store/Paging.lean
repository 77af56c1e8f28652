import CachedParameters.Source

/-!
# Listings that come in pages

A list is given out in pages of a limited size. A `Page` is found by its offset, the number of
entries before it, and ends with the offset of the next page if there is one.

A `Pager` fetches a listing page by page; a page may end with a token, with which the next one is
asked for. It comes with a measure that falls from page to page, so every listing ends: what the
stores in memory have left to give, or the answers that a cloud service still has. `Pager.fold`
asks for all pages in order and combines them, as the loops of `ParameterStore` and `TableStore` do.

## Main results

- `Page.lt_of_next`: a page that is followed by another one ends behind its offset and before the
  end of the list.
- `Pager.fold_eq`: a fold is one page followed by the fold of the pages behind it.
- `Pager.fold_keeps`: what every page keeps, a fold keeps.
- `Pager.fold_fails`: a fold fails as one of its pages does, or as one is combined.
-/

namespace CachedParameters.Memory

/-- The most entries of one page, which is at least one. -/
structure PageSize where
  limit : Nat
  /-- A page holds at least one. -/
  pos : 0 < limit

/-- The page size of a number; none counts as one. -/
def PageSize.ofNat (n : Nat) : PageSize := ⟨max n 1, Nat.le_max_right n 1⟩

/-- A part of a list, and the offset of the next part if there is one. -/
structure Page (α : Type) where
  entries : List α
  next : Option Nat

namespace Page

variable {α : Type}

/-- The page of a list that begins at an offset. -/
def slice (size : PageSize) (offset : Nat) (xs : List α) : Page α :=
  let stop := min (offset + size.limit) xs.length
  ⟨(xs.take stop).drop offset, if stop < xs.length then some stop else none⟩

/-- A page that is followed by another one ends behind its offset and before the end of the list. -/
theorem lt_of_next {size : PageSize} {offset next : Nat} {xs : List α}
    (h : (slice size offset xs).next = some next) : offset < next ∧ next < xs.length := by
  have hpos := size.pos
  simp only [slice] at h
  split at h
  · obtain rfl := Option.some.inj h
    omega
  · simp at h

end Page

end CachedParameters.Memory

namespace CachedParameters

/-- The pages `ρ` of one listing, asked for with tokens `τ` from a backend `κ`. Asked without a
token, it gives the first page. In any state of the backend `left` bounds the pages that follow. -/
structure Pager (κ τ ρ : Type) where
  page : Option τ → Call κ (ρ × Option τ)
  left : Option τ → κ → Nat
  /-- The bound falls from a page to the next one. -/
  left_lt : ∀ {start : Option τ} {s : κ} {content : ρ} {next : τ} {s' : κ},
    page start s = (.ok (content, some next), s') → left (some next) s' < left start s

namespace Pager

variable {κ τ ρ β : Type}

/-- Combines the pages from the one of `start` on, in order. The first page that cannot be had or
combined ends the work. It is defined by the bound of the pager, and `Pager.fold_eq` is the loop
that it stands for. -/
def fold (pager : Pager κ τ ρ) (combine : β → ρ → Except Error β) (sum : β) (start : Option τ)
    (s : κ) : Except Error β × κ :=
  match _h : pager.page start s with
  | (.error e, s') => (.error e, s')
  | (.ok (content, none), s') => (combine sum content, s')
  | (.ok (content, some next), s') =>
    match combine sum content with
    | .error e => (.error e, s')
    | .ok sum => pager.fold combine sum (some next) s'
termination_by pager.left start s
decreasing_by exact pager.left_lt _h

/-- A fold is one page followed by the fold of the pages behind it. -/
theorem fold_eq (pager : Pager κ τ ρ) (combine : β → ρ → Except Error β) (sum : β)
    (start : Option τ) (s : κ) :
    pager.fold combine sum start s =
      match pager.page start s with
      | (.error e, s') => (.error e, s')
      | (.ok (content, none), s') => (combine sum content, s')
      | (.ok (content, some next), s') =>
        match combine sum content with
        | .error e => (.error e, s')
        | .ok sum => pager.fold combine sum (some next) s' := by
  rw [fold]
  split <;> rename_i h <;> rw [h]

/-- What every page keeps, a fold keeps: `holds` of the backend, and `sums` of what was combined
from pages that `brings` is true of. -/
theorem fold_keeps {pager : Pager κ τ ρ} {combine : β → ρ → Except Error β} (holds : κ → Prop)
    (brings : ρ → Prop) (sums : β → Prop)
    (hpage : ∀ start s, holds s → holds (pager.page start s).2 ∧
      ∀ answer, (pager.page start s).1 = .ok answer → brings answer.1)
    (hcombine : ∀ sum content total, sums sum → brings content →
      combine sum content = .ok total → sums total)
    {sum : β} (hsum : sums sum) (start : Option τ) {s : κ} (hs : holds s) :
    holds (pager.fold combine sum start s).2 ∧
      ∀ total, (pager.fold combine sum start s).1 = .ok total → sums total := by
  fun_induction pager.fold combine sum start s with
  | case1 sum start s e after heq =>
      have hkept := (hpage start s hs).1
      rw [heq] at hkept
      exact ⟨hkept, fun total hok => nomatch hok⟩
  | case2 sum start s content after heq =>
      obtain ⟨hkept, hbrings⟩ := hpage start s hs
      rw [heq] at hkept hbrings
      exact ⟨hkept, fun total hok => hcombine sum content total hsum (hbrings _ rfl) hok⟩
  | case3 sum start s content next after heq e hfail =>
      have hkept := (hpage start s hs).1
      rw [heq] at hkept
      exact ⟨hkept, fun total hok => nomatch hok⟩
  | case4 sum start s content next after heq total hcombined ih =>
      obtain ⟨hkept, hbrings⟩ := hpage start s hs
      rw [heq] at hkept hbrings
      exact ih (hcombine sum content total hsum (hbrings _ rfl) hcombined) hkept

/-- A fold fails as one of its pages does, or as one is combined: what `fails` is true of in both
cases it is true of in general. -/
theorem fold_fails {pager : Pager κ τ ρ} {combine : β → ρ → Except Error β} {fails : Error → Prop}
    (hpage : ∀ start s e, (pager.page start s).1 = .error e → fails e)
    (hcombine : ∀ sum content e, combine sum content = .error e → fails e) (sum : β)
    (start : Option τ) (s : κ) :
    ∀ e, (pager.fold combine sum start s).1 = .error e → fails e := by
  fun_induction pager.fold combine sum start s with
  | case1 sum start s failure after heq =>
      intro e herror
      obtain rfl := Except.error.inj herror
      exact hpage start s failure (by rw [heq])
  | case2 sum start s content after heq => exact hcombine sum content
  | case3 sum start s content next after heq failure hfail =>
      intro e herror
      exact hcombine sum content e (hfail.trans herror)
  | case4 sum start s content next after heq total hcombined ih => exact ih

end Pager

end CachedParameters
