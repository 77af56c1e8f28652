import CachedParameters.Store.Paging
import Mathlib.Algebra.Order.Floor.Div

/-!
# Listings that are served in pages of a list

A listing is often a list that is given out in pages of a limited size. `Page.offsets` are the
offsets at which its pages begin. If a pager serves the pages of a list, a fold of it asks for the
page of each of these offsets, in this order and once, and combines what it would combine of the
whole list: `Pager.Serves.fold`. The induction is on what is left of the list.

To say which pages a fold asks for, a pager is watched: `Pager.watched` writes down every token with
the answer to it, in a backend beside the original one.

## Main results

- `Page.slice_of_le`, `Page.slice_of_lt`: a page ends the list, or is followed by another one.
- `Pager.Serves.fold_pages`, `Pager.Serves.fold`: a fold over the pages of a list is one over the
  list, and asks for the pages in order.
- `Pager.fold_watched`: being watched changes no fold.
-/

namespace CachedParameters

/-! ### Pages of a list -/

namespace Memory.Page

variable {α : Type}

/-- The number of pages that `n` entries take; no entries take one page. -/
def count (size : PageSize) (n : ℕ) : ℕ := max 1 (n ⌈/⌉ size.limit)

/-- The offsets at which pages begin, if `n` entries follow from `offset` on. -/
def offsets (size : PageSize) (offset n : ℕ) : List ℕ :=
  (List.range (count size n)).map (offset + · * size.limit)

theorem count_of_le {size : PageSize} {n : ℕ} (h : n ≤ size.limit) : count size n = 1 := by
  have hle : n ⌈/⌉ size.limit ≤ 1 := by
    rw [Nat.ceilDiv_eq_add_pred_div, Nat.div_le_iff_le_mul_add_pred size.pos]
    omega
  exact max_eq_left hle

/-- More entries take one page more than those behind the first page. -/
theorem count_of_lt {size : PageSize} {n : ℕ} (h : size.limit < n) :
    count size n = count size (n - size.limit) + 1 := by
  have hpos := size.pos
  have hsplit : n + size.limit - 1 = (n - size.limit + size.limit - 1) + size.limit := by omega
  have hstep : n ⌈/⌉ size.limit = (n - size.limit) ⌈/⌉ size.limit + 1 := by
    rw [Nat.ceilDiv_eq_add_pred_div, Nat.ceilDiv_eq_add_pred_div, hsplit,
      Nat.add_div_right _ hpos]
  have hrest : 1 ≤ (n - size.limit) ⌈/⌉ size.limit := by
    rw [Nat.ceilDiv_eq_add_pred_div]
    exact Nat.div_pos (by omega) hpos
  rw [count, count, hstep]
  omega

theorem offsets_of_le {size : PageSize} {offset n : ℕ} (h : n ≤ size.limit) :
    offsets size offset n = [offset] := by
  rw [offsets, count_of_le h]
  simp

/-- Behind the first page the other ones begin. -/
theorem offsets_of_lt {size : PageSize} {offset n : ℕ} (h : size.limit < n) :
    offsets size offset n =
      offset :: offsets size (offset + size.limit) (n - size.limit) := by
  rw [offsets, count_of_lt h, List.range_succ_eq_map, List.map_cons, List.map_map, offsets]
  congr 1
  · omega
  · refine List.map_congr_left fun k _ => ?_
    simp only [Function.comp_apply, Nat.succ_mul]
    omega

/-- A page begins at the start of the list, or behind a whole page and before the end. -/
theorem eq_or_le_and_lt_of_mem_offsets {size : PageSize} {n offset : ℕ}
    (h : offset ∈ offsets size 0 n) : offset = 0 ∨ size.limit ≤ offset ∧ offset < n := by
  obtain ⟨k, hk, rfl⟩ := List.mem_map.mp h
  rw [Nat.zero_add]
  rcases Nat.eq_zero_or_pos k with rfl | hpos
  · exact .inl (Nat.zero_mul _)
  · refine .inr ⟨Nat.le_mul_of_pos_left _ hpos, lt_of_not_ge fun hle => ?_⟩
    have hcount : n ⌈/⌉ size.limit ≤ k := by
      rwa [ceilDiv_le_iff_le_mul size.pos, Nat.mul_comm]
    have hlt := List.mem_range.mp hk
    rw [count] at hlt
    omega

theorem slice_of_le {size : PageSize} {offset : ℕ} {xs : List α}
    (h : xs.length - offset ≤ size.limit) : slice size offset xs = ⟨xs.drop offset, none⟩ := by
  have hstop : min (offset + size.limit) xs.length = xs.length := by omega
  simp only [slice, hstop, List.take_length, lt_irrefl, if_false]

/-- Every other page is followed by the one that begins where it ends. -/
theorem slice_of_lt {size : PageSize} {offset : ℕ} {xs : List α}
    (h : size.limit < xs.length - offset) :
    slice size offset xs =
      ⟨(xs.drop offset).take size.limit, some (offset + size.limit)⟩ := by
  have hstop : min (offset + size.limit) xs.length = offset + size.limit := by omega
  have hlt : offset + size.limit < xs.length := by omega
  simp only [slice, hstop, if_pos hlt]
  rw [List.drop_take, Nat.add_sub_cancel_left]

end Memory.Page

namespace Pager

open Memory (Page PageSize)

variable {κ τ ρ α β : Type}

/-! ### Pagers that serve the pages of a list -/

/-- How the page at an offset is asked for: the first page is asked for without a token. -/
def askedAt (token : ℕ → τ) (offset : ℕ) : Option τ :=
  if offset = 0 then none else some (token offset)

/-- Of the pages of a list, only the one that no page comes before is asked for without a token. -/
theorem askedAt_mul (token : ℕ → τ) (size : PageSize) (k : ℕ) :
    askedAt token (0 + k * size.limit) =
      if k = 0 then none else some (token (k * size.limit)) := by
  have hfirst : k * size.limit = 0 ↔ k = 0 := by
    rw [Nat.mul_eq_zero]
    exact or_iff_left size.pos.ne'
  simp only [askedAt, Nat.zero_add, hfirst]

/-- What is answered to whoever asks for the page at an offset. -/
def answerAt (size : PageSize) (xs : List α) (token : ℕ → τ) (offset : ℕ) :
    List α × Option τ :=
  ((Page.slice size offset xs).entries, (Page.slice size offset xs).next.map token)

/-- The pager gives out the pages of the list `xs`, with `token` for their offsets, from every
backend that satisfies `holds`, which a page keeps. The page at an offset leaves the backend `after`
it. -/
structure Serves (pager : Pager κ τ (List α)) (size : PageSize) (xs : List α) (token : ℕ → τ)
    (holds : κ → Prop) (after : ℕ → κ → κ) : Prop where
  keeps : ∀ offset s, holds s → holds (after offset s)
  page : ∀ offset s, holds s → offset = 0 ∨ offset < xs.length →
    pager.page (askedAt token offset) s = (.ok (answerAt size xs token offset), after offset s)

/-- A fold over the pages of a list comes to what is combined of the list from the offset on. It
asks for the pages from there on in order and once each, and for all of them if what they hold can
be combined. -/
theorem Serves.fold_pages {pager : Pager κ τ (List α)} {size : PageSize} {xs : List α}
    {token : ℕ → τ} {holds : κ → Prop} {after : ℕ → κ → κ}
    (h : pager.Serves size xs token holds after) (combine : β → List α → Except Error β)
    (happend : ∀ sum front back,
      combine sum (front ++ back) = combine sum front >>= (combine · back))
    {offset : ℕ} (hoffset : offset = 0 ∨ offset < xs.length) (sum : β) (s : κ) (hs : holds s) :
    ∃ pages, pager.fold combine sum (askedAt token offset) s =
        (combine sum (xs.drop offset),
          ((Page.offsets size offset (xs.length - offset)).take pages).foldl
            (fun s o => after o s) s) ∧
      ∀ total, combine sum (xs.drop offset) = .ok total →
        (Page.offsets size offset (xs.length - offset)).length ≤ pages := by
  -- The induction is on what is left of the list; it falls by the size of a page.
  induction hleft : xs.length - offset using Nat.strong_induction_on generalizing offset sum s with
  | _ left ih =>
    subst hleft
    rw [fold_eq, h.page offset s hs hoffset, answerAt]
    rcases Nat.lt_or_ge size.limit (xs.length - offset) with hmore | hlast
    · have hpos := size.pos
      have hnext : askedAt token (offset + size.limit) = some (token (offset + size.limit)) :=
        if_neg (by omega)
      have hsplit : combine sum (xs.drop offset) =
          combine sum ((xs.drop offset).take size.limit) >>=
            (combine · (xs.drop (offset + size.limit))) := by
        rw [← happend, ← List.drop_drop, List.take_append_drop]
      rw [Page.slice_of_lt hmore, Page.offsets_of_lt hmore, hsplit]
      cases hcombined : combine sum ((xs.drop offset).take size.limit) with
      | error e =>
          simp only [Option.map_some, hcombined]
          exact ⟨1, rfl, fun total hok => nomatch hok⟩
      | ok front =>
          have hrest : xs.length - (offset + size.limit) = xs.length - offset - size.limit := by
            omega
          obtain ⟨pages, hfold, hall⟩ := ih (xs.length - (offset + size.limit)) (by omega)
            (.inr (by omega)) front (after offset s) (h.keeps offset s hs) rfl
          rw [hnext, hrest] at hfold
          rw [hrest] at hall
          simp only [Option.map_some, hcombined]
          exact ⟨pages + 1, hfold, fun total hok => Nat.succ_le_succ (hall total hok)⟩
    · rw [Page.slice_of_le hlast, Page.offsets_of_le hlast]
      exact ⟨1, rfl, fun _ _ => le_rfl⟩

/-- **A fold over the pages of a list is one over the list.** It comes to what is combined of the
list from the offset on, and if that can be combined, every page from there on is asked for once. -/
theorem Serves.fold {pager : Pager κ τ (List α)} {size : PageSize} {xs : List α} {token : ℕ → τ}
    {holds : κ → Prop} {after : ℕ → κ → κ} (h : pager.Serves size xs token holds after)
    (combine : β → List α → Except Error β)
    (happend : ∀ sum front back,
      combine sum (front ++ back) = combine sum front >>= (combine · back))
    {offset : ℕ} (hoffset : offset = 0 ∨ offset < xs.length) (sum : β) (s : κ) (hs : holds s) :
    (pager.fold combine sum (askedAt token offset) s).1 = combine sum (xs.drop offset) ∧
      ∀ total, combine sum (xs.drop offset) = .ok total →
        (pager.fold combine sum (askedAt token offset) s).2 =
          (Page.offsets size offset (xs.length - offset)).foldl (fun s o => after o s) s := by
  obtain ⟨pages, hfold, hall⟩ := h.fold_pages combine happend hoffset sum s hs
  rw [hfold]
  refine ⟨rfl, fun total hok => ?_⟩
  rw [List.take_of_length_le (hall total hok)]

/-! ### Watched pagers -/

/-- A page that was asked for, by its token, and the answer. The first page has none. -/
structure Visit (τ ρ : Type) where
  token : Option τ
  answer : Except Error (ρ × Option τ)

/-- A backend, and the pages that were asked of it so far, the oldest first. -/
structure Visited (κ τ ρ : Type) where
  backend : κ
  visits : List (Visit τ ρ) := []

/-- The pager, the pages asked of it written down. -/
def watched (pager : Pager κ τ ρ) : Pager (Visited κ τ ρ) τ ρ where
  page start s :=
    ((pager.page start s.backend).1,
      ⟨(pager.page start s.backend).2,
        s.visits ++ [⟨start, (pager.page start s.backend).1⟩]⟩)
  left start s := pager.left start s.backend
  left_lt h := by
    obtain ⟨houtcome, rfl⟩ := Prod.mk.inj h
    exact pager.left_lt (Prod.ext houtcome rfl)

/-- A watched pager answers what the pager answers. -/
theorem page_eq_of_watched {pager : Pager κ τ ρ} {start : Option τ} {s after : Visited κ τ ρ}
    {answer : Except Error (ρ × Option τ)} (h : pager.watched.page start s = (answer, after)) :
    pager.page start s.backend = (answer, after.backend) := by
  obtain ⟨rfl, rfl⟩ := Prod.mk.inj h
  rfl

/-- Being watched changes no fold, so the calls of a listing can be read off the watched one. -/
theorem fold_watched (pager : Pager κ τ ρ) (combine : β → ρ → Except Error β) (sum : β)
    (start : Option τ) (s : Visited κ τ ρ) :
    pager.fold combine sum start s.backend =
      ((pager.watched.fold combine sum start s).1,
        (pager.watched.fold combine sum start s).2.backend) := by
  fun_induction pager.watched.fold combine sum start s with
  | case1 sum start s e after heq => rw [fold_eq, page_eq_of_watched heq]
  | case2 sum start s content after heq => rw [fold_eq, page_eq_of_watched heq]
  | case3 sum start s content next after heq e hfail =>
      simp only [fold_eq pager combine sum start, page_eq_of_watched heq, hfail]
  | case4 sum start s content next after heq total hcombined ih =>
      simp only [fold_eq pager combine sum start, page_eq_of_watched heq, hcombined, ih]

/-- The page at an offset, as it is written down. -/
def visitAt (size : PageSize) (xs : List α) (token : ℕ → τ) (offset : ℕ) : Visit τ (List α) :=
  ⟨askedAt token offset, .ok (answerAt size xs token offset)⟩

/-- A pager goes on to serve the pages of a list when it is watched. -/
theorem Serves.watched {pager : Pager κ τ (List α)} {size : PageSize} {xs : List α}
    {token : ℕ → τ} {holds : κ → Prop} {after : ℕ → κ → κ}
    (h : pager.Serves size xs token holds after) :
    pager.watched.Serves size xs token (fun s => holds s.backend) fun offset s =>
      ⟨after offset s.backend, s.visits ++ [visitAt size xs token offset]⟩ where
  keeps offset s hs := h.keeps offset s.backend hs
  page offset s hs hoffset := by
    have hpage := h.page offset s.backend hs hoffset
    simp only [Pager.watched, hpage, visitAt]

/-- Pages are written down in the order in which they are asked for. -/
theorem foldl_visits (after : ℕ → κ → κ) (visit : ℕ → Visit τ ρ) (offsets : List ℕ)
    (s : Visited κ τ ρ) :
    offsets.foldl
        (fun s offset => ⟨after offset s.backend, s.visits ++ [visit offset]⟩) s =
      ⟨offsets.foldl (fun s offset => after offset s) s.backend,
        s.visits ++ offsets.map visit⟩ := by
  induction offsets generalizing s with
  | nil => simp
  | cons first rest ih =>
      rw [List.foldl_cons, ih]
      simp only [List.foldl_cons, List.map_cons, List.append_assoc, List.singleton_append]

end Pager

end CachedParameters
