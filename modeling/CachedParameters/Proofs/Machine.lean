import Mathlib.Data.List.Induction

/-!
# Machines and what others see of them

A `Machine` takes inputs one after another, and tells something of some of them. All runs of this
library are runs of machines. An invariant of a run may speak of the inputs taken so far, as the
history of a provider does, so `Machine.run_induction` takes one more input at the end: what every
step keeps is shown once for each machine, and no run has an induction of its own.

One machine **follows** another if it only takes its share of the inputs and tells its share of what
is told. To show that for every run it is enough to look at single inputs: those that are its own
move both machines alike, and those that are not leave it where it is.

## Main results

- `Machine.run_induction`: what every input keeps, every run keeps.
- `Machine.run_map`: machines that go alike input by input go alike.
- `Machine.Follows.run`: what follows on every input follows on every run.
-/

namespace CachedParameters

/-- Something that takes inputs one after another: `next` is the state behind an input, and `tells?`
what is told of it, if anything. -/
structure Machine (σ ι ο : Type) where
  next : σ → ι → σ
  tells? : σ → ι → Option ο

namespace Machine

variable {σ τ ι κ ο ω : Type}

/-- A machine that tells nothing. It is given by its steps alone. -/
def silent (next : σ → ι → σ) : Machine σ ι Empty where
  next := next
  tells? _ _ := none

/-- The state that a machine is in behind some inputs, taken one after another. -/
def run (m : Machine σ ι ο) (s : σ) (inputs : List ι) : σ := inputs.foldl m.next s

/-- What is told of some inputs, in order. -/
def transcript (m : Machine σ ι ο) : σ → List ι → List ο
  | _, [] => []
  | s, input :: rest => (m.tells? s input).toList ++ m.transcript (m.next s input) rest

/-! ### Invariants -/

theorem run_append_singleton (m : Machine σ ι ο) (s : σ) (inputs : List ι) (input : ι) :
    m.run s (inputs ++ [input]) = m.next (m.run s inputs) input := by
  rw [run, List.foldl_append]
  rfl

/-- **What every input keeps, every run keeps**, and it may speak of the inputs taken so far. -/
theorem run_induction (m : Machine σ ι ο) (inv : List ι → σ → Prop) {s : σ} (start : inv [] s)
    (next : ∀ taken s input, inv taken s → inv (taken ++ [input]) (m.next s input))
    (inputs : List ι) : inv inputs (m.run s inputs) := by
  induction inputs using List.reverseRecOn with
  | nil => exact start
  | append_singleton taken input ih =>
      rw [run_append_singleton]
      exact next taken _ input ih

/-- Machines that go alike input by input, as `f` shows their states and `g` their inputs, go alike
through every run. -/
theorem run_map {m : Machine σ ι ο} {n : Machine τ κ ω} {f : σ → τ} {g : ι → κ}
    (h : ∀ s input, n.next (f s) (g input) = f (m.next s input)) (s : σ) (inputs : List ι) :
    n.run (f s) (inputs.map g) = f (m.run s inputs) := by
  rw [run, List.foldl_map]
  exact List.foldl_hom f h

/-! ### Following another machine -/

/-- One machine follows another on the inputs that are `allowed`: by `input?` it takes its share of
them, and by `output?` it tells its share of what is told. The states of the two are `related`: an
input of its own moves both machines alike, and any other one leaves it where it is. -/
structure Follows (n : Machine τ κ ω) (m : Machine σ ι ο) (allowed : ι → Prop)
    (input? : ι → Option κ) (output? : ο → Option ω) (related : σ → τ → Prop) : Prop where
  own {s : σ} {t : τ} {input : ι} {share : κ} : allowed input → related s t →
    input? input = some share →
      related (m.next s input) (n.next t share) ∧
        (m.tells? s input).bind output? = n.tells? t share
  other {s : σ} {t : τ} {input : ι} : allowed input → related s t → input? input = none →
    related (m.next s input) t ∧ (m.tells? s input).bind output? = none

variable {m : Machine σ ι ο} {n : Machine τ κ ω} {allowed : ι → Prop} {input? : ι → Option κ}
  {output? : ο → Option ω} {related : σ → τ → Prop}

/-- What is told of the first input comes first. -/
theorem filterMap_transcript_cons (output? : ο → Option ω) (s : σ) (input : ι) (rest : List ι) :
    (m.transcript s (input :: rest)).filterMap output? =
      ((m.tells? s input).bind output?).toList ++
        (m.transcript (m.next s input) rest).filterMap output? := by
  rw [transcript, List.filterMap_append]
  cases m.tells? s input with
  | none => rfl
  | some told =>
      rw [Option.toList_some, List.filterMap_cons, Option.bind_some]
      cases output? told <;> rfl

/-- **What follows on every input follows on every run.** One induction serves all uses: what has to
be shown of a pair of machines is about a single input. -/
theorem Follows.run (h : n.Follows m allowed input? output? related) {inputs : List ι}
    (hallowed : ∀ input ∈ inputs, allowed input) {s : σ} {t : τ} (hst : related s t) :
    related (m.run s inputs) (n.run t (inputs.filterMap input?)) ∧
      (m.transcript s inputs).filterMap output? =
        n.transcript t (inputs.filterMap input?) := by
  induction inputs generalizing s t with
  | nil => exact ⟨hst, rfl⟩
  | cons input rest ih =>
      obtain ⟨hfirst, hrest⟩ := List.forall_mem_cons.mp hallowed
      rw [filterMap_transcript_cons]
      cases hinput : input? input with
      | none =>
          obtain ⟨hnext, htold⟩ := h.other hfirst hst hinput
          rw [htold, List.filterMap_cons_none hinput]
          exact ih hrest hnext
      | some share =>
          obtain ⟨hnext, htold⟩ := h.own hfirst hst hinput
          obtain ⟨hstates, houtputs⟩ := ih hrest hnext
          rw [htold, List.filterMap_cons_some hinput]
          exact ⟨hstates, congrArg ((n.tells? t share).toList ++ ·) houtputs⟩

end Machine

end CachedParameters
