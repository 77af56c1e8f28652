import CachedParameters.Proofs.Provider.History
import CachedParameters.Proofs.Source.Truthful

/-!
# Where delivered values come from

The steps of a run are counted, and `Provider.pastAt` is the provider before one of them. Over a
truthful source, what the cache keeps under a key was genuine at the last step that retrieved
something under that key. The entry is stamped with the time of that step, and the step only moves
forward as the run goes on, whether the cache is passed over, emptied or filled by a batch in
between.

The invariant is `Provider.Traced`. A request keeps it by `Provider.serve_cache`, and a run by
induction.

## Main results

- `Provider.traced`: what the cache keeps was genuine when it was last retrieved.
- `Provider.cached?_origin`: so was what the cache serves, and no longer ago than the age allowed.
- `Provider.Delivered.traced`: so was the value that a look-up delivers.
- `Provider.Delivered.origin_le`: look-ups under one key are traced forward.
- `Provider.inquire_genuine`, `Provider.getByName_genuine`: all that is delivered was genuine at
  some step.
-/

namespace CachedParameters

namespace Provider

variable {σ γ α : Type}

/-- The provider before a step of a run; behind the last step, the provider at its end. -/
def pastAt (p : Provider σ) (world : World σ) (steps : List (Step σ)) (n : ℕ) : Past σ :=
  p.run world (steps.take n)

/-- The world before a step of a run. -/
def worldAt (p : Provider σ) (world : World σ) (steps : List (Step σ)) (n : ℕ) : World σ :=
  (p.pastAt world steps n).state.world

/-- Whether a step retrieves something under a key. -/
def retrieves (p : Provider σ) (key : CacheKey) (s : State σ) : Step σ → Bool
  | .serve request =>
    (request.retrievals p.source.name (p.exchanges request s)).any fun retrieval =>
      retrieval.key = key
  | .backend _ | .clock _ => false

/-- The last step before another one that retrieved something under a key. -/
def retrievedAt (p : Provider σ) (world : World σ) (steps : List (Step σ)) (key : CacheKey) :
    ℕ → ℕ
  | 0 => 0
  | n + 1 =>
    if (steps[n]?).any (p.retrieves key (p.pastAt world steps n).state) then n
    else p.retrievedAt world steps key n

variable {p : Provider σ} {world : World σ} {steps : List (Step σ)} {n : ℕ} {key : CacheKey}

/-! ### Steps of a run -/

theorem pastAt_succ {step : Step σ} (h : steps[n]? = some step) :
    p.pastAt world steps (n + 1) = p.step (p.pastAt world steps n) step := by
  rw [pastAt, pastAt, List.take_add_one, h, Option.toList_some]
  exact Machine.run_append_singleton ..

theorem pastAt_succ_of_none (h : steps[n]? = none) :
    p.pastAt world steps (n + 1) = p.pastAt world steps n := by
  rw [pastAt, pastAt, List.take_add_one, h, Option.toList_none, List.append_nil]

/-- At the end of a run all of its steps were taken. -/
theorem pastAt_length (p : Provider σ) (world : World σ) (steps : List (Step σ)) :
    p.pastAt world steps steps.length = p.run world steps := by
  rw [pastAt, List.take_length]

/-- What is kept under a key after a request was retrieved by it; otherwise the request retrieved
nothing under the key, and it was kept before. -/
theorem retrieved_or_kept_of_serve {request : Request} {s : State σ} {entry : CacheEntry}
    (h : (p.serve request s).2.cache.find? key = some entry) :
    (p.retrieves key s (.serve request) = true ∧
        ∃ retrieval ∈ request.retrievals p.source.name (p.exchanges request s),
          retrieval.key = key ∧ retrieval.entry = entry) ∨
      p.retrieves key s (.serve request) = false ∧ s.cache.find? key = some entry := by
  by_cases hclear : request = .clear
  · rw [hclear] at h
    exact absurd h.symm (Option.some_ne_none entry)
  · replace h := (congrArg (·.find? key) (serve_cache p hclear s)).symm.trans h
    rw [find?_foldl_retain] at h
    cases hlast : (request.retrievals p.source.name (p.exchanges request s)).reverse.find?
        fun retrieval => retrieval.key = key with
    | none =>
        rw [hlast] at h
        refine .inr ⟨List.any_eq_false.mpr fun retrieval hmem => ?_, h⟩
        exact List.find?_eq_none.mp hlast retrieval (List.mem_reverse.mpr hmem)
    | some last =>
        rw [hlast] at h
        have hmem := List.mem_reverse.mp (List.mem_of_find?_eq_some hlast)
        have hkey := List.find?_some hlast
        exact .inl ⟨List.any_eq_true.mpr ⟨last, hmem, hkey⟩, last, hmem, of_decide_eq_true hkey,
          Option.some.inj h⟩

/-- A step that retrieves something under a key is the last one that did. -/
theorem retrievedAt_succ_of_retrieves {step : Step σ} (hstep : steps[n]? = some step)
    (h : p.retrieves key (p.pastAt world steps n).state step = true) :
    p.retrievedAt world steps key (n + 1) = n := by
  rw [retrievedAt, hstep, Option.any_some, if_pos h]

theorem retrievedAt_succ_of_not_retrieves {step : Step σ} (hstep : steps[n]? = some step)
    (h : p.retrieves key (p.pastAt world steps n).state step = false) :
    p.retrievedAt world steps key (n + 1) = p.retrievedAt world steps key n := by
  rw [retrievedAt, hstep, Option.any_some, h, if_neg Bool.false_ne_true]

/-- The last step before another one does not lie behind it. -/
theorem retrievedAt_le (n : ℕ) : p.retrievedAt world steps key n ≤ n := by
  induction n with
  | zero => exact le_rfl
  | succ n ih =>
      rw [retrievedAt]
      split
      · exact n.le_succ
      · exact ih.trans n.le_succ

/-- **The last step that retrieved something only moves forward.** -/
theorem retrievedAt_monotone (p : Provider σ) (world : World σ) (steps : List (Step σ))
    (key : CacheKey) : Monotone (p.retrievedAt world steps key) := by
  refine monotone_nat_of_le_succ fun n => ?_
  rw [retrievedAt.eq_def p world steps key (n + 1)]
  dsimp only
  split
  · exact retrievedAt_le n
  · exact le_rfl

/-! ### Deliveries -/

/-- A step of a run looked up a name, and this delivered a value. -/
structure Delivered (p : Provider σ) (world : World σ) (steps : List (Step σ)) (n : ℕ)
    (name : String) (options : GetOptions) (value : ParameterValue) : Prop where
  step : steps[n]? = some (.serve (.get name options))
  reply : (p.get name options (p.pastAt world steps n).state).1 = .ok value

/-- The step that a look-up is traced to: the last one that retrieved something for its key, the
look-up itself included. -/
def origin (p : Provider σ) (world : World σ) (steps : List (Step σ)) (n : ℕ) : ℕ :=
  match steps[n]? with
  | some (.serve (.get name options)) =>
    p.retrievedAt world steps (p.singleKey name options) (n + 1)
  | _ => n

/-- A look-up is traced to the last step that retrieved something for its key. -/
theorem Delivered.origin_eq {name : String} {options : GetOptions} {value : ParameterValue}
    (h : p.Delivered world steps n name options value) :
    p.origin world steps n = p.retrievedAt world steps (p.singleKey name options) (n + 1) := by
  rw [origin, h.step]

/-- **Look-ups under one key are traced forward.** Both are traced to the last retrieval of the key
before them, and the later one cannot have an earlier last retrieval. -/
theorem Delivered.origin_le {name : String} {options : GetOptions} {value : ParameterValue}
    (h : p.Delivered world steps n name options value) {m : ℕ} {other : String}
    {later : GetOptions} {newer : ParameterValue}
    (hlater : p.Delivered world steps m other later newer)
    (hkey : p.singleKey name options = p.singleKey other later) (hle : n ≤ m) :
    p.origin world steps n ≤ p.origin world steps m := by
  rw [h.origin_eq, hlater.origin_eq, hkey]
  exact p.retrievedAt_monotone world steps _ (Nat.succ_le_succ hle)

/-! ### The invariant -/

section Truthful

variable {contents : σ → γ} {reads : γ → String → BackendOptions → RawValue → Prop}
  {lists : γ → String → BackendOptions → Listing → Prop}

/-- What belongs under a key could be read in a world. -/
def GenuineIn (p : Provider σ) (contents : σ → γ)
    (reads : γ → String → BackendOptions → RawValue → Prop)
    (lists : γ → String → BackendOptions → Listing → Prop) (origin : World σ) :
    CacheKey → Cached → Prop :=
  Genuine p.source.name (reads (contents origin.backend)) (lists (contents origin.backend))

/-- What the cache keeps before a step was genuine when it was last retrieved, and is stamped with
the time of that. -/
def Traced (p : Provider σ) (contents : σ → γ)
    (reads : γ → String → BackendOptions → RawValue → Prop)
    (lists : γ → String → BackendOptions → Listing → Prop) (world : World σ)
    (steps : List (Step σ)) (n : ℕ) : Prop :=
  ∀ key entry, (p.pastAt world steps n).state.cache.find? key = some entry →
    p.retrievedAt world steps key n < n ∧
      p.GenuineIn contents reads lists
        (p.worldAt world steps (p.retrievedAt world steps key n)) key entry.content ∧
      entry.storedAt = (p.worldAt world steps (p.retrievedAt world steps key n)).now

/-- A step that neither touches the cache nor retrieves anything leaves it traced. -/
theorem Traced.of_unchanged (h : p.Traced contents reads lists world steps n)
    (hcache : (p.pastAt world steps (n + 1)).state.cache = (p.pastAt world steps n).state.cache)
    (hnot : ∀ key, p.retrievedAt world steps key (n + 1) = p.retrievedAt world steps key n) :
    p.Traced contents reads lists world steps (n + 1) := by
  intro key entry hentry
  rw [hcache] at hentry
  obtain ⟨hlt, horigin⟩ := h key entry hentry
  rw [hnot key]
  exact ⟨hlt.trans n.lt_succ_self, horigin⟩

/-- A request leaves the cache traced. What it retrieves is genuine in the world of this step, and
every other entry is kept with the step that it was traced to. -/
theorem Traced.serve (hsource : p.source.Truthful contents reads lists)
    (h : p.Traced contents reads lists world steps n) {request : Request}
    (hstep : steps[n]? = some (.serve request)) :
    p.Traced contents reads lists world steps (n + 1) := by
  intro key entry hentry
  rw [pastAt_succ hstep] at hentry
  rcases retrieved_or_kept_of_serve hentry with ⟨hretrieves, retrieval, hmem, hkey, rfl⟩ |
    ⟨hnot, hkept⟩
  · rw [retrievedAt_succ_of_retrieves hstep hretrieves]
    have hgenuine := hsource.genuine_of_mem_retrievals hmem
    rw [hkey] at hgenuine
    exact ⟨n.lt_succ_self, hgenuine⟩
  · obtain ⟨hlt, horigin⟩ := h key entry hkept
    rw [retrievedAt_succ_of_not_retrieves hstep hnot]
    exact ⟨hlt.trans n.lt_succ_self, horigin⟩

/-- **What the cache keeps was genuine when it was last retrieved**, at every point of a run. -/
theorem traced (hsource : p.source.Truthful contents reads lists) (world : World σ)
    (steps : List (Step σ)) (n : ℕ) : p.Traced contents reads lists world steps n := by
  induction n with
  | zero => exact fun key entry hentry => absurd hentry.symm (Option.some_ne_none entry)
  | succ n ih =>
      cases hstep : steps[n]? with
      | none =>
          refine ih.of_unchanged ?_ fun key => ?_
          · rw [pastAt_succ_of_none hstep]
          · rw [retrievedAt, hstep, Option.any_none, if_neg Bool.false_ne_true]
      | some step =>
          cases step with
          | serve request => exact ih.serve hsource hstep
          | backend change =>
              refine ih.of_unchanged ?_ fun key => retrievedAt_succ_of_not_retrieves hstep rfl
              rw [pastAt_succ hstep]
              rfl
          | clock now =>
              refine ih.of_unchanged ?_ fun key => retrievedAt_succ_of_not_retrieves hstep rfl
              rw [pastAt_succ hstep]
              rfl

/-! ### What is delivered -/

/-- **What the cache serves was genuine when it was last retrieved**, which is no longer ago than
the age allowed. -/
theorem cached?_origin (hsource : p.source.Truthful contents reads lists) {forceFetch : Bool}
    {maxAge : Option Duration} {pick : Cached → Option α} {found : α}
    (h : p.cached? key forceFetch maxAge pick (p.pastAt world steps n).state = some found) :
    p.retrievedAt world steps key n < n ∧
      (∃ content, pick content = some found ∧
        p.GenuineIn contents reads lists
          (p.worldAt world steps (p.retrievedAt world steps key n)) key content) ∧
      (p.worldAt world steps n).now.since
          (p.worldAt world steps (p.retrievedAt world steps key n)).now <
        maxAge.getD p.maxAge := by
  rw [cached?] at h
  split at h
  · cases h
  · obtain ⟨entry, hfresh, hpick⟩ := Option.bind_eq_some_iff.mp h
    obtain ⟨hkept, hyoung⟩ := Option.filter_eq_some_iff.mp hfresh
    obtain ⟨hlt, hgenuine, htime⟩ := traced hsource world steps n key entry hkept
    have hage := of_decide_eq_true hyoung
    rw [htime] at hage
    exact ⟨hlt, ⟨entry.content, hpick, hgenuine⟩, hage⟩

section Inquiries

variable {ρ : Type} {q : Inquiry ρ α} {found : α}

/-- A request that is an inquiry retrieves nothing if the cache serves that. -/
theorem retrieves_of_known {request : Request} {reply : Except Error α → Reply}
    (hposes : request.Poses q reply) {s : State σ} (h : p.known? q s = some found)
    (key : CacheKey) : p.retrieves key s (.serve request) = false := by
  rw [retrieves, hposes.retrievals_of_known h]
  rfl

/-- If it is successful otherwise, it retrieves something under its key. -/
theorem retrieves_of_unknown {request : Request} {reply : Except Error α → Reply}
    (hposes : request.Poses q reply) {s : State σ} (h : p.known? q s = none)
    (hok : (p.inquire q s).1 = .ok found) :
    p.retrieves (q.key p.source.name) s (.serve request) = true := by
  have hbrought : (p.bring q s.world).1 = .ok found := (inquire_of_unknown h).1.symm.trans hok
  rw [retrieves, hposes.retrievals_of_unknown h, hbrought]
  exact List.any_eq_true.mpr ⟨_, List.mem_singleton_self _, decide_eq_true rfl⟩

/-- What the cache serves an inquiry was genuine at an earlier step. -/
theorem genuine_of_known (hsource : p.source.Truthful contents reads lists)
    (h : p.known? q (p.pastAt world steps n).state = some found) :
    ∃ i ≤ n, p.GenuineIn contents reads lists (p.worldAt world steps i)
      (q.key p.source.name) (q.keep found) := by
  obtain ⟨hlt, ⟨content, hpick, hgenuine⟩, -⟩ := cached?_origin hsource h
  obtain rfl := q.kept?_eq_some_iff.mp hpick
  exact ⟨_, hlt.le, hgenuine⟩

/-- **What an inquiry delivers was genuine** at some step up to it: at this one if it was fetched,
and if the cache served it at the step that the entry is traced to. -/
theorem inquire_genuine (hsource : p.source.Truthful contents reads lists)
    (hbrings : BringsGenuine p q contents reads lists)
    (hok : (p.inquire q (p.pastAt world steps n).state).1 = .ok found) :
    ∃ i ≤ n, p.GenuineIn contents reads lists (p.worldAt world steps i)
      (q.key p.source.name) (q.keep found) := by
  rcases hbrings.served_or_genuine hok with hknown | hgenuine
  · exact genuine_of_known hsource hknown
  · exact ⟨n, le_rfl, hgenuine⟩

end Inquiries

/-- **The value that a look-up delivers was genuine at the step that it is traced to**: that of the
look-up, or an earlier one no longer ago than the age allowed. -/
theorem Delivered.traced (hsource : p.source.Truthful contents reads lists) {name : String}
    {options : GetOptions} {value : ParameterValue}
    (h : p.Delivered world steps n name options value) :
    p.GenuineIn contents reads lists (p.worldAt world steps (p.origin world steps n))
        (p.singleKey name options) (.value value) ∧
      (p.origin world steps n = n ∨ p.origin world steps n < n ∧
        (p.worldAt world steps n).now.since
            (p.worldAt world steps (p.origin world steps n)).now <
          options.maxAge.getD p.maxAge) := by
  have horigin : p.origin world steps n = p.retrievedAt world steps
    ((Inquiry.ofName name options).key p.source.name) (n + 1) := h.origin_eq
  obtain ⟨hstep, hok⟩ := h
  rw [get_eq_inquire] at hok
  have hposes := Request.Poses.ofName name options
  cases hcached : p.known? (.ofName name options) (p.pastAt world steps n).state with
  | some found =>
      rw [retrievedAt_succ_of_not_retrieves hstep (retrieves_of_known hposes hcached _)] at horigin
      rw [inquire_of_known hcached] at hok
      obtain rfl := Except.ok.inj hok
      obtain ⟨hlt, ⟨content, hpick, hgenuine⟩, hage⟩ := cached?_origin hsource hcached
      obtain rfl := (Inquiry.ofName name options).kept?_eq_some_iff.mp hpick
      rw [← horigin] at hlt hgenuine hage
      exact ⟨hgenuine, .inr ⟨hlt, hage⟩⟩
  | none =>
      rw [retrievedAt_succ_of_retrieves hstep (retrieves_of_unknown hposes hcached hok)] at horigin
      rw [horigin]
      refine ⟨?_, .inl rfl⟩
      rcases (hsource.bringsGenuine_ofName name options).served_or_genuine hok with
        hserved | hgenuine
      · rw [hcached] at hserved
        cases hserved
      · exact hgenuine

/-- What a batch delivers for a name was genuine, for the options of the name, at some step up to
it. -/
theorem getByName_genuine (hsource : p.source.Truthful contents reads lists)
    {parameters : List (String × Overrides)} {options : BatchOptions} {result : BatchResult}
    (hok : (p.getByName parameters options (p.pastAt world steps n).state).1 = .ok result)
    {name : String} {overrides : Overrides} {value : ParameterValue}
    (hname : (requested parameters).get? name = some overrides)
    (hvalue : result.values.get? name = some value) :
    ∃ i ≤ n, p.GenuineIn contents reads lists (p.worldAt world steps i)
      (p.singleKey name (options.forName overrides)) (.value value) := by
  rcases hsource.getByName_served_or_genuine hok hname hvalue with hcached | hgenuine
  · exact genuine_of_known (q := .ofName name (options.forName overrides)) hsource hcached
  · exact ⟨n, le_rfl, hgenuine⟩

end Truthful

end Provider

end CachedParameters
