import CachedParameters.Proofs.Batch.Course

/-!
# Requests and the calls they make

A `Request` is one operation of a provider. The calls that a request makes are what its source has
seen of it when it is served by the watched provider from the same state. Serving it unwatched gives
the same reply and the same state.

## Main results

- `Provider.serve_watch`: being watched changes nothing, and what is seen are the exchanges.
- `Provider.exchanges_get` and the like: the exchanges of every kind of request.
-/

namespace CachedParameters

/-- An operation of a provider: to look up a name, a path or a batch of names, or to empty the
cache. -/
inductive Request where
  | get (name : String) (options : GetOptions)
  | getMultiple (path : String) (options : GetOptions)
  | getByName (parameters : List (String × Overrides)) (options : BatchOptions)
  | clear

/-- What a provider replies: the outcome of a look-up, by its kind, or nothing where the cache was
emptied. -/
inductive Reply where
  | value (outcome : Except Error ParameterValue)
  | values (outcome : Except Error PathValues)
  | batch (outcome : Except Error BatchResult)
  | cleared

namespace Provider

variable {σ : Type}

/-- Serves a request. All results are put into one type of replies, so that a run is a list of
requests. -/
def serve (p : Provider σ) (request : Request) (s : State σ) : Reply × State σ :=
  match request with
  | .get name options => (p.get name options s).map .value id
  | .getMultiple path options => (p.getMultiple path options s).map .values id
  | .getByName parameters options => (p.getByName parameters options s).map .batch id
  | .clear => (.cleared, p.clear s)

/-- The calls that a request makes: what its source sees of it. -/
def exchanges (p : Provider σ) (request : Request) (s : State σ) : List Exchange :=
  (p.watched.serve request (s.watch [])).2.world.backend.seen

/-! ### The exchanges of every kind of request -/

/-- A look-up of a name makes the calls of its inquiry. -/
theorem exchanges_get (p : Provider σ) (name : String) (options : GetOptions) (s : State σ) :
    p.exchanges (.get name options) s = p.calls (.ofName name options) s := by
  rw [exchanges, serve, get_eq_inquire, inquire_watch]
  rfl

/-- So does a look-up of a path: the calls do not depend on how a listing is gone through. -/
theorem exchanges_getMultiple (p : Provider σ) (arrangement : Arrangement) (path : String)
    (options : GetOptions) (s : State σ) :
    p.exchanges (.getMultiple path options) s = p.calls (.ofPath arrangement path options) s := by
  rw [exchanges, serve, getMultiple_eq_inquire, inquire_watch]
  rfl

/-- A batch that is refused makes no call. -/
theorem exchanges_getByName_of_reserved {p : Provider σ}
    {parameters : List (String × Overrides)} {options : BatchOptions} {s : State σ}
    (h : errorsKey ∈ (requested parameters).names) :
    p.exchanges (.getByName parameters options) s = [] := by
  rw [exchanges, serve, getByName_of_reserved h]
  rfl

/-- A batch makes the calls that it got answers to. -/
theorem exchanges_getByName {p : Provider σ} {parameters : List (String × Overrides)}
    {options : BatchOptions} {s : State σ} (h : errorsKey ∉ (requested parameters).names) :
    p.exchanges (.getByName parameters options) s =
      (p.answered parameters options s).map (·.exchange) := by
  rw [exchanges, serve, getByName_watch h]
  rfl

theorem exchanges_clear (p : Provider σ) (s : State σ) : p.exchanges .clear s = [] := rfl

/-! ### Being watched -/

/-- **Being watched changes nothing**, and what is seen of a request are its exchanges. -/
theorem serve_watch (p : Provider σ) (request : Request) (seen : List Exchange) (s : State σ) :
    p.watched.serve request (s.watch seen) =
      ((p.serve request s).1,
        (p.serve request s).2.watch (seen ++ p.exchanges request s)) := by
  cases request with
  | get name options =>
      rw [exchanges_get, serve, serve, get_eq_inquire, get_eq_inquire, inquire_watch]
      rfl
  | getMultiple path options =>
      rw [p.exchanges_getMultiple .byName, serve, serve, getMultiple_eq_inquire,
        getMultiple_eq_inquire, inquire_watch]
      rfl
  | getByName parameters options =>
      by_cases h : errorsKey ∈ (requested parameters).names
      · rw [exchanges_getByName_of_reserved h, serve, serve, getByName_of_reserved h,
          getByName_of_reserved h, List.append_nil]
        rfl
      · rw [exchanges_getByName h, serve, getByName_watch h]
        rfl
  | clear =>
      rw [exchanges_clear, List.append_nil]
      rfl

end Provider

end CachedParameters
