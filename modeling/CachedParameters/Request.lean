import CachedParameters.Document
import CachedParameters.Time
import CachedParameters.Value

/-!
# Options of a request

`BackendOptions` are passed through to the backend and are free in form; the `keys` that the stores
know are named here. `BackendOptions.fingerprint` is their text form, which tells requests apart in
a cache and orders the groups of a batch.

`GetOptions` belong to a look-up of one name or one path, `BatchOptions` (`GetByNameOptions`) and
`Overrides` (`ParameterOverrides`) to a batch and to its single names. All three say how old a
cached value may be, how values are decoded, and whether the cache is passed over. The flag `strict`
stands for `raise_on_transform_error` where it belongs to a listing, and for `raise_on_error` where
it belongs to a batch.
-/

namespace CachedParameters

/-- Options for a backend, by key. The stores look at the keys below, and a client may know more. -/
abbrev BackendOptions := Dict Document

namespace BackendOptions

/-- Whether values are decrypted. The option of a call goes before the setting of the store. -/
def decryptKey : String := "decrypt"

/-- Whether a listing descends below the first level. -/
def recursiveKey : String := "recursive"

/-- The attribute that tells the items of a path apart. -/
def sortAttrKey : String := "sort_attr"

/-- Whether a table is read with strong consistency. -/
def consistentReadKey : String := "consistent_read"

/-- The exact version of a secret that is asked for. -/
def versionIdKey : String := "version_id"

/-- The staging label of a version of a secret. -/
def versionStageKey : String := "version_stage"

/-- The value of an option that holds a truth value. -/
def flag (options : BackendOptions) (key : String) : Option Bool :=
  (options.get? key).bind Document.asBool?

/-- The value of an option that holds a text. -/
def text (options : BackendOptions) (key : String) : Option String :=
  (options.get? key).bind Document.asText?

/-- The options with those of `overrides` put in their place. -/
def merged (options overrides : BackendOptions) : BackendOptions :=
  options.insertAll overrides.entries

/-- The options with the decrypt flag set. -/
def withDecrypt (options : BackendOptions) (decrypt : Bool) : BackendOptions :=
  options.insert decryptKey (.bool decrypt)

/-- The text form of the options: nothing for none, and else their document. The entries ascend, so
it does not depend on the order in which the options were set. -/
def fingerprint (options : BackendOptions) : String :=
  if options.entries.isEmpty then "" else (Document.ofDict options).render

/-- Whether two sets of options are equal, their real numbers compared as numbers. The two zeros are
equal, though their texts differ, so equal options may have different fingerprints. -/
def equals (a b : BackendOptions) : Bool := Document.equals (.ofDict a) (.ofDict b)

end BackendOptions

/-! ### Options of the operations -/

/-- Options of a look-up of one name or one path. Unless an age is given, that of the provider is
allowed. If `strict`, a listing fails as a whole when one of its values cannot be decoded; a single
look-up does so anyway. -/
structure GetOptions where
  maxAge : Option Duration := none
  transform : Transform := .plain
  forceFetch : Bool := false
  strict : Bool := false
  backend : BackendOptions := .empty

/-- Whether two sets of options are equal. -/
def GetOptions.equals (a b : GetOptions) : Bool :=
  a.maxAge == b.maxAge && a.transform == b.transform && a.forceFetch == b.forceFetch &&
    a.strict == b.strict && BackendOptions.equals a.backend b.backend

/-- Options of a batch, which hold for all names that have no overrides. If `strict`, the batch
fails as a whole when one of its names does; that is the default, unlike in a listing. -/
structure BatchOptions where
  maxAge : Option Duration := none
  transform : Transform := .plain
  forceFetch : Bool := false
  strict : Bool := true
  backend : BackendOptions := .empty

/-- Options of one name in a batch, which go before those of the batch. Whether the cache is passed
over is decided for the batch as a whole. -/
structure Overrides where
  maxAge : Option Duration := none
  transform : Option Transform := none
  decrypt : Option Bool := none
  deriving DecidableEq, Repr

namespace BatchOptions

/-- The options for one name of the batch: its overrides in place of those of the batch. The decrypt
flag is written into the backend options, so that it tells requests apart. -/
def forName (options : BatchOptions) (overrides : Overrides) : GetOptions where
  maxAge := overrides.maxAge.or options.maxAge
  transform := overrides.transform.getD options.transform
  forceFetch := options.forceFetch
  backend :=
    match overrides.decrypt with
    | some decrypt => BackendOptions.withDecrypt options.backend decrypt
    | none => options.backend

end BatchOptions

end CachedParameters
