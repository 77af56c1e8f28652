import CachedParameters.Store.Paging

/-!
# The table

A `TableStore` reads parameters from a table of items, which are made of named attributes. The
parameter of a name is the item whose key attribute is that name; the values under a path are the
items whose key attribute is the path, told apart by another attribute. Options may name that other
attribute and ask for a consistent read.
-/

namespace CachedParameters

/-- An item of a table: raw values by attribute. An attribute that has no raw value is not there. -/
abbrev Item := Dict RawValue

/-- The attribute that parameters are found by, unless said otherwise. -/
def defaultKeyAttr : String := "id"

/-- The attribute that tells the items of a path apart, unless said otherwise. -/
def defaultSortAttr : String := "sk"

/-- The attribute that holds the value, unless said otherwise. -/
def defaultValueAttr : String := "value"

/-- The name of a table and of the attributes that matter: the one that parameters are found by, the
one that tells the items of a path apart, and the one that holds the value. -/
structure TableConfig where
  tableName : String
  keyAttr : String := defaultKeyAttr
  sortAttr : String := defaultSortAttr
  valueAttr : String := defaultValueAttr
  deriving DecidableEq, Repr

/-- The first field of a description that is empty, in the order of the fields. -/
def TableConfig.blankField? (config : TableConfig) : Option TableField :=
  if config.tableName = "" then some .tableName
  else if config.keyAttr = "" then some .keyAttr
  else if config.sortAttr = "" then some .sortAttr
  else if config.valueAttr = "" then some .valueAttr
  else none

/-- A request for the items with a key: the table, the attribute that holds the key, the key, and
whether the read is to be consistent. -/
structure TableRequest where
  tableName : String
  keyAttr : String
  key : String
  consistentRead : Bool
  deriving DecidableEq, Repr

/-- The calls that a table answers: to read the item with a key, if there is one, and to read all
items with a key. Its queries are continued at positions of the type `γ`. -/
structure TableClient (κ γ : Type) where
  getItem : TableRequest → BackendOptions → Call κ (Option Item)
  query : TableRequest → BackendOptions → Pager κ γ (List Item)

/-- A table that is described completely: no field of its description is empty. -/
structure TableStore (κ γ : Type) where
  client : TableClient κ γ
  config : TableConfig
  complete : config.blankField? = none

namespace TableStore

variable {κ γ : Type}

/-- The table of a description, which must be complete. -/
def make (client : TableClient κ γ) (config : TableConfig) : Except Error (TableStore κ γ) :=
  match h : config.blankField? with
  | none => .ok ⟨client, config, h⟩
  | some field => .error (.blankTableField field)

/-- The request for a key under the given options. -/
def request (store : TableStore κ γ) (key : String) (options : BackendOptions) : TableRequest where
  tableName := store.config.tableName
  keyAttr := store.config.keyAttr
  key := key
  consistentRead := (options.flag BackendOptions.consistentReadKey).getD false

/-- The attribute that tells the items of a path apart: an option's, or else the table's. -/
def sortAttr (store : TableStore κ γ) (options : BackendOptions) : String :=
  (options.text BackendOptions.sortAttrKey).getD store.config.sortAttr

/-- Takes an attribute out of an item with the given key. What is left lacks the attribute, so it
cannot be taken out twice. -/
def takeAttr (item : Item) (attr key : String) : Except Error (RawValue × Item) :=
  match item.get? attr with
  | some value => .ok (value, item.erase attr)
  | none => .error (.noAttribute key attr)

/-- Reads the parameter of a name, which is the value attribute of the item with that key. -/
def fetchOne (store : TableStore κ γ) (name : String) (options : BackendOptions) :
    Call κ RawValue := fun s =>
  match store.client.getItem (store.request name options) options s with
  | (.error e, s) => (.error e, s)
  | (.ok none, s) => (.error (.noItem store.config.keyAttr name store.config.tableName), s)
  | (.ok (some item), s) =>
    match takeAttr item store.config.valueAttr name with
    | .error e => (.error e, s)
    | .ok (value, _) => (.ok value, s)

/-- The sub-key and the value of an item under a path. The sub-key is taken out first, so an item
whose value has the same attribute is left without one. -/
def keyedValue (sortAttr valueAttr path : String) (item : Item) :
    Except Error (String × RawValue) :=
  match takeAttr item sortAttr path with
  | .error e => .error e
  | .ok (.bytes _, _) => .error (.sortNotText sortAttr path)
  | .ok (.text subKey, item) =>
    match takeAttr item valueAttr path with
    | .error e => .error e
    | .ok (value, _) => .ok (subKey, value)

/-- Adds the values of items under their sub-keys, up to the first item that has none. -/
def addItems (sortAttr valueAttr path : String) (listing : Listing) :
    List Item → Except Error Listing
  | [] => .ok listing
  | item :: rest =>
    match keyedValue sortAttr valueAttr path item with
    | .error e => .error e
    | .ok (subKey, value) =>
      addItems sortAttr valueAttr path (listing.insert subKey value) rest

/-- Reads the values under a path, page by page. One item without a sub-key or a value fails the
listing. -/
def fetchMany (store : TableStore κ γ) (path : String) (options : BackendOptions) :
    Call κ Listing :=
  (store.client.query (store.request path options) options).fold
    (addItems (store.sortAttr options) store.config.valueAttr path) .empty none

def source (store : TableStore κ γ) : Source κ :=
  .ofSingles "table"
    (fun name options => .ofCall (store.fetchOne name options))
    (fun path options => .ofCall (store.fetchMany path options))

end TableStore

end CachedParameters
