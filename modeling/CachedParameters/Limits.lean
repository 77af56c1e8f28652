import CachedParameters.Document.Shape
import CachedParameters.Document

/-!
# Service limits

`Limits` is a record of the kind that services keep in a parameter and read with `deserialize`: a
rate, an optional burst and the regions they hold for. It is read from an object, whose other
members do not matter, or from a list of the three fields in their order.
-/

namespace CachedParameters

/-- The limits of a service: requests per second, requests at once if they are limited, and where
the limits hold. -/
structure Limits where
  rps : Int
  burst : Option Int
  regions : List String
  deriving DecidableEq, Repr

namespace Limits

/-- The fields of a record that have been read so far. A missing burst is read as none, so only the
other two can turn out to be missing. -/
structure Fields where
  rps : Option Int := none
  burst : Option Int := none
  regions : Option (List String) := none

/-- Takes one member of an object into the fields read so far; other names are passed over. -/
def Fields.take (fields : Fields) (name : String) (d : Document) :
    Except ShapeFault Fields :=
  if name = "rps" then
    match Reading.count d with
    | .ok value => .ok { fields with rps := some value }
    | .error fault => .error fault
  else if name = "burst" then
    match Reading.optional .count d with
    | .ok value => .ok { fields with burst := value }
    | .error fault => .error fault
  else if name = "regions" then
    match Reading.list .text d with
    | .ok value => .ok { fields with regions := some value }
    | .error fault => .error fault
  else .ok fields

/-- Takes all members of an object, up to the first one that does not have the shape of its
field. -/
def Fields.takeAll (fields : Fields) : List (String × Document) → Except ShapeFault Fields
  | [] => .ok fields
  | (name, d) :: rest =>
    match fields.take name d with
    | .ok fields => fields.takeAll rest
    | .error fault => .error fault

/-- The record, once every field that has to be there is. -/
def Fields.finish (fields : Fields) : Except ShapeFault Limits :=
  match fields.rps, fields.regions with
  | some rps, some regions => .ok ⟨rps, fields.burst, regions⟩
  | none, _ => .error (.missingField "rps")
  | some _, none => .error (.missingField "regions")

/-- Refuses a list that ends before the field number `length`. -/
def tooShort (length : Nat) : ShapeFault := .tooShort length "struct Limits with 3 elements"

/-- Reads the record from the elements of a list. -/
def ofElements : List Document → Except ShapeFault Limits
  | [] => .error (tooShort 0)
  | rps :: rest =>
    match Reading.count rps with
    | .error fault => .error fault
    | .ok rps =>
      match rest with
      | [] => .error (tooShort 1)
      | burst :: rest =>
        match Reading.optional .count burst with
        | .error fault => .error fault
        | .ok burst =>
          match rest with
          | [] => .error (tooShort 2)
          | regions :: extra =>
            match Reading.list .text regions with
            | .error fault => .error fault
            | .ok regions =>
              if extra.isEmpty then .ok ⟨rps, burst, regions⟩
              else .error (.tooLong (3 + extra.length))

/-- Reads the record from a document: an object by the names of its members, or a list by their
places. -/
def reading : Reading Limits
  | .object members =>
    match Fields.takeAll {} members with
    | .ok fields => fields.finish
    | .error fault => .error fault
  | .list elements => ofElements elements
  | d => d.mistyped "struct Limits"

/-- The record as an object, its fields in their order. -/
def toDocument (limits : Limits) : Document :=
  .object [("rps", .integer limits.rps),
    ("burst", match limits.burst with | some burst => .integer burst | none => .null),
    ("regions", .list (limits.regions.map .text))]

end Limits

end CachedParameters
