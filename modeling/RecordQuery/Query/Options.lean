import RecordQuery.Geometry
import RecordQuery.Json.Decode
import RecordQuery.Json.Reader.Basic
import RecordQuery.Query.Filter

/-!
# Options of terms

The options of a term are a record: an object with named fields, or an array with the fields in
their order. An object's members are read in key order before a missing field is reported.
-/

namespace RecordQuery.Query

/-!
## Errors of queries

Everything that can be wrong with a query, each cause with the place where it stands.
-/

inductive Malformation where
  | documentNotObject
  | searchNotString
  | unexpectedKey (key : String)
  | filterNotObject
  | operatorCount (found : Nat)
  | membersNotList
  | emptyGroup
  | noFields
  | categoryCount
  | emptyArea
  | options (cause : Json.Mismatch)
  | geometry (cause : GeometryError)
deriving DecidableEq

namespace Malformation

def message : Malformation → String
  | .documentNotObject => "query must be a JSON object"
  | .searchNotString => "expected a string"
  | .unexpectedKey key => s!"unexpected key '{key}'"
  | .filterNotObject => "expected an object with a single operator key"
  | .operatorCount found => s!"expected exactly one operator key, found {found}"
  | .membersNotList => "expected an array of groups or terms"
  | .emptyGroup => "group must have at least one member"
  | .noFields => "fields must not be empty"
  | .categoryCount => "expected exactly one category key"
  | .emptyArea => "area must contain at least one polygon"
  | .options cause => cause.message
  | .geometry cause => cause.message

end Malformation

inductive Error where
  | invalidJson (cause : Json.Fault)
  | malformed (path : String) (cause : Malformation)
  | unsupportedOperator (path : String) (operator : String)
  | unknownRegion (category : String) (name : String)
  | unsupportedVersion (version : String)
deriving DecidableEq

namespace Error

def placeText (path : String) : String := if path.isEmpty then "<root>" else path

def message : Error → String
  | .invalidJson cause => s!"query is not valid JSON: {cause.message}"
  | .malformed path cause => s!"malformed query at {placeText path}: {cause.message}"
  | .unsupportedOperator path operator => s!"unsupported operator '{operator}' at {path}"
  | .unknownRegion category name => s!"unknown region '{name}' in category '{category}'"
  | .unsupportedVersion version => s!"unsupported query schema version: {version}"

end Error

/-! ## Options -/

open Json (Value Mismatch Number)

/-- A record that is read field by field into a state, from which the result is made. -/
structure RecordShape (σ α : Type) where
  title : String
  start : σ
  fields : List (String × (σ → Value → Except Mismatch σ))
  /-- Makes the result; the function says how a missing field, given by place and name, is
  reported. -/
  finish : (Nat → String → Mismatch) → σ → Except Mismatch α

namespace RecordShape

variable {σ α : Type}

def fieldNames (shape : RecordShape σ α) : List String := shape.fields.map (·.1)

def setMember (shape : RecordShape σ α) (state : σ) (member : String × Value) :
    Except Mismatch σ :=
  match shape.fields.find? (·.1 == member.1) with
  | some (_, set) => set state member.2
  | none => .error (.unknownField member.1 shape.fieldNames)

def setInOrder : List (String × (σ → Value → Except Mismatch σ)) → List Value → σ →
    Except Mismatch σ
  | (_, set) :: fields, value :: values, state => do setInOrder fields values (← set state value)
  | _, _, state => .ok state

def decode (shape : RecordShape σ α) : Value → Except Mismatch α
  | .object members => do
    let state ← members.foldlM shape.setMember shape.start
    shape.finish (fun _ field => .missingField field) state
  | .array values => do
    let state ← setInOrder shape.fields values shape.start
    let count := shape.fields.length
    let result ← shape.finish
      (fun index _ => .wrongLength index s!"struct {shape.title} with {count} elements") state
    if count < values.length then throw (.wrongLength values.length "fewer elements in array")
    return result
  | other => .error (other.mismatch s!"struct {shape.title}")

end RecordShape

def required {α : Type} (missing : Nat → String → Mismatch) (index : Nat) (field : String) :
    Option α → Except Mismatch α
  | some value => .ok value
  | none => .error (missing index field)

def toFields : Value → Except Mismatch (List String) := Value.toList Value.toText

def fieldsAndValue {α : Type} (title : String) (toValue : Value → Except Mismatch α) :
    RecordShape (Option (List String) × Option α) (List String × α) where
  title := title
  start := (none, none)
  fields :=
    [("fields", fun state v => do return (some (← toFields v), state.2)),
     ("value", fun state v => do return (state.1, some (← toValue v)))]
  finish missing state := do
    return (← required missing 0 "fields" state.1, ← required missing 1 "value" state.2)

/-- Bounds belong to a range unless it is said that they do not. -/
def rangeShape : RecordShape (Option (List String) × NumberRange) NumberRange where
  title := "NumberRange"
  start := (none, ⟨[], none, true, none, true⟩)
  fields :=
    [("fields", fun state v => do return (some (← toFields v), state.2)),
     ("less_than", fun state v => do
        return (state.1, { state.2 with upper := ← v.toOption Value.toNumber })),
     ("less_than_inclusive", fun state v => do
        return (state.1, { state.2 with upperIncluded := ← v.toFlag })),
     ("greater_than", fun state v => do
        return (state.1, { state.2 with lower := ← v.toOption Value.toNumber })),
     ("greater_than_inclusive", fun state v => do
        return (state.1, { state.2 with lowerIncluded := ← v.toFlag }))]
  finish missing state := do
    return { state.2 with fields := ← required missing 0 "fields" state.1 }

def presenceShape : RecordShape (List String × Bool) (List String × Bool) where
  title := "Exists"
  start := ([], false)
  fields :=
    [("fields", fun state v => do return (← toFields v, state.2)),
     ("geo_field", fun state v => do return (state.1, ← v.toFlag))]
  finish _ state := .ok state

/-- The radius is zero metres unless given. -/
def nearShape : RecordShape (Option Number × Option Number × Number × String) NearPoint where
  title := "GeoPoint"
  start := (none, none, Number.zero, "m")
  fields :=
    [("latitude", fun (_, lon, radius, unit) v => do
        return (some (← v.toNumber), lon, radius, unit)),
     ("longitude", fun (lat, _, radius, unit) v => do
        return (lat, some (← v.toNumber), radius, unit)),
     ("radius", fun (lat, lon, _, unit) v => do return (lat, lon, ← v.toNumber, unit)),
     ("radius_unit", fun (lat, lon, radius, _) v => do return (lat, lon, radius, ← v.toText))]
  finish missing state := do
    let latitude ← required missing 0 "latitude" state.1
    let longitude ← required missing 1 "longitude" state.2.1
    return ⟨latitude, longitude, state.2.2.1, state.2.2.2⟩

/-- The only member of an object of texts. -/
def decodeNamedArea : Value → Except Malformation NamedArea
  | .object members =>
    match members.mapM fun member => do return (member.1, ← member.2.toText) with
    | .error cause => .error (.options cause)
    | .ok [(category, name)] => .ok ⟨category, name⟩
    | .ok _ => .error .categoryCount
  | other => .error (.options (other.mismatch "a map"))

def toCoordinates : Value → Except Mismatch Coordinates :=
  Value.toList (Value.toList (Value.toList (Value.toList Value.toNumber)))

def degrees (coordinates : Coordinates) : List (List (List (List Decimal.Binary))) :=
  coordinates.map fun polygon => polygon.map fun ring => ring.map fun position =>
    position.map Number.toBinary

def CustomArea.ofCoordinates (coordinates : Coordinates) : Except Malformation CustomArea :=
  match Area.ofCoordinates (degrees coordinates) with
  | .error cause => .error (.geometry cause)
  | .ok area => if area.isEmpty then .error .emptyArea else .ok ⟨coordinates, area⟩

namespace Term

def options {α : Type} (decoded : Except Mismatch α) : Except Malformation α :=
  decoded.mapError .options

def needFields (fields : List String) : Except Malformation Unit :=
  if fields.isEmpty then .error .noFields else .ok ()

def decode (value : Value) : TermKind → Except Malformation Term
  | .stringEquals => do
    let (fields, text) ← options ((fieldsAndValue "StringEquals" Value.toText).decode value)
    needFields fields
    return .stringEquals fields text
  | .stringContains => do
    let (fields, text) ← options ((fieldsAndValue "StringContains" Value.toText).decode value)
    return .stringContains fields text
  | .numberEquals => do
    let (fields, number) ← options ((fieldsAndValue "NumberEquals" Value.toNumber).decode value)
    needFields fields
    return .numberEquals fields number
  | .numberRange => do
    let range ← options (rangeShape.decode value)
    needFields range.fields
    return .numberRange range
  | .presence => do
    let (fields, ofGeo) ← options (presenceShape.decode value)
    if !ofGeo then needFields fields
    return .presence fields ofGeo
  | .nearPoint => do return .nearPoint (← options (nearShape.decode value))
  | .namedArea => do return .namedArea (← decodeNamedArea value)
  | .customArea => do
    let coordinates ← options (toCoordinates value)
    return .customArea (← CustomArea.ofCoordinates coordinates)

end Term

end RecordQuery.Query
