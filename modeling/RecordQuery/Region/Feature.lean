import RecordQuery.Geometry
import RecordQuery.Json.Decode
import RecordQuery.Json.Reader.Typed

/-!
# Features of a boundary set

A feature has a shape and properties that may name it.
-/

namespace RecordQuery.Region

open Decimal (Binary)
open Json (Value)

/-- A shape as nested coordinates, not yet checked. -/
inductive Shape where
  | polygon (rings : List (List (List Binary)))
  | multiPolygon (polygons : List (List (List (List Binary))))

structure Feature where
  shape : Shape
  properties : Option (List (String × Value))

namespace Shape

def polygons : Shape → Except GeometryError (List Polygon)
  | .polygon rings => do return [← Polygon.ofRings rings]
  | .multiPolygon polygons => polygons.mapM Polygon.ofRings

end Shape

/-!
## Reading boundary sets

A boundary set is a JSON feature collection. Of a collection only the features count, of a feature
its geometry and properties, of a geometry its type and coordinates; other members are skipped.
Each of the three may also be written as an array of these parts in order.

The type of a geometry may stand behind its coordinates, so its members are gathered before they
are interpreted.
-/

open Json (Mismatch Fault Reader)
open Json.Reader
open Reading

namespace Shape

inductive Kind where
  | polygon
  | multiPolygon

namespace Kind

def names : List (String × Kind) := [("Polygon", .polygon), ("MultiPolygon", .multiPolygon)]

def decode (coordinates : Value) : Kind → Except Mismatch Shape
  | .polygon => do
    return .polygon (← coordinates.toList (Value.toList (Value.toList Value.toFloat)))
  | .multiPolygon => do
    return .multiPolygon
      (← coordinates.toList (Value.toList (Value.toList (Value.toList Value.toFloat))))

def wanted : Kind → String
  | .polygon => "struct variant Geometry::Polygon with 1 element"
  | .multiPolygon => "struct variant Geometry::MultiPolygon with 1 element"

end Kind

/-- The shape with these members, the latest first. The first `coordinates` are decoded before a
second one is seen. -/
def ofMembers (kind : Kind) (members : List (String × Value)) : Except Mismatch Shape := do
  let shape ← members.reverse.foldlM (fun shape (key, value) =>
    -- Other members count for nothing.
    if key ≠ "coordinates" then .ok shape
    else if shape.isSome then .error (.duplicateField "coordinates")
    else (kind.decode value).map some) none
  match shape with
  | some shape => return shape
  | none => throw (.missingField "coordinates")

def ofParts (kind : Kind) : List Value → Except Mismatch Shape
  | [] => .error (.wrongLength 0 kind.wanted)
  | [coordinates] => kind.decode coordinates
  | coordinates :: more => do
    discard (kind.decode coordinates)
    throw (.wrongLength (more.length + 1) "1 element in sequence")

end Shape

/-- Values inside a geometry or inside properties stand within four containers. -/
def innerValue : Reader Value := value (depthLimit - 4)

def kindReader : Reader Shape.Kind := nameOf "variant identifier" Shape.Kind.names

/-- The kind of a geometry, once known, and its other members, the latest first. -/
structure GeometryParts where
  kind : Option Shape.Kind
  members : List (String × Value)

def geometryMember (parts : GeometryParts) (key : String) : Reader GeometryParts :=
  if key = "type" then
    once "type" parts.kind.isSome
      (mapReader (fun kind => { parts with kind := some kind }) kindReader)
  else
    afterColon (mapReader (fun value => { parts with members := (key, value) :: parts.members })
      innerValue)

def geometryByName : Reader Shape :=
  checkReader
    (fun parts =>
      match parts.kind with
      | none => .error (.missingField "type")
      | some kind => Shape.ofMembers kind parts.members)
    (members geometryMember ⟨none, []⟩)

def geometryByPosition : Reader Shape := fun s =>
  match firstItem s with
  | .error fault => .error fault
  | .ok (.close _) => .error (.mismatch (.missingField "type"))
  | .ok (.item start) =>
    match kindReader start.1 with
    | .error fault => .error fault
    | .ok (kind, afterKind) =>
      match elementsFrom innerValue [] afterKind.1 with
      | .error fault => .error fault
      | .ok (parts, rest) =>
        match Shape.ofParts kind parts.reverse with
        | .error cause => .error (.mismatch cause)
        | .ok shape => .ok (shape, start.short (afterKind.below rest.left))

def geometry : Reader Shape :=
  container "internally tagged enum Geometry" (some geometryByPosition) (some geometryByName)

def properties : Reader (Option (List (String × Value))) := fun s =>
  match h : skipBlanks s with
  | [] => .error .endInValue
  | b :: rest =>
    if chr b = 'n' then
      match restOfWord ['u', 'l', 'l'] rest with
      | .error fault => .error fault
      | .ok left => .ok (none, Rest.below ⟨rest, length_lt_of_skipBlanks h⟩ left)
    else
      mapReader some (container "a map" none (some (members (member innerValue) []))) s

structure FeatureParts where
  shape : Option Shape
  properties : Option (Option (List (String × Value)))

def featureMember (parts : FeatureParts) (key : String) : Reader FeatureParts :=
  match key with
  | "geometry" =>
    once "geometry" parts.shape.isSome
      (mapReader (fun shape => { parts with shape := some shape }) geometry)
  | "properties" =>
    once "properties" parts.properties.isSome
      (mapReader (fun read => { parts with properties := some read }) properties)
  | _ => afterColon (mapReader (fun _ => parts) skip)

def featureByName : Reader Feature :=
  checkReader
    (fun parts =>
      match parts.shape with
      | none => .error (.missingField "geometry")
      | some shape => .ok ⟨shape, parts.properties.getD none⟩)
    (members featureMember ⟨none, none⟩)

def featureByPosition : Reader Feature := fun s =>
  match firstItem s with
  | .error fault => .error fault
  | .ok (.close _) => .error (.mismatch (.wrongLength 0 "struct Feature with 2 elements"))
  | .ok (.item start) =>
    match geometry start.1 with
    | .error fault => .error fault
    | .ok (shape, afterShape) =>
      match nextItem afterShape.1 with
      | .error fault => .error fault
      | .ok (.close rest) => .ok (⟨shape, none⟩, start.short (afterShape.below rest.left))
      | .ok (.item next) =>
        match properties next.1 with
        | .error fault => .error fault
        | .ok (read, afterProperties) =>
          match closeList afterProperties.1 with
          | .error fault => .error fault
          | .ok rest =>
            .ok (⟨shape, read⟩,
              start.short (afterShape.below (next.below (afterProperties.below rest.left).left)))

def feature : Reader Feature :=
  container "struct Feature" (some featureByPosition) (some featureByName)

def features : Reader (List Feature) := container "a sequence" (some (elements feature)) none

def collectionMember (read : Option (List Feature)) (key : String) :
    Reader (Option (List Feature)) :=
  if key = "features" then once "features" read.isSome (mapReader some features)
  else afterColon (mapReader (fun _ => read) skip)

def collectionByName : Reader (List Feature) :=
  checkReader
    (fun read =>
      match read with
      | none => .error (.missingField "features")
      | some features => .ok features)
    (members collectionMember none)

def collectionByPosition : Reader (List Feature) := fun s =>
  match firstItem s with
  | .error fault => .error fault
  | .ok (.close _) =>
    .error (.mismatch (.wrongLength 0 "struct FeatureCollection with 1 element"))
  | .ok (.item start) =>
    match features start.1 with
    | .error fault => .error fault
    | .ok (read, afterFeatures) =>
      match closeList afterFeatures.1 with
      | .error fault => .error fault
      | .ok rest => .ok (read, start.short (afterFeatures.below rest.left))

def collection : Reader (List Feature) :=
  container "struct FeatureCollection" (some collectionByPosition) (some collectionByName)

def parseFeatures (bytes : List UInt8) : Except Fault (List Feature) :=
  match collection bytes with
  | .error fault => .error fault
  | .ok (features, rest) => (finish rest).map fun _ => features

end RecordQuery.Region
