import RecordQuery.Digest.Sha1
import RecordQuery.Query.Document

/-!
# Canonical text and cache key

A filter as one line of text in which the order of members, fields and holes is settled by
sorting, and the digest of that text as the key under which answers are kept.
-/

namespace RecordQuery.Query

open Json (Number)

/-- The parts in the order of their characters, with a separator between them. -/
def sortedJoin (separator : String) (parts : List String) : String :=
  separator.intercalate (parts.mergeSort fun a b => decide (a ≤ b))

def fieldsText (fields : List String) : String := sortedJoin "," fields

/-- Latitude before longitude; positions without both are left out. -/
def ringText (ring : List (List Number)) : String :=
  ",".intercalate (ring.filterMap fun position =>
    match position with
    | lon :: lat :: _ => some ("[" ++ lat.render ++ "," ++ lon.render ++ "]")
    | _ => none)

def polygonText : List (List (List Number)) → String
  | [] => ""
  | [outer] => ringText outer
  | outer :: holes => ringText outer ++ "/[" ++ sortedJoin "|" (holes.map ringText) ++ "]"

def coordinatesText (coordinates : Coordinates) : String :=
  ";".intercalate (coordinates.map polygonText)

def boundText (sign : String) (included : Bool) : Option Number → String
  | some bound => sign ++ (if included then "=" else "") ++ bound.render
  | none => ""

namespace NumberRange

def canonical (range : NumberRange) : String :=
  "number_range:" ++ fieldsText range.fields ++ ";" ++
    boundText "<" range.upperIncluded range.upper ++ boundText ">" range.lowerIncluded range.lower

end NumberRange

namespace Term

def canonical : Term → String
  | .stringEquals fields value => "string_equals:" ++ fieldsText fields ++ ";" ++ value
  | .stringContains fields value => "string_contains:" ++ fieldsText fields ++ ";" ++ value
  | .numberEquals fields value => "number_equals:" ++ fieldsText fields ++ ";" ++ value.render
  | .numberRange range => range.canonical
  | .presence _ true => "geo_exists"
  | .presence fields false => "exists:" ++ fieldsText fields
  | .nearPoint near =>
    "geo_point:" ++ near.radius.render ++ near.unit ++ ";" ++ near.latitude.render ++ ";" ++
      near.longitude.render
  | .namedArea area => "geo_named_area:" ++ area.category ++ ";" ++ area.name
  | .customArea custom => "geo_custom_area:" ++ coordinatesText custom.coordinates

section Equations

variable (fields : List String) (value : String)

theorem canonical_stringEquals :
    canonical (.stringEquals fields value) =
      "string_equals:" ++ fieldsText fields ++ ";" ++ value := rfl

theorem canonical_stringContains :
    canonical (.stringContains fields value) =
      "string_contains:" ++ fieldsText fields ++ ";" ++ value := rfl

theorem canonical_numberEquals (value : Number) :
    canonical (.numberEquals fields value) =
      "number_equals:" ++ fieldsText fields ++ ";" ++ value.render := rfl

theorem canonical_numberRange (range : NumberRange) :
    canonical (.numberRange range) = "number_range:" ++ fieldsText range.fields ++ ";" ++
      boundText "<" range.upperIncluded range.upper ++
        boundText ">" range.lowerIncluded range.lower := rfl

theorem canonical_presence_fields :
    canonical (.presence fields false) = "exists:" ++ fieldsText fields := rfl

theorem canonical_nearPoint (near : NearPoint) :
    canonical (.nearPoint near) = "geo_point:" ++ near.radius.render ++ near.unit ++ ";" ++
      near.latitude.render ++ ";" ++ near.longitude.render := rfl

theorem canonical_namedArea (area : NamedArea) :
    canonical (.namedArea area) = "geo_named_area:" ++ area.category ++ ";" ++ area.name := rfl

theorem canonical_customArea (custom : CustomArea) :
    canonical (.customArea custom) =
      "geo_custom_area:" ++ coordinatesText custom.coordinates := rfl

end Equations

end Term

namespace Filter

mutual

def canonical : Filter → String
  | .group connective members =>
    connective.name ++ ":[" ++ sortedJoin "|" (canonicalMembers members) ++ "]"
  | .term leaf => leaf.canonical

def canonicalMembers : List Filter → List String
  | [] => []
  | member :: rest => canonical member :: canonicalMembers rest

end

theorem canonical_term (leaf : Term) : canonical (.term leaf) = leaf.canonical := rfl

end Filter

namespace Document

def canonicalLines (document : Document) : List String :=
  (document.search.map ("search:" ++ ·)).toList ++
    (document.filter.map fun filter => "filters:" ++ filter.canonical).toList

def cacheKey (document : Document) : String :=
  Digest.Sha1.hex (String.join document.canonicalLines).toUTF8.toList

end Document

end RecordQuery.Query
