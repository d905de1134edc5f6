import RecordQuery.Json.Value

/-!
# Polygons

Areas made of polygons. A position is longitude before latitude; the order of the points of a
ring is its shape and is never changed.
-/

namespace RecordQuery

open Decimal (Binary)

structure Point where
  lon : Binary
  lat : Binary
deriving DecidableEq

abbrev Ring := List Point

/-- What lies within the outer ring and in none of the holes. -/
structure Polygon where
  outer : Ring
  holes : List Ring
deriving DecidableEq

structure Area where
  polygons : List Polygon
deriving DecidableEq

inductive GeometryError where
  | shortPosition (found : Nat)
  | noOuterRing
deriving DecidableEq

namespace GeometryError

def message : GeometryError → String
  | .shortPosition found => s!"position must have at least 2 coordinates, found {found}"
  | .noOuterRing => "polygon must have an outer ring"

end GeometryError

namespace Point

/-- Coordinates after the first two, such as an altitude, do not count. -/
def ofPosition : List Binary → Except GeometryError Point
  | lon :: lat :: _ => .ok ⟨lon, lat⟩
  | short => .error (.shortPosition short.length)

def sameValue (p q : Point) : Bool := p.lon.sameValue q.lon && p.lat.sameValue q.lat

def text (p : Point) : String :=
  "\x7b\"lon\":" ++ Json.Number.binaryText p.lon ++ ",\"lat\":" ++ Json.Number.binaryText p.lat ++
    "\x7d"

end Point

namespace Ring

def ofPositions (positions : List (List Binary)) : Except GeometryError Ring :=
  positions.mapM Point.ofPosition

def sameValue : Ring → Ring → Bool
  | [], [] => true
  | p :: ps, q :: qs => p.sameValue q && sameValue ps qs
  | _, _ => false

def text (ring : Ring) : String := "[" ++ ",".intercalate (ring.map Point.text) ++ "]"

end Ring

namespace Polygon

/-- The first ring encloses the polygon, the others are its holes. -/
def ofRings : List (List (List Binary)) → Except GeometryError Polygon
  | [] => .error .noOuterRing
  | outer :: holes => do return ⟨← Ring.ofPositions outer, ← holes.mapM Ring.ofPositions⟩

def hasHoles (polygon : Polygon) : Bool := !polygon.holes.isEmpty

def sameHoles : List Ring → List Ring → Bool
  | [], [] => true
  | h :: hs, k :: ks => Ring.sameValue h k && sameHoles hs ks
  | _, _ => false

def sameValue (p q : Polygon) : Bool :=
  Ring.sameValue p.outer q.outer && sameHoles p.holes q.holes

def text (polygon : Polygon) : String :=
  "\x7b\"outer\":" ++ Ring.text polygon.outer ++ ",\"holes\":[" ++
    ",".intercalate (polygon.holes.map Ring.text) ++ "]\x7d"

end Polygon

namespace Area

def empty : Area := ⟨[]⟩

def ofPolygon (polygon : Polygon) : Area := ⟨[polygon]⟩

def ofCoordinates (coordinates : List (List (List (List Binary)))) : Except GeometryError Area := do
  return ⟨← coordinates.mapM Polygon.ofRings⟩

def contains (area : Area) (polygon : Polygon) : Bool :=
  area.polygons.any fun member => member.sameValue polygon

def add (area : Area) (polygon : Polygon) : Area :=
  if area.contains polygon then area else ⟨area.polygons ++ [polygon]⟩

def size (area : Area) : Nat := area.polygons.length

def isEmpty (area : Area) : Bool := area.polygons.isEmpty

def text (area : Area) : String :=
  "[" ++ ",".intercalate (area.polygons.map Polygon.text) ++ "]"

end Area

end RecordQuery
