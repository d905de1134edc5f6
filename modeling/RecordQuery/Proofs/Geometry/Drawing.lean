import RecordQuery.Proofs.Geometry.Coordinates
import RecordQuery.Query.Options

/-!
# Areas and the coordinates that draw them

Coordinates draw an area when its rings are, in their order, the first two numbers of the
positions. Main statement: areas are made of the coordinates that draw them, and of no others.
-/

namespace RecordQuery

/-- The polygons are the same but for the order of the holes. -/
structure Polygon.SameButHoles (polygon other : Polygon) : Prop where
  outer : polygon.outer = other.outer
  holes : polygon.holes.Perm other.holes

theorem Polygon.SameButHoles.hasHoles_eq {polygon other : Polygon}
    (h : polygon.SameButHoles other) : polygon.hasHoles = other.hasHoles := by
  rw [Polygon.hasHoles, Polygon.hasHoles, Bool.eq_iff_iff]
  simp only [Bool.not_eq_true', List.isEmpty_eq_false_iff, ← List.length_pos_iff,
    h.holes.length_eq]

namespace Query

open Json (Number)

/-- The first two numbers are longitude and latitude; what follows them is left out. -/
def DrawsPoint (position : List Number) (point : Point) : Prop :=
  ∃ lon lat surplus, position = lon :: lat :: surplus ∧ point = ⟨lon.toBinary, lat.toBinary⟩

def DrawsRing (positions : List (List Number)) (ring : Ring) : Prop :=
  List.Forall₂ DrawsPoint positions ring

/-- The first ring is the outer one, the others are holes. -/
def DrawsPolygon (rings : List (List (List Number))) (polygon : Polygon) : Prop :=
  ∃ outer holes, rings = outer :: holes ∧ DrawsRing outer polygon.outer ∧
    List.Forall₂ DrawsRing holes polygon.holes

def Draws (coordinates : Coordinates) (area : Area) : Prop :=
  List.Forall₂ DrawsPolygon coordinates area.polygons

/-- The point at a position, if it has one. -/
def pointAt? : List Number → Option Point
  | lon :: lat :: _ => some ⟨lon.toBinary, lat.toBinary⟩
  | _ => none

-- A ring is drawn in one way only, and the first two numbers of each position draw it.
theorem DrawsRing.eq_filterMap {positions : List (List Number)} {ring : Ring}
    (h : DrawsRing positions ring) : ring = (positions.map (·.take 2)).filterMap pointAt? := by
  rw [List.filterMap_map]
  induction h with
  | nil => rfl
  | cons hfirst _ ih =>
    obtain ⟨lon, lat, surplus, rfl, rfl⟩ := hfirst
    exact congrArg (⟨lon.toBinary, lat.toBinary⟩ :: ·) ih

/-- Every position has the two numbers that count. -/
def Full (positions : List (List Number)) : Prop := ∀ position ∈ positions, 2 ≤ position.length

theorem DrawsRing.full {positions : List (List Number)} {ring : Ring}
    (h : DrawsRing positions ring) : Full positions := by
  intro position hposition
  obtain ⟨point, _, lon, lat, surplus, rfl, _⟩ := exists_of_forall₂_of_mem h.flip hposition
  rw [List.length_cons, List.length_cons]
  omega

theorem DrawsPolygon.full {rings : List (List (List Number))} {polygon : Polygon}
    (h : DrawsPolygon rings polygon) : ∀ ring ∈ rings, Full ring := by
  obtain ⟨outer, holes, rfl, houter, hholes⟩ := h
  refine List.forall_mem_cons.2 ⟨houter.full, fun hole hhole => ?_⟩
  obtain ⟨ring, _, hring⟩ := exists_of_forall₂_of_mem hholes.flip hhole
  exact DrawsRing.full hring

theorem onPosition_iff_drawsPoint {position : List Number} {point : Point} :
    point.OnPosition (position.map Number.toBinary) ↔ DrawsPoint position point := by
  rw [← Point.ofPosition_eq_ok_iff]
  constructor
  · intro h
    cases position with
    | nil => exact nomatch h
    | cons lon rest =>
      cases rest with
      | nil => exact nomatch h
      | cons lat surplus => exact ⟨lon, lat, surplus, rfl, (Except.ok.inj h).symm⟩
  · rintro ⟨lon, lat, surplus, rfl, rfl⟩
    rfl

theorem onPositions_iff_drawsRing {positions : List (List Number)} {ring : Ring} :
    Ring.OnPositions (positions.map fun position => position.map Number.toBinary) ring ↔
      DrawsRing positions ring := by
  rw [Ring.OnPositions, List.forall₂_map_left_iff, DrawsRing]
  simp only [onPosition_iff_drawsPoint]

theorem onRings_iff_drawsPolygon {rings : List (List (List Number))} {polygon : Polygon} :
    polygon.OnRings (rings.map fun ring => ring.map fun position =>
      position.map Number.toBinary) ↔ DrawsPolygon rings polygon := by
  rw [Polygon.OnRings, List.forall₂_map_left_iff]
  simp only [onPositions_iff_drawsRing, List.forall₂_cons_right_iff, DrawsPolygon]
  constructor
  · rintro ⟨outer, holes, houter, hholes, rfl⟩
    exact ⟨outer, holes, rfl, houter, hholes⟩
  · rintro ⟨outer, holes, rfl, houter, hholes⟩
    exact ⟨outer, holes, houter, hholes, rfl⟩

theorem ofCoordinates_eq_ok_iff {coordinates : Coordinates} {area : Area} :
    Area.ofCoordinates (degrees coordinates) = .ok area ↔ Draws coordinates area := by
  rw [Area.ofCoordinates_eq_ok_iff, Area.OnCoordinates, degrees, List.forall₂_map_left_iff, Draws]
  simp only [onRings_iff_drawsPolygon]

end Query

end RecordQuery
