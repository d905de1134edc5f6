import RecordQuery.Geometry
import RecordQuery.Proofs.Outcome

/-!
# Areas that coordinates make

Coordinates are read polygon by polygon, ring by ring and position by position. Main statement: the
areas they make are those on these coordinates, with a point for the first two numbers of each
position.
-/

namespace RecordQuery

open Decimal (Binary)

/-- The point has the first two numbers of the position, the longitude before the latitude. -/
def Point.OnPosition (position : List Binary) (point : Point) : Prop :=
  [point.lon, point.lat] <+: position

/-- The ring has a point on each of the positions, in their order. -/
def Ring.OnPositions (positions : List (List Binary)) (ring : Ring) : Prop :=
  List.Forall₂ Point.OnPosition positions ring

/-- The outer ring of the polygon is on the first of the rings, and its holes are on the others. -/
def Polygon.OnRings (rings : List (List (List Binary))) (polygon : Polygon) : Prop :=
  List.Forall₂ Ring.OnPositions rings (polygon.outer :: polygon.holes)

/-- The area has a polygon on the rings of each polygon, in their order. -/
def Area.OnCoordinates (coordinates : List (List (List (List Binary)))) (area : Area) : Prop :=
  List.Forall₂ Polygon.OnRings coordinates area.polygons

namespace Point

variable {position : List Binary}

theorem ofPosition_eq_ok_iff {point : Point} :
    ofPosition position = .ok point ↔ point.OnPosition position := by
  rw [OnPosition]
  match position with
  | [] => simp [ofPosition]
  | [_] => simp [ofPosition]
  | lon :: lat :: surplus =>
    obtain ⟨x, y⟩ := point
    simp [ofPosition, eq_comm]

theorem exists_ofPosition_eq_ok_iff :
    (∃ point, ofPosition position = .ok point) ↔ 2 ≤ position.length := by
  match position with
  | [] => simp [ofPosition]
  | [_] => simp [ofPosition]
  | _ :: _ :: _ => simp [ofPosition]

end Point

namespace Ring

variable {positions : List (List Binary)}

theorem ofPositions_eq_ok_iff {ring : Ring} :
    ofPositions positions = .ok ring ↔ OnPositions positions ring := by
  simp only [ofPositions, mapM_eq_ok_iff, Point.ofPosition_eq_ok_iff, OnPositions]

theorem exists_ofPositions_eq_ok_iff :
    (∃ ring, ofPositions positions = .ok ring) ↔ ∀ position ∈ positions, 2 ≤ position.length := by
  rw [ofPositions, exists_mapM_eq_ok_iff]
  simp only [Point.exists_ofPosition_eq_ok_iff]

end Ring

theorem Polygon.ofRings_eq_ok_iff {rings : List (List (List Binary))} {polygon : Polygon} :
    ofRings rings = .ok polygon ↔ polygon.OnRings rings := by
  cases rings with
  | nil => exact ⟨fun h => (nomatch h), fun h => (nomatch h)⟩
  | cons outer holes =>
    have hholes : ∀ drawn, holes.mapM Ring.ofPositions = .ok drawn ↔
        List.Forall₂ Ring.OnPositions holes drawn := by
      simp only [mapM_eq_ok_iff, Ring.ofPositions_eq_ok_iff, implies_true]
    rw [OnRings, List.forall₂_cons, ← hholes, ← Ring.ofPositions_eq_ok_iff]
    constructor
    · intro h
      -- The outer ring is read first, then the holes in their order.
      obtain ⟨_, houter, h⟩ := bind_eq_ok_iff.1 h
      obtain ⟨_, hdrawn, h⟩ := bind_eq_ok_iff.1 h
      obtain rfl := Except.ok.inj h
      exact ⟨houter, hdrawn⟩
    · rintro ⟨houter, hdrawn⟩
      exact bind_eq_ok_iff.2 ⟨_, houter, bind_eq_ok_iff.2 ⟨_, hdrawn, rfl⟩⟩

theorem Area.ofCoordinates_eq_ok_iff {coordinates : List (List (List (List Binary)))}
    {area : Area} : ofCoordinates coordinates = .ok area ↔ area.OnCoordinates coordinates := by
  have hpolygons : ∀ polygons, coordinates.mapM Polygon.ofRings = .ok polygons ↔
      List.Forall₂ Polygon.OnRings coordinates polygons := by
    simp only [mapM_eq_ok_iff, Polygon.ofRings_eq_ok_iff, implies_true]
  rw [OnCoordinates, ← hpolygons]
  constructor
  · intro h
    obtain ⟨_, hmap, h⟩ := bind_eq_ok_iff.1 h
    obtain rfl := Except.ok.inj h
    exact hmap
  · intro h
    exact bind_eq_ok_iff.2 ⟨_, h, rfl⟩

end RecordQuery
