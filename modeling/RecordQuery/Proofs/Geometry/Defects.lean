import RecordQuery.Proofs.Region.Merging

/-!
# The first defect of coordinates

A polygon without a ring is a defect, and so is a position with fewer than two numbers. Main
statement: coordinates without a defect make the area on them, and of others the first defect is
complained of, in the order in which they are written.
-/

namespace RecordQuery

open Decimal (Binary)
open Region (Bounding)

/-- The first position with fewer than two numbers is complained of. -/
def Ring.FirstDefect (positions : List (List Binary)) (error : GeometryError) : Prop :=
  ComesTo (2 ≤ ·.length)
    (fun _ position => position.length < 2 ∧ error = .shortPosition position.length) 0 positions

/-- There is no ring, or the first defect of the first ring that has one is complained of. -/
def Polygon.FirstDefect (rings : List (List (List Binary))) (error : GeometryError) : Prop :=
  rings = [] ∧ error = .noOuterRing ∨
    ComesTo (fun ring => ∀ position ∈ ring, 2 ≤ position.length)
      (fun _ ring => Ring.FirstDefect ring error) 0 rings

/-- The first defect of the first polygon that has one is complained of. -/
def Area.FirstDefect (coordinates : List (List (List (List Binary)))) (error : GeometryError) :
    Prop :=
  ComesTo Bounding (fun _ rings => Polygon.FirstDefect rings error) 0 coordinates

variable {error : GeometryError}

theorem Point.ofPosition_eq_error_iff {position : List Binary} :
    ofPosition position = .error error ↔
      position.length < 2 ∧ error = .shortPosition position.length := by
  match position with
  | [] => simp [ofPosition, eq_comm]
  | [_] => simp [ofPosition, eq_comm]
  | _ :: _ :: _ =>
    constructor
    · rintro ⟨⟩
    · rintro ⟨hshort, _⟩
      simp only [List.length_cons] at hshort
      omega

theorem Ring.ofPositions_eq_error_iff {positions : List (List Binary)} :
    ofPositions positions = .error error ↔ FirstDefect positions error := by
  rw [ofPositions, mapM_eq_error_iff 0, FirstDefect]
  simp only [Point.exists_ofPosition_eq_ok_iff, Point.ofPosition_eq_error_iff]

-- The outer ring is read apart from the holes, but as if it were the first of them.
theorem Polygon.ofRings_eq_error_iff {rings : List (List (List Binary))} :
    ofRings rings = .error error ↔ FirstDefect rings error := by
  rw [FirstDefect]
  cases rings with
  | nil =>
    rw [or_iff_left not_comesTo_nil, ofRings, Except.error.injEq, eq_comm]
    exact (and_iff_right rfl).symm
  | cons outer holes =>
    have hholes : holes.mapM Ring.ofPositions = .error error ↔
        ComesTo (fun ring => ∀ position ∈ ring, 2 ≤ position.length)
          (fun _ ring => Ring.FirstDefect ring error) (0 + 1) holes := by
      rw [mapM_eq_error_iff (0 + 1)]
      simp only [Ring.exists_ofPositions_eq_ok_iff, Ring.ofPositions_eq_error_iff]
    rw [or_iff_right fun h => List.cons_ne_nil outer holes h.1, comesTo_cons_iff, ← hholes,
      ← Ring.ofPositions_eq_error_iff, ← Ring.exists_ofPositions_eq_ok_iff, ← exists_and_right,
      ofRings, bind_eq_error_iff]
    simp only [bind_pure_eq_error_iff]

namespace Area

variable {coordinates : List (List (List (List Binary)))}

theorem ofCoordinates_eq_error_iff :
    ofCoordinates coordinates = .error error ↔ FirstDefect coordinates error := by
  rw [ofCoordinates, bind_pure_eq_error_iff, mapM_eq_error_iff 0, FirstDefect]
  simp only [Region.exists_ofRings_eq_ok_iff, Polygon.ofRings_eq_error_iff]

theorem exists_ofCoordinates_eq_ok_iff :
    (∃ area, ofCoordinates coordinates = .ok area) ↔ ∀ rings ∈ coordinates, Bounding rings := by
  simp only [← Region.exists_ofRings_eq_ok_iff, ← exists_mapM_eq_ok_iff, ofCoordinates,
    bind_eq_ok_iff]
  constructor
  · rintro ⟨_, polygons, h, _⟩
    exact ⟨polygons, h⟩
  · rintro ⟨polygons, h⟩
    exact ⟨_, polygons, h, rfl⟩

/-- Coordinates make an area just when each polygon has a ring and each position two numbers. The
area is the one on them: it has their polygons, rings and points in their order, the first ring of a
polygon is the outer one, and a point has the first two numbers of its position. Of coordinates that
make no area the first defect is complained of. -/
theorem ofCoordinates_reads_in_order (coordinates : List (List (List (List Binary)))) :
    ((∃ area, ofCoordinates coordinates = .ok area) ↔ ∀ rings ∈ coordinates, Bounding rings) ∧
    (∀ area, ofCoordinates coordinates = .ok area ↔ area.OnCoordinates coordinates) ∧
    ∀ error, ofCoordinates coordinates = .error error ↔ FirstDefect coordinates error :=
  ⟨exists_ofCoordinates_eq_ok_iff, fun _ => ofCoordinates_eq_ok_iff,
    fun _ => ofCoordinates_eq_error_iff⟩

-- A position of the second ring is short, and the polygon behind it has no ring.
example (x : Binary) :
    ofCoordinates [[[[x, x, x]], [[x, x], [x], []]], []] = .error (.shortPosition 1) := rfl

end Area

end RecordQuery
