import RecordQuery.Proofs.Clause.Reordering

/-!
# Normal form of clauses

In normal form no list of clauses is empty, none that is joined has a single clause, and nothing
holds of every record. Main statements: what clauses of this form are joined to has it again as
long as there is something to join, and an area has it if it has a polygon.
-/

namespace RecordQuery

/-- Lists that are joined have two clauses or more, of which one is enough if any may hold; what is
ruled out is a list of clauses, or the holes of a polygon. -/
inductive Clause.Normal : Clause → Prop
  | text (field text : String) : Normal (.text field text)
  | term (field : String) (value : TermValue) : Normal (.term field value)
  | range (field : String) (bounds : Bounds) : Normal (.range field bounds)
  | present (field : String) : Normal (.present field)
  | near (field : String) (lat lon radius : Json.Number) (unit : String) :
      Normal (.near field lat lon radius unit)
  | within (field : String) (ring : Ring) : Normal (.within field ring)
  | all {children : List Clause} : 2 ≤ children.length → (∀ child ∈ children, Normal child) →
      Normal (.all children [])
  | less (field : String) (outer : Ring) {holes : List Ring} : holes ≠ [] →
      Normal (.all [.within field outer] (holes.map (.within field)))
  | any {children : List Clause} : 2 ≤ children.length → (∀ child ∈ children, Normal child) →
      Normal (.any children 1)
  | none {children : List Clause} : children ≠ [] → (∀ child ∈ children, Normal child) →
      Normal (.none children)

namespace Clause

section Lists

variable {clauses : List Clause}

theorem normal_none_iff :
    Normal (.none clauses) ↔ clauses ≠ [] ∧ ∀ clause ∈ clauses, Normal clause := by
  constructor
  · intro h
    cases h with
    | none hne hnormal => exact ⟨hne, hnormal⟩
  · rintro ⟨hne, hnormal⟩
    exact .none hne hnormal

theorem normal_any_iff :
    Normal (.any clauses 1) ↔ 2 ≤ clauses.length ∧ ∀ clause ∈ clauses, Normal clause := by
  constructor
  · intro h
    cases h with
    | any hlength hnormal => exact ⟨hlength, hnormal⟩
  · rintro ⟨hlength, hnormal⟩
    exact .any hlength hnormal

theorem normal_all_iff :
    Normal (.all clauses []) ↔ 2 ≤ clauses.length ∧ ∀ clause ∈ clauses, Normal clause := by
  constructor
  · intro h
    generalize hexcluded : ([] : List Clause) = excluded at h
    cases h with
    | all hlength hnormal => exact ⟨hlength, hnormal⟩
    | less field outer hne => exact absurd (List.map_eq_nil_iff.1 hexcluded.symm) hne
  · rintro ⟨hlength, hnormal⟩
    exact .all hlength hnormal

-- A single clause stands for itself, so that only a list of none is left to rule out.
theorem normal_anyOf_iff :
    (anyOf clauses).Normal ↔ clauses ≠ [] ∧ ∀ clause ∈ clauses, Normal clause := by
  by_cases hone : clauses.length = 1
  · obtain ⟨clause, rfl⟩ := List.length_eq_one_iff.1 hone
    rw [List.forall_mem_singleton, anyOf]
    exact ⟨fun h => ⟨List.cons_ne_nil clause [], h⟩, fun h => h.2⟩
  · rw [anyOf_eq_any hone, normal_any_iff, ← List.length_pos_iff]
    exact and_congr_left fun _ => by omega

theorem normal_allOf_iff :
    (allOf clauses).Normal ↔ clauses ≠ [] ∧ ∀ clause ∈ clauses, Normal clause := by
  by_cases hone : clauses.length = 1
  · obtain ⟨clause, rfl⟩ := List.length_eq_one_iff.1 hone
    rw [List.forall_mem_singleton, allOf]
    exact ⟨fun h => ⟨List.cons_ne_nil clause [], h⟩, fun h => h.2⟩
  · rw [allOf_eq_all hone, normal_all_iff, ← List.length_pos_iff]
    exact and_congr_left fun _ => by omega

end Lists

theorem normal_ofPolygon (field : String) (polygon : Polygon) :
    (ofPolygon field polygon).Normal := by
  rw [ofPolygon]
  by_cases hholes : polygon.hasHoles = true
  · rw [if_pos hholes]
    rw [Polygon.hasHoles, Bool.not_eq_true', List.isEmpty_eq_false_iff] at hholes
    exact .less field polygon.outer hholes
  · rw [if_neg hholes]
    exact .within field polygon.outer

theorem normal_ofArea_iff {field : String} {area : Area} :
    (ofArea field area).Normal ↔ area.polygons ≠ [] := by
  rw [ofArea, normal_anyOf_iff, List.map_eq_nil_iff.ne]
  refine and_iff_left fun clause hclause => ?_
  obtain ⟨polygon, _, rfl⟩ := List.mem_map.1 hclause
  exact normal_ofPolygon field polygon

end Clause

end RecordQuery
