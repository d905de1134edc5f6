import RecordQuery.Proofs.Clause.Reordering

/-!
# Clauses with other names of fields

Renamed clauses are the same but for the fields that are looked at. Main statements: clauses that
are built alike from renamed parts are renamed, and a renamed clause looks at a field for each field
of the other.
-/

namespace RecordQuery

/-- The same clause but for its fields, which are related at corresponding places. -/
inductive Clause.Renamed (R : String → String → Prop) : Clause → Clause → Prop
  | everything : Renamed R .everything .everything
  | text {field field' : String} (words : String) :
      R field field' → Renamed R (.text field words) (.text field' words)
  | term {field field' : String} (value : TermValue) :
      R field field' → Renamed R (.term field value) (.term field' value)
  | range {field field' : String} (bounds : Bounds) :
      R field field' → Renamed R (.range field bounds) (.range field' bounds)
  | present {field field' : String} :
      R field field' → Renamed R (.present field) (.present field')
  | near {field field' : String} (lat lon radius : Json.Number) (unit : String) :
      R field field' →
      Renamed R (.near field lat lon radius unit) (.near field' lat lon radius unit)
  | within {field field' : String} (ring : Ring) :
      R field field' → Renamed R (.within field ring) (.within field' ring)
  | all {children others excluded excluded' : List Clause} :
      List.Forall₂ (Renamed R) children others → List.Forall₂ (Renamed R) excluded excluded' →
      Renamed R (.all children excluded) (.all others excluded')
  | any {children others : List Clause} (minMatch : UInt64) :
      List.Forall₂ (Renamed R) children others →
      Renamed R (.any children minMatch) (.any others minMatch)
  | none {children others : List Clause} :
      List.Forall₂ (Renamed R) children others → Renamed R (.none children) (.none others)

namespace Clause

mutual

/-- The fields a clause looks at, in the order in which they stand. -/
def fields : Clause → List String
  | .everything => []
  | .text field _ => [field]
  | .term field _ => [field]
  | .range field _ => [field]
  | .present field => [field]
  | .near field _ _ _ _ => [field]
  | .within field _ => [field]
  | .all children excluded => fieldsOfList children ++ fieldsOfList excluded
  | .any children _ => fieldsOfList children
  | .none children => fieldsOfList children

def fieldsOfList : List Clause → List String
  | [] => []
  | clause :: rest => fields clause ++ fieldsOfList rest

end

theorem fieldsOfList_eq_flatMap (clauses : List Clause) :
    fieldsOfList clauses = clauses.flatMap fields := by
  induction clauses with
  | nil => rfl
  | cons clause rest ih => rw [fieldsOfList, List.flatMap_cons, ih]

-- A single clause looks at the fields of the list that it is alone in.
theorem fields_anyOf (clauses : List Clause) : (anyOf clauses).fields = clauses.flatMap fields := by
  by_cases hone : clauses.length = 1
  · obtain ⟨clause, rfl⟩ := List.length_eq_one_iff.1 hone
    rw [anyOf, List.flatMap_singleton]
  · rw [anyOf_eq_any hone, fields, fieldsOfList_eq_flatMap]

theorem fields_allOf (clauses : List Clause) : (allOf clauses).fields = clauses.flatMap fields := by
  by_cases hone : clauses.length = 1
  · obtain ⟨clause, rfl⟩ := List.length_eq_one_iff.1 hone
    rw [allOf, List.flatMap_singleton]
  · rw [allOf_eq_all hone, fields, fieldsOfList_eq_flatMap, fieldsOfList, List.append_nil]

namespace Renamed

variable {R : String → String → Prop}

theorem anyOf {clauses others : List Clause} (h : List.Forall₂ (Renamed R) clauses others) :
    Renamed R (Clause.anyOf clauses) (Clause.anyOf others) :=
  related_anyOf (.any 1) h

theorem allOf {clauses others : List Clause} (h : List.Forall₂ (Renamed R) clauses others) :
    Renamed R (Clause.allOf clauses) (Clause.allOf others) :=
  related_allOf (fun hclauses => .all hclauses .nil) h

-- What is built for each element of a list is renamed if it is renamed for each.
theorem forall₂_map {α : Type} {f g : α → Clause} {xs : List α}
    (h : ∀ x ∈ xs, Renamed R (f x) (g x)) : List.Forall₂ (Renamed R) (xs.map f) (xs.map g) := by
  rw [List.forall₂_map_left_iff, List.forall₂_map_right_iff, List.forall₂_same]
  exact h

section Areas

variable {field field' : String} (h : R field field')
include h

theorem ofPolygon (polygon : Polygon) :
    Renamed R (Clause.ofPolygon field polygon) (Clause.ofPolygon field' polygon) := by
  rw [Clause.ofPolygon, Clause.ofPolygon]
  by_cases hholes : polygon.hasHoles = true
  · rw [if_pos hholes, if_pos hholes]
    exact .all (.cons (.within polygon.outer h) .nil) (forall₂_map fun hole _ => .within hole h)
  · rw [if_neg hholes, if_neg hholes]
    exact .within polygon.outer h

theorem ofArea (area : Area) :
    Renamed R (Clause.ofArea field area) (Clause.ofArea field' area) :=
  .anyOf (forall₂_map fun polygon _ => ofPolygon h polygon)

end Areas

theorem exists_of_mem_fields {clause other : Clause} (h : Renamed R clause other) {field : String}
    (hfield : field ∈ clause.fields) : ∃ field' ∈ other.fields, R field field' := by
  -- In lists the fields are those of the clauses in them, of which each has its partner.
  have hlist : ∀ {clauses others : List Clause},
      (∀ clause ∈ clauses, ∀ other, Renamed R clause other → field ∈ clause.fields →
        ∃ field' ∈ other.fields, R field field') →
      List.Forall₂ (Renamed R) clauses others → field ∈ fieldsOfList clauses →
      ∃ field' ∈ fieldsOfList others, R field field' := by
    intro clauses others ih hclauses hmem
    rw [fieldsOfList_eq_flatMap] at hmem ⊢
    obtain ⟨clause, hclause, hmem⟩ := List.mem_flatMap.1 hmem
    obtain ⟨other, hother, hrenamed⟩ := exists_of_forall₂_of_mem hclauses.flip hclause
    obtain ⟨field', hfield', hR⟩ := ih clause hclause other hrenamed hmem
    exact ⟨field', List.mem_flatMap.2 ⟨other, hother, hfield'⟩, hR⟩
  induction clause generalizing other with
  | everything => exact absurd hfield List.not_mem_nil
  | all children excluded ihchildren ihexcluded =>
    cases h with
    | all hchildren hexcluded =>
      rw [fields, List.mem_append] at hfield
      rcases hfield with hfield | hfield
      · obtain ⟨field', hfield', hR⟩ :=
          hlist (fun child hchild _ h hmem => ihchildren child hchild h hmem) hchildren hfield
        exact ⟨field', List.mem_append_left _ hfield', hR⟩
      · obtain ⟨field', hfield', hR⟩ :=
          hlist (fun child hchild _ h hmem => ihexcluded child hchild h hmem) hexcluded hfield
        exact ⟨field', List.mem_append_right _ hfield', hR⟩
  | any children minMatch ih =>
    cases h with
    | any _ hchildren =>
      exact hlist (fun child hchild _ h hmem => ih child hchild h hmem) hchildren hfield
  | none children ih =>
    cases h with
    | none hchildren =>
      exact hlist (fun child hchild _ h hmem => ih child hchild h hmem) hchildren hfield
  | _ =>
    -- The other clauses look at one field.
    obtain rfl := List.mem_singleton.1 hfield
    cases h with
    | _ => exact ⟨_, List.mem_singleton_self _, ‹_›⟩

end Renamed

end Clause

end RecordQuery
