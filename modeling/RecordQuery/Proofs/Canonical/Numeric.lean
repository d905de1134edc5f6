import RecordQuery.Proofs.Canonical.Soundness
import RecordQuery.Proofs.Clause.Reordering
import RecordQuery.Proofs.Clause.SearchBody
import RecordQuery.Proofs.Json.Printing

/-!
# Keys of numeric terms

A range has a canonical text, by which answers are kept, and a search body, by which they are found;
bounds are written in the one and sorted into slots in the other. Main statement: ranges of the same
fields have one canonical text just when they have one search body, however fields are called, and
that is when their bounds are the same. Terms on the distance from a point that have one canonical
text have one search body, whatever their units are.
-/

namespace RecordQuery

namespace Clause

-- Choices with one body are made of clauses with the same bodies.
theorem map_body_eq_of_body_anyOf_eq {clauses others : List Clause}
    (hlength : clauses.length = others.length) (h : (anyOf clauses).body = (anyOf others).body) :
    clauses.map body = others.map body := by
  by_cases hone : clauses.length = 1
  · obtain ⟨clause, rfl⟩ := List.length_eq_one_iff.1 hone
    obtain ⟨other, rfl⟩ := List.length_eq_one_iff.1 (hlength.symm.trans hone)
    rw [List.map_singleton, List.map_singleton]
    exact congrArg ([·]) h
  · rw [anyOf_eq_any hone, anyOf_eq_any (hlength ▸ hone)] at h
    obtain ⟨others', hothers, hbodies⟩ := eq_any_of_body_eq h
    rw [hbodies, (Clause.any.inj hothers).1]

end Clause

namespace Query

open Json (Number Value)

/-! ## Ranges -/

namespace NumberRange

variable {range other : NumberRange}

-- Of the two slots of a side the bound is in one, by which its inclusion is told.
theorem slots_eq_iff {included included' : Bool} {bound bound' : Option Number} :
    ((if included then none else bound) = (if included' then none else bound') ∧
        (if included then bound else none) = if included' then bound' else none) ↔
      bound = bound' ∧ (bound ≠ none → included = included') := by
  cases included <;> cases included' <;> cases bound <;> cases bound' <;> simp

theorem bounds_eq_iff : range.bounds = other.bounds ↔ range.SameBounds other := by
  rw [bounds, bounds, Bounds.mk.injEq]
  constructor
  · rintro ⟨hlt, hlte, hgt, hgte⟩
    obtain ⟨hupper, hupperIncluded⟩ := slots_eq_iff.1 ⟨hlt, hlte⟩
    obtain ⟨hlower, hlowerIncluded⟩ := slots_eq_iff.1 ⟨hgt, hgte⟩
    exact ⟨hupper, hlower, hupperIncluded, hlowerIncluded⟩
  · rintro ⟨hupper, hlower, hupperIncluded, hlowerIncluded⟩
    obtain ⟨hlt, hlte⟩ := slots_eq_iff.2 ⟨hupper, hupperIncluded⟩
    obtain ⟨hgt, hgte⟩ := slots_eq_iff.2 ⟨hlower, hlowerIncluded⟩
    exact ⟨hlt, hlte, hgt, hgte⟩

theorem canonical_eq_iff (hfields : range.fields = other.fields) :
    Term.canonical (.numberRange range) = Term.canonical (.numberRange other) ↔
      range.SameBounds other :=
  ⟨fun h => (Term.parts_of_text_numberRange h).2,
    fun h => (Filter.Alike.numberRange hfields h).canonical_eq⟩

-- All fields are asked for the same bounds.
theorem body_eq_iff {fields : List String} (hne : fields ≠ []) (stored : String → String)
    (bounds bounds' : Bounds) :
    (anyField fields fun field => .range (stored field) bounds).body =
        (anyField fields fun field => .range (stored field) bounds').body ↔
      bounds = bounds' := by
  constructor
  · intro h
    have hbodies := Clause.map_body_eq_of_body_anyOf_eq (by simp) h
    obtain ⟨field, fields, rfl⟩ := List.exists_cons_of_ne_nil hne
    have hfirst := Clause.range_eq_of_body_eq (List.cons.inj hbodies).1
    exact (Clause.range.inj hfirst).2
  · rintro rfl
    rfl

end NumberRange

/-! ## Keys and queries -/

namespace Compiler

/-- However fields are called, ranges of the same fields have one canonical text just when the texts
of their search bodies are the same, be they compact or wide, and that is when each bound that is
there is the same and in both ranges or in none; of a bound that is not there nothing else counts.
Terms on the distance from a point with one canonical text have search bodies with the same texts,
whatever is written for the unit. -/
theorem numeric_text_determines_query (compiler : Compiler) :
    (∀ range other : NumberRange, range.fields ≠ [] → range.fields = other.fields →
      ∃ clause clause', compiler.filter (.term (.numberRange range)) = .ok clause ∧
        compiler.filter (.term (.numberRange other)) = .ok clause' ∧
        (Filter.canonical (.term (.numberRange range)) =
            Filter.canonical (.term (.numberRange other)) ↔
          clause.body.compact = clause'.body.compact) ∧
        (Filter.canonical (.term (.numberRange range)) =
            Filter.canonical (.term (.numberRange other)) ↔
          clause.body.wide = clause'.body.wide) ∧
        (Filter.canonical (.term (.numberRange range)) =
            Filter.canonical (.term (.numberRange other)) ↔
          range.SameBounds other)) ∧
    ∀ near near' : NearPoint,
      Filter.canonical (.term (.nearPoint near)) = Filter.canonical (.term (.nearPoint near')) →
      ∃ clause clause', compiler.filter (.term (.nearPoint near)) = .ok clause ∧
        compiler.filter (.term (.nearPoint near')) = .ok clause' ∧
        clause.body.compact = clause'.body.compact ∧ clause.body.wide = clause'.body.wide := by
  refine ⟨fun range other hne hfields => ?_, fun near near' h => ?_⟩
  · have hcanonical := NumberRange.canonical_eq_iff hfields
    have hbody := (NumberRange.body_eq_iff hne (compiler.names.subfield · "number") range.bounds
      other.bounds).trans NumberRange.bounds_eq_iff
    refine ⟨_, _, rfl, rfl, ?_⟩
    rw [Value.compact_inj, Value.wide_inj, ← hfields]
    exact ⟨hcanonical.trans hbody.symm, hcanonical.trans hbody.symm, hcanonical⟩
  · obtain ⟨hdistance, hlatitude, hlongitude⟩ := Term.place_eq_of_text_nearPoint h
    have hbody : (Clause.near compiler.names.geo near.latitude near.longitude near.radius
        near.unit).body = (Clause.near compiler.names.geo near'.latitude near'.longitude
        near'.radius near'.unit).body := by
      rw [← hlatitude, ← hlongitude]
      exact Clause.body_near_eq near.latitude near.longitude (.inr hdistance)
    exact ⟨_, _, rfl, rfl, Value.compact_inj.2 hbody, Value.wide_inj.2 hbody⟩

/-- Everything up to a depth of ten, with or without it. -/
def downToTen (included : Bool) : NumberRange :=
  ⟨["depth"], some (.integer 10 (by decide)), included, none, true⟩

-- Radius and unit meet at different places in the same text.
def nearOrigin : NearPoint := ⟨.zero, .zero, .integer 47 (by decide), "km"⟩

def nearOrigin' : NearPoint := ⟨.zero, .zero, .integer 4 (by decide), "7km"⟩

theorem downToTen_text_determines_query :
    (∃ clause clause',
      filter ⟨.empty, .standard⟩ (.term (.numberRange (downToTen false))) = .ok clause ∧
        filter ⟨.empty, .standard⟩ (.term (.numberRange (downToTen true))) = .ok clause' ∧
        clause.body.compact ≠ clause'.body.compact) ∧
      Filter.canonical (.term (.nearPoint nearOrigin)) = "geo_point:47km;0;0" ∧
      Filter.canonical (.term (.nearPoint nearOrigin')) = "geo_point:47km;0;0" ∧
      ∃ clause clause',
        filter ⟨.empty, .standard⟩ (.term (.nearPoint nearOrigin)) = .ok clause ∧
          filter ⟨.empty, .standard⟩ (.term (.nearPoint nearOrigin')) = .ok clause' ∧
          clause.body.compact = clause'.body.compact := by
  obtain ⟨hranges, hplaces⟩ := numeric_text_determines_query ⟨.empty, .standard⟩
  obtain ⟨clause, clause', hclause, hclause', hcompact, _, hbounds⟩ :=
    hranges (downToTen false) (downToTen true) (List.cons_ne_nil _ _) rfl
  have hinclusion : ¬ (downToTen false).SameBounds (downToTen true) := fun h =>
    absurd (h.upperIncluded (Option.some_ne_none _)) (by decide)
  have htext : Filter.canonical (.term (.nearPoint nearOrigin)) = "geo_point:47km;0;0" := by
    decide +kernel
  have htext' : Filter.canonical (.term (.nearPoint nearOrigin')) = "geo_point:47km;0;0" := by
    decide +kernel
  obtain ⟨near, near', hnear, hnear', hsame, _⟩ :=
    hplaces nearOrigin nearOrigin' (htext.trans htext'.symm)
  exact ⟨⟨clause, clause', hclause, hclause', fun h => hinclusion (hbounds.1 (hcompact.2 h))⟩,
    htext, htext', near, near', hnear, hnear', hsame⟩

end Compiler

end Query

end RecordQuery
