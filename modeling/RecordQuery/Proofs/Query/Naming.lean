import RecordQuery.Proofs.Clause.Renaming
import RecordQuery.Proofs.Meaning.Filter
import RecordQuery.Proofs.Query.Resolution

/-!
# The names of fields in queries

A query asks for fields by the names it lists, for the text of all fields and for the place of a
record; how these are called where records are stored is said apart from it. Main statement: under
any two ways to call them a document is refused alike or becomes the same clause but for the fields
in it, which are at corresponding places called for the same, and the fields in it are those that
the document asks for.
-/

namespace RecordQuery.Query

open Region (Lookup)

/-- What a query asks for, whatever it is called. -/
inductive Asked where
  /-- The text of all fields. -/
  | allText
  /-- The place of a record. -/
  | geo
  /-- Something that stands under the common name of the fields. -/
  | stored (path : String)

/-- How it is called where records are stored. -/
def Asked.name (names : FieldNames) : Asked → String
  | .allText => names.allText
  | .geo => names.geo
  | .stored path => names.base ++ "." ++ path

/-- Fields are asked for by the names that are listed, in full text or as numbers where a term needs
it; the text of all fields is asked for where no field is listed, and the place of a record by terms
on places. -/
inductive Term.Asks : Term → Asked → Prop
  | stringEquals {fields : List String} {field : String} (value : String) :
      field ∈ fields → Asks (.stringEquals fields value) (.stored field)
  | stringContains {fields : List String} {field : String} (value : String) :
      field ∈ fields → Asks (.stringContains fields value) (.stored (field ++ ".full"))
  | anywhere (value : String) : Asks (.stringContains [] value) .allText
  | numberEquals {fields : List String} {field : String} (value : Json.Number) :
      field ∈ fields → Asks (.numberEquals fields value) (.stored (field ++ ".number"))
  | numberRange {range : NumberRange} {field : String} :
      field ∈ range.fields → Asks (.numberRange range) (.stored (field ++ ".number"))
  | presence {fields : List String} {field : String} :
      field ∈ fields → Asks (.presence fields false) (.stored field)
  | place (fields : List String) : Asks (.presence fields true) .geo
  | nearPoint (near : NearPoint) : Asks (.nearPoint near) .geo
  | namedArea (area : NamedArea) : Asks (.namedArea area) .geo
  | customArea (custom : CustomArea) : Asks (.customArea custom) .geo

/-- A filter asks for what its terms ask for. -/
inductive Filter.Asks : Filter → Asked → Prop
  | term {leaf : Term} {asked : Asked} : leaf.Asks asked → Asks (.term leaf) asked
  | member (connective : Connective) {members : List Filter} {member : Filter} {asked : Asked} :
      member ∈ members → Asks member asked → Asks (.group connective members) asked

/-- A text that is searched for is looked for in all fields. -/
inductive Document.Asks : Document → Asked → Prop
  | search (text : String) (filter : Option Filter) : Asks ⟨some text, filter⟩ .allText
  | filter (search : Option String) {tree : Filter} {asked : Asked} :
      tree.Asks asked → Asks ⟨search, some tree⟩ asked

/-- A part of a stored field stands behind its name. -/
theorem subfield_eq_name (names : FieldNames) (field part mark : String)
    (hmark : "." ++ part = mark) :
    names.subfield field part = (Asked.stored (field ++ mark)).name names := by
  rw [← hmark, FieldNames.subfield, Asked.name]
  simp only [String.append_assoc]

namespace Compiler

/-! ## Two ways to call the fields -/

section Renamed

variable {lookup : Lookup} {names others : FieldNames} {R : String → String → Prop}

theorem anyField_renamed {fields : List String} {clause other : String → Clause}
    (h : ∀ field ∈ fields, (clause field).Renamed R (other field)) :
    (anyField fields clause).Renamed R (anyField fields other) :=
  .anyOf (Clause.Renamed.forall₂_map h)

theorem term_renamed {leaf : Term} {clause other : Clause}
    (hR : ∀ asked, leaf.Asks asked → R (asked.name names) (asked.name others))
    (hclause : term ⟨lookup, names⟩ leaf = .ok clause)
    (hother : term ⟨lookup, others⟩ leaf = .ok other) : clause.Renamed R other := by
  cases leaf with
  | stringEquals fields value =>
    obtain rfl := Except.ok.inj hclause
    obtain rfl := Except.ok.inj hother
    exact anyField_renamed fun field hfield =>
      .term (.text value) (hR (.stored field) (.stringEquals value hfield))
  | stringContains fields value =>
    cases fields with
    | nil =>
      obtain rfl := Except.ok.inj hclause
      obtain rfl := Except.ok.inj hother
      exact .text value (hR .allText (.anywhere value))
    | cons first fields =>
      obtain rfl := Except.ok.inj hclause
      obtain rfl := Except.ok.inj hother
      refine anyField_renamed fun field hfield => .text value ?_
      rw [subfield_eq_name names field "full" ".full" rfl,
        subfield_eq_name others field "full" ".full" rfl]
      exact hR _ (.stringContains value hfield)
  | numberEquals fields value =>
    obtain rfl := Except.ok.inj hclause
    obtain rfl := Except.ok.inj hother
    refine anyField_renamed fun field hfield => .term (.number value) ?_
    rw [subfield_eq_name names field "number" ".number" rfl,
      subfield_eq_name others field "number" ".number" rfl]
    exact hR _ (.numberEquals value hfield)
  | numberRange range =>
    obtain rfl := Except.ok.inj hclause
    obtain rfl := Except.ok.inj hother
    refine anyField_renamed fun field hfield => .range range.bounds ?_
    rw [subfield_eq_name names field "number" ".number" rfl,
      subfield_eq_name others field "number" ".number" rfl]
    exact hR _ (.numberRange hfield)
  | presence fields ofGeo =>
    cases ofGeo with
    | true =>
      obtain rfl := Except.ok.inj hclause
      obtain rfl := Except.ok.inj hother
      exact .present (hR .geo (.place fields))
    | false =>
      obtain rfl := Except.ok.inj hclause
      obtain rfl := Except.ok.inj hother
      exact anyField_renamed fun field hfield => .present (hR (.stored field) (.presence hfield))
  | nearPoint near =>
    obtain rfl := Except.ok.inj hclause
    obtain rfl := Except.ok.inj hother
    exact .near near.latitude near.longitude near.radius near.unit (hR .geo (.nearPoint near))
  | namedArea area =>
    rw [term, resolve] at hclause hother
    -- Both look the area up under its own name.
    cases hfound : lookup.get? area.category area.name with
    | none =>
      rw [hfound] at hclause
      exact absurd hclause (by simp [Except.map])
    | some found =>
      rw [hfound] at hclause hother
      obtain rfl := Except.ok.inj hclause
      obtain rfl := Except.ok.inj hother
      exact .ofArea (hR .geo (.namedArea area)) found
  | customArea custom =>
    obtain rfl := Except.ok.inj hclause
    obtain rfl := Except.ok.inj hother
    exact .ofArea (hR .geo (.customArea custom)) custom.area

theorem group_renamed {clauses clauses' : List Clause}
    (h : List.Forall₂ (Clause.Renamed R) clauses clauses') (connective : Connective) :
    (group clauses connective).Renamed R (group clauses' connective) := by
  cases connective with
  | all => exact .allOf h
  | any => exact .anyOf h
  | none => exact .none h

theorem filter_renamed {tree : Filter} {clause other : Clause}
    (hR : ∀ asked, tree.Asks asked → R (asked.name names) (asked.name others))
    (hclause : filter ⟨lookup, names⟩ tree = .ok clause)
    (hother : filter ⟨lookup, others⟩ tree = .ok other) : clause.Renamed R other := by
  induction tree generalizing clause other with
  | term leaf =>
    rw [filter] at hclause hother
    exact term_renamed (fun asked hasks => hR asked (.term hasks)) hclause hother
  | group connective members ih =>
    obtain ⟨clauses, hclauses, rfl⟩ := filter_group_eq_ok_iff.1 hclause
    obtain ⟨clauses', hclauses', rfl⟩ := filter_group_eq_ok_iff.1 hother
    refine group_renamed ?_ connective
    have hmembers : ∀ member ∈ members, ∀ asked, member.Asks asked →
        R (asked.name names) (asked.name others) :=
      fun member hmember asked hasks => hR asked (.member connective hmember hasks)
    clear hclause hother hR
    -- Member by member, both lists of clauses come from the same filters.
    induction hclauses generalizing clauses' with
    | nil =>
      obtain rfl := List.forall₂_nil_left_iff.1 hclauses'
      exact .nil
    | cons hmember _ ihrest =>
      obtain ⟨other, rest', hother, hrest', rfl⟩ := List.forall₂_cons_left_iff.1 hclauses'
      obtain ⟨ihmember, ihmembers⟩ := List.forall_mem_cons.1 ih
      obtain ⟨hfirst, hothers⟩ := List.forall_mem_cons.1 hmembers
      exact .cons (ihmember hfirst hmember hother) (ihrest ihmembers rest' hrest' hothers)

end Renamed

/-! ## The fields that are looked at -/

section Reached

variable {compiler : Compiler}

theorem mem_fields_anyField {fields : List String} {clause : String → Clause}
    {field stored : String} (hfield : field ∈ fields) (hstored : stored ∈ (clause field).fields) :
    stored ∈ (anyField fields clause).fields := by
  rw [anyField, Clause.fields_anyOf, List.mem_flatMap]
  exact ⟨clause field, List.mem_map_of_mem hfield, hstored⟩

theorem fields_group (clauses : List Clause) (connective : Connective) :
    (group clauses connective).fields = clauses.flatMap Clause.fields := by
  cases connective with
  | all => exact Clause.fields_allOf clauses
  | any => exact Clause.fields_anyOf clauses
  | none => rw [group, Clause.fields, Clause.fieldsOfList_eq_flatMap]

-- An area may have no polygons, and then nothing is asked of the place.
theorem mem_fields_term {leaf : Term} {clause : Clause} (hclause : compiler.term leaf = .ok clause)
    {asked : Asked} (hasks : leaf.Asks asked) :
    asked = .geo ∨ asked.name compiler.names ∈ clause.fields := by
  cases hasks with
  | stringEquals value hfield =>
    obtain rfl := Except.ok.inj hclause
    exact .inr (mem_fields_anyField hfield (List.mem_singleton_self _))
  | @stringContains fields field value hfield =>
    cases fields with
    | nil => exact absurd hfield List.not_mem_nil
    | cons first fields =>
      obtain rfl := Except.ok.inj hclause
      rw [← subfield_eq_name compiler.names field "full" ".full" rfl]
      exact .inr (mem_fields_anyField hfield (List.mem_singleton_self _))
  | anywhere value =>
    obtain rfl := Except.ok.inj hclause
    exact .inr (List.mem_singleton_self _)
  | @numberEquals _ field value hfield =>
    obtain rfl := Except.ok.inj hclause
    rw [← subfield_eq_name compiler.names field "number" ".number" rfl]
    exact .inr (mem_fields_anyField hfield (List.mem_singleton_self _))
  | @numberRange _ field hfield =>
    obtain rfl := Except.ok.inj hclause
    rw [← subfield_eq_name compiler.names field "number" ".number" rfl]
    exact .inr (mem_fields_anyField hfield (List.mem_singleton_self _))
  | presence hfield =>
    obtain rfl := Except.ok.inj hclause
    exact .inr (mem_fields_anyField hfield (List.mem_singleton_self _))
  | place | nearPoint | namedArea | customArea => exact .inl rfl

theorem mem_fields_filter {tree : Filter} {clause : Clause}
    (hclause : compiler.filter tree = .ok clause) {asked : Asked} (hasks : tree.Asks asked) :
    asked = .geo ∨ asked.name compiler.names ∈ clause.fields := by
  induction hasks generalizing clause with
  | term hasks =>
    rw [filter] at hclause
    exact mem_fields_term hclause hasks
  | member connective hmember _ ih =>
    obtain ⟨clauses, hclauses, rfl⟩ := filter_group_eq_ok_iff.1 hclause
    obtain ⟨found, hfound, hcompiled⟩ := exists_of_forall₂_of_mem hclauses.flip hmember
    rw [fields_group, List.mem_flatMap]
    exact (ih hcompiled).imp_right fun hmem => ⟨found, hfound, hmem⟩

end Reached

/-! ## Documents -/

theorem document_renamed {lookup : Lookup} {names others : FieldNames}
    {R : String → String → Prop} {document : Document} {clause other : Clause}
    (hR : ∀ asked, document.Asks asked → R (asked.name names) (asked.name others))
    (hclause : Compiler.document ⟨lookup, names⟩ document = .ok clause)
    (hother : Compiler.document ⟨lookup, others⟩ document = .ok other) :
    clause.Renamed R other := by
  obtain ⟨search, tree⟩ := document
  rw [document_eq_ok_iff] at hclause hother
  have hsearch : ∀ text ∈ search, Clause.Renamed R (anywhere ⟨lookup, names⟩ text)
      (anywhere ⟨lookup, others⟩ text) := by
    rintro text ⟨⟩
    exact .text text (hR .allText (.search text tree))
  have htree : ∀ {found found' : Clause} {filter : Filter}, filter ∈ tree →
      Compiler.filter ⟨lookup, names⟩ filter = .ok found →
      Compiler.filter ⟨lookup, others⟩ filter = .ok found' → found.Renamed R found' := by
    rintro found found' filter ⟨⟩
    exact filter_renamed fun asked hasks => hR asked (.filter search hasks)
  -- The clause is put together from those of the text and of the filter, if they are there.
  cases search with
  | none =>
    cases tree with
    | none =>
      obtain rfl := hclause
      obtain rfl := hother
      exact .everything
    | some filter => exact htree rfl hclause hother
  | some text =>
    cases tree with
    | none =>
      obtain rfl := hclause
      obtain rfl := hother
      exact hsearch text rfl
    | some filter =>
      obtain ⟨found, hfound, rfl⟩ := hclause
      obtain ⟨found', hfound', rfl⟩ := hother
      exact .all (.cons (hsearch text rfl) (.cons (htree rfl hfound hfound') .nil)) .nil

theorem mem_fields_document {compiler : Compiler} {document : Document} {clause : Clause}
    (hclause : compiler.document document = .ok clause) {asked : Asked}
    (hasks : document.Asks asked) : asked = .geo ∨ asked.name compiler.names ∈ clause.fields := by
  rw [document_eq_ok_iff] at hclause
  cases hasks with
  | search text tree =>
    cases tree with
    | none =>
      obtain rfl := hclause
      exact .inr (List.mem_singleton_self _)
    | some filter =>
      obtain ⟨found, _, rfl⟩ := hclause
      exact .inr List.mem_cons_self
  | @filter search tree _ hasks =>
    cases search with
    | none => exact mem_fields_filter hclause hasks
    | some text =>
      obtain ⟨found, hfound, rfl⟩ := hclause
      refine (mem_fields_filter hfound hasks).imp_right fun hmem => ?_
      rw [← Clause.allOf_eq_all (by simp), Clause.fields_allOf, List.mem_flatMap]
      exact ⟨found, List.mem_cons_of_mem _ (List.mem_singleton_self found), hmem⟩

/-- Names of fields are names only. Under any two ways to call the fields a document is refused for
the same reason, or it becomes two clauses that are the same but for their fields, and at
corresponding places these are called for the same thing that the document asks for. So no clause
looks at a field that its document does not ask for, and it looks at all of them but for places that
are asked for with areas without polygons. -/
theorem document_same_but_names (lookup : Lookup) (names others : FieldNames)
    (document : Document) :
    (∃ error, Compiler.document ⟨lookup, names⟩ document = .error error ∧
      Compiler.document ⟨lookup, others⟩ document = .error error) ∨
    ∃ clause other, Compiler.document ⟨lookup, names⟩ document = .ok clause ∧
      Compiler.document ⟨lookup, others⟩ document = .ok other ∧
      clause.Renamed (fun field field' => ∃ asked, document.Asks asked ∧
        field = asked.name names ∧ field' = asked.name others) other ∧
      (∀ field ∈ clause.fields, ∃ asked, document.Asks asked ∧ field = asked.name names) ∧
      ∀ asked, document.Asks asked → asked = .geo ∨ asked.name names ∈ clause.fields := by
  -- Areas are looked up under their own names, so both fail with the same area or none does.
  have hfailure : failure? (Compiler.document ⟨lookup, names⟩ document) =
      failure? (Compiler.document ⟨lookup, others⟩ document) := by
    rw [failure?_document, failure?_document]
    rfl
  cases hclause : Compiler.document ⟨lookup, names⟩ document with
  | error error =>
    rw [hclause, failure?_error, eq_comm, failure?_eq_some_iff] at hfailure
    exact .inl ⟨error, rfl, hfailure⟩
  | ok clause =>
    rw [hclause, failure?_ok, eq_comm, failure?_eq_none_iff] at hfailure
    obtain ⟨other, hother⟩ := hfailure
    have hrenamed := document_renamed (R := fun field field' => ∃ asked, document.Asks asked ∧
      field = asked.name names ∧ field' = asked.name others)
      (fun asked hasks => ⟨asked, hasks, rfl, rfl⟩) hclause hother
    refine .inr ⟨clause, other, rfl, hother, hrenamed, fun field hfield => ?_,
      fun asked hasks => mem_fields_document hclause hasks⟩
    obtain ⟨_, _, asked, hasks, hname, _⟩ := hrenamed.exists_of_mem_fields hfield
    exact ⟨asked, hasks, hname⟩

end Compiler

end RecordQuery.Query
