import RecordQuery.Proofs.Clause.Members

/-!
# What search bodies leave out

A search body shows all of its clause but for distances: a radius and its unit are written as one
text, and that text is lost where the field is called like the key it stands under. Main statement:
clauses have the same search body just when they are the same but for such distances.
-/

namespace RecordQuery

open Json (Number Value)

/-- The same clause but for distances: at corresponding places radius and unit are written alike,
or the field is called `distance` and takes the place of what would be written. -/
inductive Clause.SameButDistances : Clause → Clause → Prop
  | refl (clause : Clause) : SameButDistances clause clause
  | near (field : String) (lat lon : Number) {radius radius' : Number} {unit unit' : String} :
      field = "distance" ∨ radius.render ++ unit = radius'.render ++ unit' →
      SameButDistances (.near field lat lon radius unit) (.near field lat lon radius' unit')
  | all {children others excluded excluded' : List Clause} :
      List.Forall₂ SameButDistances children others →
      List.Forall₂ SameButDistances excluded excluded' →
      SameButDistances (.all children excluded) (.all others excluded')
  | any {children others : List Clause} (minMatch : UInt64) :
      List.Forall₂ SameButDistances children others →
      SameButDistances (.any children minMatch) (.any others minMatch)
  | none {children others : List Clause} :
      List.Forall₂ SameButDistances children others →
      SameButDistances (.none children) (.none others)

/-! ## Objects and their members -/

-- Objects that are put together from members in one way or another have the same members.
theorem find?_eq_of_ofMembers_eq {members others : List (String × Value)}
    (h : Value.ofMembers members = .ofMembers others) (key : String) :
    Entries.find? key members.reverse = Entries.find? key others.reverse := by
  have hentries : Entries.ofList members = Entries.ofList others := Value.object.inj h
  rw [← Entries.find?_ofList, ← Entries.find?_ofList, hentries]

theorem TermValue.body_injective {value other : TermValue} (h : value.body = other.body) :
    value = other := by
  cases value with
  | text words =>
    cases other with
    | text words' => rw [Value.string.inj h]
    | number n => exact nomatch h
  | number n =>
    cases other with
    | text words => exact nomatch h
    | number n' => rw [Value.number.inj h]

theorem Point.body_injective {p q : Point} (h : p.body = q.body) : p = q := by
  have hlat : some (Value.number (.decimal p.lat)) = some (.number (.decimal q.lat)) :=
    find?_eq_of_ofMembers_eq h "lat"
  have hlon : some (Value.number (.decimal p.lon)) = some (.number (.decimal q.lon)) :=
    find?_eq_of_ofMembers_eq h "lon"
  obtain ⟨lon, lat⟩ := p
  obtain ⟨lon', lat'⟩ := q
  simp only [Option.some.injEq, Value.number.injEq, Number.decimal.injEq] at hlat hlon
  rw [hlat, hlon]

namespace Bounds

/-- The bounds that are there, as members of an object. -/
def members (bounds : Bounds) : List (String × Value) :=
  bounds.entries.map fun (name, bound) => (name, .number bound)

theorem find?_members (bounds : Bounds) :
    Entries.find? "lt" bounds.members.reverse = bounds.lt.map .number ∧
      Entries.find? "lte" bounds.members.reverse = bounds.lte.map .number ∧
      Entries.find? "gt" bounds.members.reverse = bounds.gt.map .number ∧
      Entries.find? "gte" bounds.members.reverse = bounds.gte.map .number := by
  obtain ⟨lt, lte, gt, gte⟩ := bounds
  cases lt <;> cases lte <;> cases gt <;> cases gte <;> exact ⟨rfl, rfl, rfl, rfl⟩

theorem eq_of_members_eq {bounds other : Bounds}
    (h : Value.ofMembers bounds.members = .ofMembers other.members) : bounds = other := by
  have hbound : ∀ {a b : Option Number}, a.map Value.number = b.map Value.number → a = b :=
    fun {_ _} hab => Option.map_injective (fun _ _ => Value.number.inj) hab
  have hfind := find?_eq_of_ofMembers_eq h
  obtain ⟨hlt, hlte, hgt, hgte⟩ := bounds.find?_members
  obtain ⟨hlt', hlte', hgt', hgte'⟩ := other.find?_members
  obtain ⟨lt, lte, gt, gte⟩ := bounds
  obtain ⟨lt', lte', gt', gte'⟩ := other
  rw [Bounds.mk.injEq]
  exact ⟨hbound (hlt.symm.trans ((hfind "lt").trans hlt')),
    hbound (hlte.symm.trans ((hfind "lte").trans hlte')),
    hbound (hgt.symm.trans ((hfind "gt").trans hgt')),
    hbound (hgte.symm.trans ((hfind "gte").trans hgte'))⟩

end Bounds

namespace Clause

section Simple

variable {field field' : String}

theorem single_inj {kind kind' : String} {content content' : Value}
    (h : single kind content = single kind' content') : kind = kind' ∧ content = content' := by
  simpa [single] using h

theorem keyed_inj {kind kind' : String} {content content' : Value}
    (h : keyed kind field content = keyed kind' field' content') :
    field = field' ∧ content = content' :=
  single_inj (single_inj h).2

theorem kind_eq_of_body_eq {clause other : Clause} (h : clause.body = other.body) :
    clause.kind = other.kind := by
  obtain ⟨content, hbody⟩ := clause.exists_body_eq
  obtain ⟨content', hbody'⟩ := other.exists_body_eq
  rw [hbody, hbody'] at h
  exact (single_inj h).1

theorem text_eq_of_body_eq {words words' : String}
    (h : body (.text field words) = body (.text field' words')) :
    Clause.text field words = .text field' words' := by
  obtain ⟨rfl, hoptions⟩ := keyed_inj h
  have hwords : some (Value.string words) = some (.string words') :=
    find?_eq_of_ofMembers_eq hoptions "query"
  rw [Value.string.inj (Option.some.inj hwords)]

theorem term_eq_of_body_eq {value value' : TermValue}
    (h : body (.term field value) = body (.term field' value')) :
    Clause.term field value = .term field' value' := by
  obtain ⟨rfl, hvalue⟩ := keyed_inj h
  rw [TermValue.body_injective hvalue]

theorem range_eq_of_body_eq {bounds bounds' : Bounds}
    (h : body (.range field bounds) = body (.range field' bounds')) :
    Clause.range field bounds = .range field' bounds' := by
  obtain ⟨rfl, hbounds⟩ := keyed_inj h
  rw [Bounds.eq_of_members_eq hbounds]

theorem present_eq_of_body_eq (h : body (.present field) = body (.present field')) :
    Clause.present field = .present field' := by
  rw [Value.string.inj (keyed_inj h).2]

theorem within_eq_of_body_eq {ring ring' : Ring}
    (h : body (.within field ring) = body (.within field' ring')) :
    Clause.within field ring = .within field' ring' := by
  obtain ⟨rfl, hpoints⟩ := keyed_inj h
  have hring : ring.map Point.body = ring'.map Point.body := Value.array.inj (single_inj hpoints).2
  rw [(List.map_inj_right fun _ _ => Point.body_injective).1 hring]

end Simple

/-! ## Distances -/

-- What stands under a key where a distance is asked: the point comes last and is in force.
theorem find?_near (key field text : String) (point : Value) :
    Entries.find? key [("distance", Value.string text), (field, point)].reverse =
      if field = key then some point
      else if "distance" = key then some (.string text) else Option.none := rfl

theorem sameButDistances_of_body_near_eq {field field' : String}
    {lat lat' lon lon' radius radius' : Number} {unit unit' : String}
    (h : body (.near field lat lon radius unit) = body (.near field' lat' lon' radius' unit')) :
    SameButDistances (.near field lat lon radius unit)
      (.near field' lat' lon' radius' unit') := by
  have hfind := find?_eq_of_ofMembers_eq (single_inj h).2
  simp only [find?_near] at hfind
  -- Under the name of the field there is a point, which the text of a distance is not.
  have hfield : field = field' := by
    have hpoint := hfind field
    rw [if_pos rfl] at hpoint
    by_contra hne
    rw [if_neg (Ne.symm hne)] at hpoint
    split at hpoint
    · exact nomatch Option.some.inj hpoint
    · exact nomatch hpoint
  subst hfield
  have hpoint := hfind field
  rw [if_pos rfl, if_pos rfl, Option.some.injEq] at hpoint
  have hlat : some (Value.number lat) = some (.number lat') :=
    find?_eq_of_ofMembers_eq hpoint "lat"
  have hlon : some (Value.number lon) = some (.number lon') :=
    find?_eq_of_ofMembers_eq hpoint "lon"
  rw [Value.number.inj (Option.some.inj hlat), Value.number.inj (Option.some.inj hlon)]
  apply SameButDistances.near
  by_cases hdistance : field = "distance"
  · exact .inl hdistance
  · have htext := hfind "distance"
    rw [if_neg hdistance, if_neg hdistance, if_pos rfl, if_pos rfl] at htext
    exact .inr (Value.string.inj (Option.some.inj htext))

-- A field called like the key leaves nothing of the distance, and another one leaves its text.
theorem body_near_eq {field : String} {radius radius' : Number} {unit unit' : String}
    (lat lon : Number)
    (h : field = "distance" ∨ radius.render ++ unit = radius'.render ++ unit') :
    body (.near field lat lon radius unit) = body (.near field lat lon radius' unit') := by
  have hlost : ∀ text point,
      Value.ofMembers [("distance", Value.string text), ("distance", point)] =
        .object [("distance", point)] := by
    intro text point
    simp [Value.ofMembers, Entries.ofList, Entries.insert]
  rw [body, body]
  rcases h with rfl | htext
  · rw [hlost, hlost]
  · rw [htext]

/-! ## Joins -/

theorem count_injective {m n : UInt64} (h : count m = count n) : m = n := by
  have hint : (m.toNat : Int) = n.toNat := by simpa [count] using h
  have hnat : m.toNat = n.toNat := by omega
  exact UInt64.toNat_inj.1 hnat

theorem exclusion_inj {bodies bodies' : List Value}
    (h : Entries.find? "must_not" (exclusion bodies) =
      Entries.find? "must_not" (exclusion bodies')) : bodies = bodies' := by
  cases bodies with
  | nil =>
    cases bodies' with
    | nil => rfl
    | cons first rest => exact nomatch h
  | cons first rest =>
    cases bodies' with
    | nil => exact nomatch h
    | cons first' rest' => exact Value.array.inj (Option.some.inj h)

theorem find?_all (bodies excluded : List Value) :
    Entries.find? "filter" (("filter", .array bodies) :: exclusion excluded).reverse =
        some (.array bodies) ∧
      Entries.find? "must_not" (("filter", .array bodies) :: exclusion excluded).reverse =
        Entries.find? "must_not" (exclusion excluded) := by
  cases excluded with
  | nil => exact ⟨rfl, rfl⟩
  | cons first rest => exact ⟨rfl, rfl⟩

section Joins

variable {children excluded : List Clause} {other : Clause}

-- The lists in a join and their names tell how its clauses are joined.
theorem eq_all_of_body_eq (h : body (.all children excluded) = other.body) :
    ∃ others excluded', other = .all others excluded' ∧ children.map body = others.map body ∧
      excluded.map body = excluded'.map body := by
  cases other with
  | all others excluded' =>
    rw [body_all, body_all] at h
    have hfind := find?_eq_of_ofMembers_eq (single_inj h).2
    have hfilter := hfind "filter"
    have hexcluded := hfind "must_not"
    rw [(find?_all _ _).1, (find?_all _ _).1] at hfilter
    rw [(find?_all _ _).2, (find?_all _ _).2] at hexcluded
    exact ⟨others, excluded', rfl, Value.array.inj (Option.some.inj hfilter),
      exclusion_inj hexcluded⟩
  | any others minMatch =>
    rw [body_all, body_any] at h
    have hfilter := find?_eq_of_ofMembers_eq (single_inj h).2 "filter"
    rw [(find?_all _ _).1] at hfilter
    exact nomatch hfilter
  | none others =>
    rw [body_all, body_none] at h
    have hfilter := find?_eq_of_ofMembers_eq (single_inj h).2 "filter"
    rw [(find?_all _ _).1] at hfilter
    exact nomatch hfilter
  | _ => exact absurd (kind_eq_of_body_eq h) (by simp [kind])

theorem eq_any_of_body_eq {minMatch : UInt64} (h : body (.any children minMatch) = other.body) :
    ∃ others, other = .any others minMatch ∧ children.map body = others.map body := by
  cases other with
  | all others excluded =>
    obtain ⟨_, _, hother, _⟩ := eq_all_of_body_eq h.symm
    exact nomatch hother
  | any others minMatch' =>
    rw [body_any, body_any] at h
    have hfind := find?_eq_of_ofMembers_eq (single_inj h).2
    have hshould : some (Value.array (children.map body)) = some (.array (others.map body)) :=
      hfind "should"
    have hcount : some (count minMatch) = some (count minMatch') := hfind "minimum_should_match"
    rw [count_injective (Option.some.inj hcount)]
    exact ⟨others, rfl, Value.array.inj (Option.some.inj hshould)⟩
  | none others =>
    rw [body_any, body_none] at h
    have hshould := find?_eq_of_ofMembers_eq (single_inj h).2 "should"
    exact nomatch (show some (Value.array (children.map body)) = Option.none from hshould)
  | _ => exact absurd (kind_eq_of_body_eq h) (by simp [kind])

theorem eq_none_of_body_eq (h : body (.none children) = other.body) :
    ∃ others, other = .none others ∧ children.map body = others.map body := by
  cases other with
  | all others excluded =>
    obtain ⟨_, _, hother, _⟩ := eq_all_of_body_eq h.symm
    exact nomatch hother
  | any others minMatch =>
    obtain ⟨_, hother, _⟩ := eq_any_of_body_eq h.symm
    exact nomatch hother
  | none others =>
    rw [body_none, body_none] at h
    have hexcluded : some (Value.array (children.map body)) = some (.array (others.map body)) :=
      find?_eq_of_ofMembers_eq (single_inj h).2 "must_not"
    exact ⟨others, rfl, Value.array.inj (Option.some.inj hexcluded)⟩
  | _ => exact absurd (kind_eq_of_body_eq h) (by simp [kind])

end Joins

/-! ## All clauses -/

theorem sameButDistances_of_body_eq {clause other : Clause} (h : clause.body = other.body) :
    SameButDistances clause other := by
  -- The kind of question leaves one constructor for the other clause, or the three of a join.
  induction clause generalizing other with
  | everything =>
    cases other with
    | everything => exact .refl _
    | _ => exact absurd (kind_eq_of_body_eq h) (by simp [kind])
  | text field words =>
    cases other with
    | text field' words' => exact text_eq_of_body_eq h ▸ .refl _
    | _ => exact absurd (kind_eq_of_body_eq h) (by simp [kind])
  | term field value =>
    cases other with
    | term field' value' => exact term_eq_of_body_eq h ▸ .refl _
    | _ => exact absurd (kind_eq_of_body_eq h) (by simp [kind])
  | range field bounds =>
    cases other with
    | range field' bounds' => exact range_eq_of_body_eq h ▸ .refl _
    | _ => exact absurd (kind_eq_of_body_eq h) (by simp [kind])
  | present field =>
    cases other with
    | present field' => exact present_eq_of_body_eq h ▸ .refl _
    | _ => exact absurd (kind_eq_of_body_eq h) (by simp [kind])
  | near field lat lon radius unit =>
    cases other with
    | near field' lat' lon' radius' unit' => exact sameButDistances_of_body_near_eq h
    | _ => exact absurd (kind_eq_of_body_eq h) (by simp [kind])
  | within field ring =>
    cases other with
    | within field' ring' => exact within_eq_of_body_eq h ▸ .refl _
    | _ => exact absurd (kind_eq_of_body_eq h) (by simp [kind])
  | all children excluded ihchildren ihexcluded =>
    obtain ⟨others, excluded', rfl, hchildren, hexcluded⟩ := eq_all_of_body_eq h
    exact .all
      (forall₂_of_map_eq (fun child hchild _ _ heq => ihchildren child hchild heq) hchildren)
      (forall₂_of_map_eq (fun clause hclause _ _ heq => ihexcluded clause hclause heq) hexcluded)
  | any children minMatch ih =>
    obtain ⟨others, rfl, hchildren⟩ := eq_any_of_body_eq h
    exact .any minMatch
      (forall₂_of_map_eq (fun child hchild _ _ heq => ih child hchild heq) hchildren)
  | none children ih =>
    obtain ⟨others, rfl, hchildren⟩ := eq_none_of_body_eq h
    exact .none (forall₂_of_map_eq (fun child hchild _ _ heq => ih child hchild heq) hchildren)

theorem body_eq_of_sameButDistances {clause other : Clause} (h : SameButDistances clause other) :
    clause.body = other.body := by
  -- Lists of related clauses have the same bodies if each of their clauses has.
  have hbodies : ∀ {clauses others : List Clause},
      (∀ clause ∈ clauses, ∀ other, SameButDistances clause other → clause.body = other.body) →
      List.Forall₂ SameButDistances clauses others → clauses.map body = others.map body :=
    fun {_ _} ih hclauses => map_eq_of_forall₂ (forall₂_imp_of_mem ih hclauses)
  induction clause generalizing other with
  | near field lat lon radius unit =>
    cases h with
    | refl => rfl
    | near _ _ _ hdistance => exact body_near_eq lat lon hdistance
  | all children excluded ihchildren ihexcluded =>
    cases h with
    | refl => rfl
    | all hchildren hexcluded =>
      rw [body_all, body_all, hbodies (fun child hchild _ => ihchildren child hchild) hchildren,
        hbodies (fun clause hclause _ => ihexcluded clause hclause) hexcluded]
  | any children minMatch ih =>
    cases h with
    | refl => rfl
    | any _ hchildren =>
      rw [body_any, body_any, hbodies (fun child hchild _ => ih child hchild) hchildren]
  | none children ih =>
    cases h with
    | refl => rfl
    | none hchildren =>
      rw [body_none, body_none, hbodies (fun child hchild _ => ih child hchild) hchildren]
  | _ =>
    cases h
    rfl

/-- Clauses are written as one search body just when they differ in nothing but distances. -/
theorem body_eq_iff_sameButDistances (clause other : Clause) :
    clause.body = other.body ↔ SameButDistances clause other :=
  ⟨sameButDistances_of_body_eq, body_eq_of_sameButDistances⟩

end Clause

end RecordQuery
