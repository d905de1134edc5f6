import RecordQuery.Proofs.Canonical.Coordinates

/-!
# What the canonical text leaves out

Filters that differ in the order of what is unordered, or in what is never looked at, are alike.
Main statement: alike filters have one canonical text, and documents that search for the same
text through alike filters have one cache key.
-/

namespace RecordQuery.Query

open Json (Number)

namespace Term

/-- The fields a term names; terms about places name none. -/
def fields : Term → List String
  | .stringEquals fields _ => fields
  | .stringContains fields _ => fields
  | .numberEquals fields _ => fields
  | .numberRange range => range.fields
  | .presence fields _ => fields
  | .nearPoint _ => []
  | .namedArea _ => []
  | .customArea _ => []

/-- The term with other fields in place of those it names. -/
def withFields (fields : List String) : Term → Term
  | .stringEquals _ value => .stringEquals fields value
  | .stringContains _ value => .stringContains fields value
  | .numberEquals _ value => .numberEquals fields value
  | .numberRange range => .numberRange { range with fields := fields }
  | .presence _ ofGeo => .presence fields ofGeo
  | .nearPoint near => .nearPoint near
  | .namedArea area => .namedArea area
  | .customArea custom => .customArea custom

theorem canonical_withFields {leaf : Term} {fields : List String}
    (h : leaf.fields.Perm fields) : (leaf.withFields fields).canonical = leaf.canonical := by
  have htext : fieldsText fields = fieldsText leaf.fields := sortedJoin_eq_of_perm h.symm
  cases leaf with
  | stringEquals _ value =>
    rw [withFields, canonical_stringEquals, canonical_stringEquals, htext, Term.fields]
  | stringContains _ value =>
    rw [withFields, canonical_stringContains, canonical_stringContains, htext, Term.fields]
  | numberEquals _ value =>
    rw [withFields, canonical_numberEquals, canonical_numberEquals, htext, Term.fields]
  | numberRange range =>
    rw [withFields, canonical_numberRange, canonical_numberRange, htext, Term.fields]
  | presence _ ofGeo =>
    cases ofGeo with
    | true => rfl
    | false =>
      rw [withFields, canonical_presence_fields, canonical_presence_fields, htext, Term.fields]
  | nearPoint near => rfl
  | namedArea area => rfl
  | customArea custom => rfl

end Term

/-- Every position cut off behind its first two numbers. -/
def planar (coordinates : Coordinates) : Coordinates :=
  coordinates.map fun polygon => polygon.map fun ring => ring.map (·.take 2)

theorem planar_cons (outer : List (List Number)) (holes : List (List (List Number)))
    (rest : Coordinates) : planar ((outer :: holes) :: rest) =
      (outer.map (·.take 2) :: holes.map fun ring => ring.map (·.take 2)) :: planar rest := rfl

/-- The least equivalence of filters that lets members of groups change places or give way to
alike ones, lets fields and holes change places, and disregards what has no say: the fields of a
presence that is about the place, whether a bound that is not there is included, and the numbers
of a position behind the first two. The area that coordinates denote follows from them and is
left open. -/
inductive Filter.Alike : Filter → Filter → Prop
  | refl (filter : Filter) : Alike filter filter
  | symm {f g : Filter} : Alike f g → Alike g f
  | trans {f g h : Filter} : Alike f g → Alike g h → Alike f h
  | members (connective : Connective) {members others : List Filter} :
      members.Perm others → Alike (.group connective members) (.group connective others)
  | member (connective : Connective) (before after : List Filter) {f g : Filter} :
      Alike f g →
        Alike (.group connective (before ++ f :: after)) (.group connective (before ++ g :: after))
  | fields (leaf : Term) {fields : List String} :
      leaf.fields.Perm fields → Alike (.term leaf) (.term (leaf.withFields fields))
  | holes (before after : Coordinates) (outer : List (List Number))
      {holes others : List (List (List Number))} (area other : Area) : holes.Perm others →
      Alike (.term (.customArea ⟨before ++ (outer :: holes) :: after, area⟩))
        (.term (.customArea ⟨before ++ (outer :: others) :: after, other⟩))
  | geoFields (fields others : List String) :
      Alike (.term (.presence fields true)) (.term (.presence others true))
  | openAbove (range : NumberRange) (included : Bool) : range.upper = none →
      Alike (.term (.numberRange range))
        (.term (.numberRange { range with upperIncluded := included }))
  | openBelow (range : NumberRange) (included : Bool) : range.lower = none →
      Alike (.term (.numberRange range))
        (.term (.numberRange { range with lowerIncluded := included }))
  | surplus {coordinates others : Coordinates} (area other : Area) :
      planar coordinates = planar others →
      Alike (.term (.customArea ⟨coordinates, area⟩)) (.term (.customArea ⟨others, other⟩))

theorem polygonText_holes (outer hole : List (List Number)) (holes : List (List (List Number))) :
    polygonText (outer :: hole :: holes) =
      ringText outer ++ "/[" ++ sortedJoin "|" ((hole :: holes).map ringText) ++ "]" := rfl

-- The texts of the rings decide the text of a polygon, those of the holes in any order.
theorem polygonText_congr {outer outer' : List (List Number)}
    {holes others : List (List (List Number))} (houter : ringText outer = ringText outer')
    (hholes : (holes.map ringText).Perm (others.map ringText)) :
    polygonText (outer :: holes) = polygonText (outer' :: others) := by
  cases holes with
  | nil =>
    rw [List.map_eq_nil_iff.1 (List.nil_perm.1 hholes)]
    exact houter
  | cons hole holes =>
    cases others with
    | nil => exact absurd hholes List.not_perm_cons_nil
    | cons other others =>
      rw [polygonText_holes, polygonText_holes, houter, sortedJoin_eq_of_perm hholes]

theorem ringText_map_take (ring : List (List Number)) :
    ringText (ring.map (·.take 2)) = ringText ring := by
  rw [ringText, ringText, List.filterMap_map]
  congr 2
  funext position
  cases position with
  | nil => rfl
  | cons lon rest =>
    cases rest with
    | nil => rfl
    | cons lat surplus => rfl

theorem coordinatesText_planar (coordinates : Coordinates) :
    coordinatesText (planar coordinates) = coordinatesText coordinates := by
  have hpolygon : ∀ polygon : List (List (List Number)),
      polygonText (polygon.map fun ring => ring.map (·.take 2)) = polygonText polygon
    | [] => rfl
    | outer :: holes => by
      have hholes : (holes.map fun ring => ring.map (·.take 2)).map ringText =
          holes.map ringText := by
        rw [List.map_map]
        exact List.map_congr_left fun ring _ => ringText_map_take ring
      rw [List.map_cons]
      exact polygonText_congr (ringText_map_take outer) (hholes ▸ .refl _)
  rw [coordinatesText, coordinatesText, planar, List.map_map]
  congr 1
  exact List.map_congr_left fun polygon _ => hpolygon polygon

theorem Filter.Alike.canonical_eq {f g : Filter} (h : Filter.Alike f g) :
    f.canonical = g.canonical := by
  induction h with
  | refl => rfl
  | symm _ ih => exact ih.symm
  | trans _ _ ihf ihg => exact ihf.trans ihg
  | members connective h =>
    rw [canonical_group, canonical_group, sortedJoin_eq_of_perm (h.map canonical)]
  | member connective before after _ ih =>
    rw [canonical_group, canonical_group, List.map_append, List.map_append, List.map_cons,
      List.map_cons, ih]
  | fields leaf h => rw [canonical_term, canonical_term, Term.canonical_withFields h]
  | holes before after outer area other h =>
    rw [canonical_term, canonical_term, Term.canonical_customArea, Term.canonical_customArea,
      coordinatesText, coordinatesText, List.map_append, List.map_append, List.map_cons,
      List.map_cons, polygonText_congr (Eq.refl (ringText outer)) (h.map ringText)]
  | geoFields => rfl
  | openAbove range included h =>
    rw [canonical_term, canonical_term, Term.canonical_numberRange, Term.canonical_numberRange, h]
    rfl
  | openBelow range included h =>
    rw [canonical_term, canonical_term, Term.canonical_numberRange, Term.canonical_numberRange, h]
    rfl
  | surplus area other h =>
    rw [canonical_term, canonical_term, Term.canonical_customArea, Term.canonical_customArea,
      ← coordinatesText_planar, h, coordinatesText_planar]

/-! ## Ways to be alike -/

/-- The bounds that are there are the same, and so is whether they are in the range. -/
structure NumberRange.SameBounds (range other : NumberRange) : Prop where
  upper : range.upper = other.upper
  lower : range.lower = other.lower
  upperIncluded : range.upper ≠ none → range.upperIncluded = other.upperIncluded
  lowerIncluded : range.lower ≠ none → range.lowerIncluded = other.lowerIncluded

namespace Filter.Alike

-- Groups are alike whose members are, in whatever order they stand.
theorem group (connective : Connective) {members others permuted : List Filter}
    (hmembers : List.Forall₂ Filter.Alike members permuted) (hperm : permuted.Perm others) :
    Filter.Alike (.group connective members) (.group connective others) := by
  -- One member after the other gives way; those before it have done so already.
  have hone : ∀ before : List Filter, Filter.Alike (.group connective (before ++ members))
      (.group connective (before ++ permuted)) := by
    clear hperm
    induction hmembers with
    | nil => exact fun before => .refl _
    | @cons f g members permuted hfirst _ ih =>
      intro before
      have hrest := ih (before ++ [g])
      rw [List.append_assoc, List.append_assoc] at hrest
      exact (Filter.Alike.member connective before members hfirst).trans hrest
  exact (hone []).trans (.members connective hperm)

-- Ranges are alike that ask the same of each bound that is there.
theorem numberRange {range other : NumberRange} (hfields : range.fields = other.fields)
    (h : range.SameBounds other) :
    Filter.Alike (.term (.numberRange range)) (.term (.numberRange other)) := by
  -- One bound at a time is adapted, through the range that has only the upper one adapted.
  have habove : Filter.Alike (.term (.numberRange range))
      (.term (.numberRange { range with upperIncluded := other.upperIncluded })) := by
    by_cases hopen : range.upper = none
    · exact .openAbove range other.upperIncluded hopen
    · rw [← h.upperIncluded hopen]
      exact .refl _
  have hbelow : Filter.Alike
      (.term (.numberRange { range with upperIncluded := other.upperIncluded }))
      (.term (.numberRange other)) := by
    obtain ⟨hupper, hlower, _, hlowerIncluded⟩ := h
    obtain ⟨fields, upper, upperIncluded, lower, lowerIncluded⟩ := range
    obtain ⟨fields', upper', upperIncluded', lower', lowerIncluded'⟩ := other
    cases hfields
    cases hupper
    cases hlower
    by_cases hopen : lower = none
    · exact .openBelow _ lowerIncluded' hopen
    · have hincluded : lowerIncluded = lowerIncluded' := hlowerIncluded hopen
      rw [hincluded]
      exact .refl _
  exact habove.trans hbelow

-- Areas are alike whose polygons are the same but for the order of holes.
theorem customArea {custom other : CustomArea}
    (h : List.Forall₂ SamePolygon custom.coordinates other.coordinates) :
    Filter.Alike (.term (.customArea custom)) (.term (.customArea other)) := by
  obtain ⟨coordinates, area⟩ := custom
  obtain ⟨others, other⟩ := other
  change List.Forall₂ SamePolygon coordinates others at h
  -- Surplus numbers are cut off on both sides, so that only the order of holes is left.
  have hplanar : ∀ coordinates, planar (planar coordinates) = planar coordinates := by
    intro coordinates
    simp [planar, List.map_map, Function.comp_def, List.take_take]
  -- The polygons before those in the list have their holes in the right order already.
  have hholes : ∀ before : Coordinates,
      Filter.Alike (.term (.customArea ⟨before ++ planar coordinates, area⟩))
        (.term (.customArea ⟨before ++ planar others, area⟩)) := by
    induction h with
    | nil => exact fun before => .refl _
    | @cons rings rings' rest rest' hfirst _ ih =>
      intro before
      obtain ⟨outer, holes, outer', holes', rfl, rfl, houter, hperm⟩ := hfirst
      have hstep := Filter.Alike.holes before (planar rest) (outer.map (·.take 2)) area area hperm
      have hrest := ih (before ++ [outer.map (·.take 2) :: holes'.map fun ring =>
        ring.map (·.take 2)])
      rw [List.append_assoc, List.append_assoc, houter] at hrest
      rw [houter] at hstep
      rw [planar_cons, planar_cons, houter]
      exact hstep.trans hrest
  have hleft := Filter.Alike.surplus area area (hplanar coordinates).symm
  have hright := Filter.Alike.surplus other area (hplanar others).symm
  exact hleft.trans ((hholes []).trans hright.symm)

end Filter.Alike

/-! ## The cache key -/

/-- The order in which a filter is written, at any depth, has no influence on its text or on the
key of a document. -/
theorem cacheKey_order_independent :
    (∀ f g : Filter, Filter.Alike f g → f.canonical = g.canonical) ∧
      ∀ d e : Document, d.search = e.search → Option.Rel Filter.Alike d.filter e.filter →
        d.cacheKey = e.cacheKey := by
  refine ⟨fun f g h => h.canonical_eq, ?_⟩
  rintro ⟨search, f⟩ ⟨_, g⟩ rfl hfilter
  cases hfilter with
  | none => rfl
  | some h =>
    rw [Document.cacheKey, Document.cacheKey, Document.canonicalLines, Document.canonicalLines,
      Option.map_some, Option.map_some, h.canonical_eq]

/-- Members change places in an outer group and fields in a member of an inner one. -/
theorem cacheKey_order_independent_nested :
    let seen : Filter := .term (.presence ["seen"] false)
    let d : Document := ⟨some "fern", some (.group .any [seen,
      .group .none [.term (.stringEquals ["genus", "family"] "Azolla"), seen]])⟩
    let e : Document := ⟨some "fern", some (.group .any
      [.group .none [.term (.stringEquals ["family", "genus"] "Azolla"), seen], seen])⟩
    Option.Rel Filter.Alike d.filter e.filter ∧ d.cacheKey = e.cacheKey := by
  intro seen d e
  have hinner := Filter.Alike.member .none [] [seen]
    (.fields (.stringEquals ["genus", "family"] "Azolla") (List.Perm.swap "family" "genus" []))
  have halike : Option.Rel Filter.Alike d.filter e.filter :=
    .some ((Filter.Alike.member .any [seen] [] hinner).trans
      (.members .any (List.Perm.swap _ seen [])))
  exact ⟨halike, cacheKey_order_independent.2 d e rfl halike⟩

end RecordQuery.Query
