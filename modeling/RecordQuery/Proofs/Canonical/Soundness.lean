import RecordQuery.Proofs.Canonical.Legible

/-!
# Filters with the same text

The canonical text is the key under which answers are kept, so filters with the same text should
mean the same. Main statement: of filters that were read from documents and are legible, two have
the same text if and only if they are alike, and then they mean the same. Names that are not
legible break this.
-/

namespace RecordQuery.Query

open Json (Number Value goesOn)
open Text (Enclosed)

/-- Filters that are written alike and say the same. -/
structure Filter.Matches (f g : Filter) : Prop where
  alike : Filter.Alike f g
  agrees : Filter.Agrees f g

namespace Filter.Matches

theorem refl (filter : Filter) : Filter.Matches filter filter :=
  ⟨.refl filter, fun _ => Iff.rfl, fun _ _ => rfl⟩

theorem trans {f g h : Filter} (hfg : f.Matches g) (hgh : g.Matches h) : f.Matches h :=
  ⟨hfg.alike.trans hgh.alike, hfg.agrees.trans hgh.agrees⟩

theorem withFields {leaf : Term} {fields : List String} (h : leaf.fields.Perm fields) :
    Filter.Matches (.term leaf) (.term (leaf.withFields fields)) :=
  ⟨.fields leaf h, .withFields h⟩

theorem group (connective : Connective) {members others permuted : List Filter}
    (hmembers : List.Forall₂ Filter.Matches members permuted) (hperm : permuted.Perm others) :
    Filter.Matches (.group connective members) (.group connective others) :=
  ⟨.group connective (hmembers.imp fun _ _ h => h.alike) hperm,
    .group connective (hmembers.imp fun _ _ h => h.agrees) hperm⟩

end Filter.Matches

/-! ## Terms -/

namespace Term

theorem matches_of_text_stringEquals {fields others : List String} {value value' : String}
    (hne : fields ≠ []) (hne' : others ≠ [])
    (hfields : Separate fields ∧ ∀ field ∈ fields, ';' ∉ field.toList)
    (hothers : Separate others ∧ ∀ field ∈ others, ';' ∉ field.toList)
    (h : canonical (.stringEquals fields value) = canonical (.stringEquals others value')) :
    Filter.Matches (.term (.stringEquals fields value)) (.term (.stringEquals others value')) := by
  rw [canonical_stringEquals, canonical_stringEquals] at h
  obtain ⟨htext, rfl⟩ := split_first (semicolon_not_mem_append (by decide)
    (semicolon_not_mem_fieldsText hfields.2)) (semicolon_not_mem_append (by decide)
    (semicolon_not_mem_fieldsText hothers.2)) h
  exact .withFields (perm_of_fieldsText_eq hfields.1 hothers.1 hne hne'
    ((String.append_right_inj _).1 htext))

-- Without fields a word is looked for everywhere, and no fields leave no text behind.
theorem matches_of_text_stringContains {fields others : List String} {value value' : String}
    (hfields : Legible (.stringContains fields value))
    (hothers : Legible (.stringContains others value'))
    (h : canonical (.stringContains fields value) = canonical (.stringContains others value')) :
    Filter.Matches (.term (.stringContains fields value))
      (.term (.stringContains others value')) := by
  obtain ⟨hfields, hsemicolon, hempty⟩ := hfields
  obtain ⟨hothers, hsemicolon', hempty'⟩ := hothers
  rw [canonical_stringContains, canonical_stringContains] at h
  obtain ⟨htext, rfl⟩ := split_first (semicolon_not_mem_append (by decide)
    (semicolon_not_mem_fieldsText hsemicolon)) (semicolon_not_mem_append (by decide)
    (semicolon_not_mem_fieldsText hsemicolon')) h
  have hjoined := (String.append_right_inj _).1 htext
  by_cases hnil : fields = []
  · by_cases hnil' : others = []
    · rw [hnil, hnil']
      exact .refl _
    · rw [hnil] at hjoined
      exact absurd (eq_of_fieldsText_eq_nil hothers hnil' hjoined.symm) hempty'
  · by_cases hnil' : others = []
    · rw [hnil'] at hjoined
      exact absurd (eq_of_fieldsText_eq_nil hfields hnil hjoined) hempty
    · exact .withFields (perm_of_fieldsText_eq hfields hothers hnil hnil' hjoined)

theorem matches_of_text_numberEquals {fields others : List String} {value value' : Number}
    (hne : fields ≠ []) (hne' : others ≠ []) (hfields : Separate fields)
    (hothers : Separate others)
    (h : canonical (.numberEquals fields value) = canonical (.numberEquals others value')) :
    Filter.Matches (.term (.numberEquals fields value)) (.term (.numberEquals others value')) := by
  rw [canonical_numberEquals, canonical_numberEquals] at h
  obtain ⟨htext, hvalue⟩ := split_last (semicolon_not_mem_render value)
    (semicolon_not_mem_render value') h
  obtain rfl := Number.render_injective hvalue
  exact .withFields (perm_of_fieldsText_eq hfields hothers hne hne'
    ((String.append_right_inj _).1 htext))

-- Both bounds are read off what stands behind the last semicolon.
theorem sameBounds_of_boundText_eq {range range' : NumberRange}
    (h : boundText "<" range.upperIncluded range.upper ++
        boundText ">" range.lowerIncluded range.lower =
      boundText "<" range'.upperIncluded range'.upper ++
        boundText ">" range'.lowerIncluded range'.lower) :
    range.SameBounds range' := by
  have hless : "<" = String.singleton '<' := rfl
  have hgreater : ">" = String.singleton '>' := rfl
  -- The lower bound goes on neither like a number nor like an upper bound.
  have hstop : ∀ included bound,
      goesOn (boundText (String.singleton '>') included bound).toList = false ∧
        '<' ∉ (boundText (String.singleton '>') included bound).toList.head? := by
    intro included bound
    cases bound with
    | none => exact ⟨rfl, Option.not_mem_none '<'⟩
    | some bound =>
      rw [toList_boundText]
      exact ⟨rfl, by simp⟩
  have htext := congrArg String.toList h
  rw [hless, hgreater, String.toList_append, String.toList_append] at htext
  obtain ⟨hupper, hupperIncluded, hlower⟩ := boundText_append_inj (hstop _ _).1 (hstop _ _).1
    (hstop _ _).2 (hstop _ _).2 htext
  rw [← List.append_nil (boundText _ _ range.lower).toList,
    ← List.append_nil (boundText _ _ range'.lower).toList] at hlower
  obtain ⟨hlower, hlowerIncluded, _⟩ := boundText_append_inj rfl rfl (Option.not_mem_none '>')
    (Option.not_mem_none '>') hlower
  exact ⟨hupper, hlower, hupperIncluded, hlowerIncluded⟩

theorem parts_of_text_numberRange {range range' : NumberRange}
    (h : canonical (.numberRange range) = canonical (.numberRange range')) :
    fieldsText range.fields = fieldsText range'.fields ∧ range.SameBounds range' := by
  have hsplit : ∀ range : NumberRange, canonical (.numberRange range) =
      "number_range:" ++ fieldsText range.fields ++ ";" ++
        (boundText "<" range.upperIncluded range.upper ++
          boundText ">" range.lowerIncluded range.lower) := by
    intro range
    rw [canonical_numberRange, String.append_assoc]
  rw [hsplit, hsplit] at h
  have hbounds : ∀ range : NumberRange, ';' ∉
      (boundText "<" range.upperIncluded range.upper ++
        boundText ">" range.lowerIncluded range.lower).toList := fun range =>
    semicolon_not_mem_append
      (semicolon_not_mem_boundText (by decide : '<' ≠ ';') range.upperIncluded range.upper)
      (semicolon_not_mem_boundText (by decide : '>' ≠ ';') range.lowerIncluded range.lower)
  obtain ⟨htext, hboundsText⟩ := split_last (hbounds range) (hbounds range') h
  exact ⟨(String.append_right_inj _).1 htext, sameBounds_of_boundText_eq hboundsText⟩

theorem matches_of_text_numberRange {range range' : NumberRange}
    (hne : range.fields ≠ []) (hne' : range'.fields ≠ []) (hfields : Separate range.fields)
    (hothers : Separate range'.fields)
    (h : canonical (.numberRange range) = canonical (.numberRange range')) :
    Filter.Matches (.term (.numberRange range)) (.term (.numberRange range')) := by
  obtain ⟨htext, hbounds⟩ := parts_of_text_numberRange h
  have hsorted : Filter.Matches (.term (.numberRange range))
      (.term (.numberRange { range with fields := range'.fields })) :=
    .withFields (perm_of_fieldsText_eq hfields hothers hne hne' htext)
  have hsame : NumberRange.SameBounds { range with fields := range'.fields } range' :=
    ⟨hbounds.upper, hbounds.lower, hbounds.upperIncluded, hbounds.lowerIncluded⟩
  exact hsorted.trans ⟨.numberRange rfl hsame, .numberRange rfl hsame⟩

theorem matches_of_text_presence {fields others : List String} {ofGeo ofGeo' : Bool}
    (hfields : WellFormed (.presence fields ofGeo)) (hothers : WellFormed (.presence others ofGeo'))
    (hlegible : Legible (.presence fields ofGeo)) (hlegible' : Legible (.presence others ofGeo'))
    (h : canonical (.presence fields ofGeo) = canonical (.presence others ofGeo')) :
    Filter.Matches (.term (.presence fields ofGeo)) (.term (.presence others ofGeo')) := by
  have hheading : Filter.heading (.term (.presence fields ofGeo)) =
      Filter.heading (.term (.presence others ofGeo')) := heading_eq_of_canonical_eq h
  cases ofGeo with
  | true =>
    cases ofGeo' with
    | true => exact ⟨.geoFields fields others, fun _ => Iff.rfl, fun _ _ => rfl⟩
    | false => exact absurd hheading (by decide : "geo_exists" ≠ "exists")
  | false =>
    cases ofGeo' with
    | true => exact absurd hheading (by decide : "exists" ≠ "geo_exists")
    | false =>
      rw [canonical_presence_fields, canonical_presence_fields] at h
      exact .withFields (perm_of_fieldsText_eq (hlegible.resolve_left Bool.false_ne_true)
        (hlegible'.resolve_left Bool.false_ne_true) (hfields.resolve_left Bool.false_ne_true)
        (hothers.resolve_left Bool.false_ne_true) ((String.append_right_inj _).1 h))

-- The place is read from the end, as a unit may hold semicolons.
theorem place_eq_of_text_nearPoint {near near' : NearPoint}
    (h : canonical (.nearPoint near) = canonical (.nearPoint near')) :
    near.radius.render ++ near.unit = near'.radius.render ++ near'.unit ∧
      near.latitude = near'.latitude ∧ near.longitude = near'.longitude := by
  rw [canonical_nearPoint, canonical_nearPoint] at h
  obtain ⟨hbefore, hlongitude⟩ := split_last (semicolon_not_mem_render near.longitude)
    (semicolon_not_mem_render near'.longitude) h
  obtain ⟨hbefore, hlatitude⟩ := split_last (semicolon_not_mem_render near.latitude)
    (semicolon_not_mem_render near'.latitude) hbefore
  rw [String.append_assoc, String.append_assoc, String.append_right_inj] at hbefore
  exact ⟨hbefore, Number.render_injective hlatitude, Number.render_injective hlongitude⟩

theorem matches_of_text_nearPoint {near near' : NearPoint}
    (hunit : goesOn near.unit.toList = false) (hunit' : goesOn near'.unit.toList = false)
    (h : canonical (.nearPoint near) = canonical (.nearPoint near')) :
    Filter.Matches (.term (.nearPoint near)) (.term (.nearPoint near')) := by
  obtain ⟨hdistance, hlatitude, hlongitude⟩ := place_eq_of_text_nearPoint h
  have htext := congrArg String.toList hdistance
  rw [String.toList_append, String.toList_append] at htext
  obtain ⟨hradius, hunits⟩ := Number.render_append_inj hunit hunit' htext
  obtain ⟨latitude, longitude, radius, unit⟩ := near
  obtain ⟨latitude', longitude', radius', unit'⟩ := near'
  cases hlatitude
  cases hlongitude
  cases hradius
  cases String.toList_inj.1 hunits
  exact .refl _

theorem matches_of_text_namedArea {area area' : NamedArea} (harea : ';' ∉ area.category.toList)
    (harea' : ';' ∉ area'.category.toList)
    (h : canonical (.namedArea area) = canonical (.namedArea area')) :
    Filter.Matches (.term (.namedArea area)) (.term (.namedArea area')) := by
  rw [canonical_namedArea, canonical_namedArea] at h
  obtain ⟨hcategory, hname⟩ := split_first (semicolon_not_mem_append (by decide) harea)
    (semicolon_not_mem_append (by decide) harea') h
  obtain ⟨category, name⟩ := area
  obtain ⟨category', name'⟩ := area'
  cases (String.append_right_inj _).1 hcategory
  cases hname
  exact .refl _

theorem matches_of_text_customArea {custom custom' : CustomArea} (hcustom : custom.WellFormed)
    (hcustom' : custom'.WellFormed)
    (h : canonical (.customArea custom) = canonical (.customArea custom')) :
    Filter.Matches (.term (.customArea custom)) (.term (.customArea custom')) := by
  rw [canonical_customArea, canonical_customArea, String.append_right_inj] at h
  have hpolygons := coordinatesText_inj hcustom hcustom' h
  exact ⟨.customArea hpolygons, .customArea hcustom hcustom' hpolygons⟩

-- Terms that are legible are read back from their text.
theorem matches_of_canonical_eq {leaf leaf' : Term} (hleaf : leaf.WellFormed)
    (hleaf' : leaf'.WellFormed) (hlegible : leaf.Legible) (hlegible' : leaf'.Legible)
    (h : leaf.canonical = leaf'.canonical) : Filter.Matches (.term leaf) (.term leaf') := by
  -- Equal texts have equal operators, so terms of two kinds need not be compared.
  have hoperator : Filter.operator (.term leaf) = Filter.operator (.term leaf') :=
    operator_eq_of_canonical_eq h
  cases leaf with
  | stringEquals fields value =>
    cases leaf' with
    | stringEquals others value' =>
      exact matches_of_text_stringEquals hleaf hleaf' hlegible hlegible' h
    | _ => exact nomatch hoperator
  | stringContains fields value =>
    cases leaf' with
    | stringContains others value' => exact matches_of_text_stringContains hlegible hlegible' h
    | _ => exact nomatch hoperator
  | numberEquals fields value =>
    cases leaf' with
    | numberEquals others value' =>
      exact matches_of_text_numberEquals hleaf hleaf' hlegible hlegible' h
    | _ => exact nomatch hoperator
  | numberRange range =>
    cases leaf' with
    | numberRange range' => exact matches_of_text_numberRange hleaf hleaf' hlegible hlegible' h
    | _ => exact nomatch hoperator
  | presence fields ofGeo =>
    cases leaf' with
    | presence others ofGeo' => exact matches_of_text_presence hleaf hleaf' hlegible hlegible' h
    | _ => exact nomatch hoperator
  | nearPoint near =>
    cases leaf' with
    | nearPoint near' => exact matches_of_text_nearPoint hlegible hlegible' h
    | _ => exact nomatch hoperator
  | namedArea area =>
    cases leaf' with
    | namedArea area' => exact matches_of_text_namedArea hlegible hlegible' h
    | _ => exact nomatch hoperator
  | customArea custom =>
    cases leaf' with
    | customArea custom' => exact matches_of_text_customArea hleaf hleaf' h
    | _ => exact nomatch hoperator

end Term

/-! ## Filters -/

theorem toList_canonical_group (connective : Connective) (members : List Filter) :
    (Filter.canonical (.group connective members)).toList = connective.name.toList ++
      (':' :: '[' :: ((sortedJoin "|" (members.map Filter.canonical)).toList ++ [']'])) := by
  rw [Filter.canonical_group]
  simp only [String.toList_append, List.append_assoc]
  rfl

-- Within a group, the text of a member ends where the next bar stands outside of brackets.
theorem Filter.LegibleMember.enclosed {filter : Filter} (h : filter.LegibleMember) :
    Enclosed filter.canonical.toList := by
  induction h with
  | term _ henclosed => exact henclosed
  | @group connective members _ ih =>
    have hname : Enclosed (connective.name.toList ++ [':']) := by
      cases connective <;> decide
    have hmembers : Enclosed ('[' :: ((sortedJoin "|" (members.map Filter.canonical)).toList ++
        [']'])) := by
      apply Enclosed.bracketed
      -- Bars between the members are within the brackets of the group.
      apply depthAfter_sortedJoin rfl (by decide)
      intro text htext
      obtain ⟨member, hmember, rfl⟩ := List.mem_map.1 htext
      exact ih member hmember
    rw [toList_canonical_group]
    have hgroup := hname.append hmembers
    rwa [List.append_assoc] at hgroup

-- Members of legible groups are read back from the text of the group, but for their order.
theorem members_perm_of_canonical_eq {connective : Connective} {members others : List Filter}
    (hmembers : ∀ member ∈ members, member.LegibleMember)
    (hothers : ∀ member ∈ others, member.LegibleMember) (hne : members ≠ []) (hne' : others ≠ [])
    (h : Filter.canonical (.group connective members) =
      Filter.canonical (.group connective others)) :
    (members.map Filter.canonical).Perm (others.map Filter.canonical) := by
  have htexts : ∀ {members : List Filter}, (∀ member ∈ members, member.LegibleMember) →
      ∀ text ∈ members.map Filter.canonical, Enclosed text.toList := by
    intro members hmembers text htext
    obtain ⟨member, hmember, rfl⟩ := List.mem_map.1 htext
    exact (hmembers member hmember).enclosed
  rw [Filter.canonical_group, Filter.canonical_group, String.append_left_inj,
    String.append_right_inj] at h
  exact perm_of_sortedJoin_eq rfl Text.delimited_enclosed (htexts hmembers) (htexts hothers)
    (mt List.map_eq_nil_iff.1 hne) (mt List.map_eq_nil_iff.1 hne') h

theorem Filter.matches_of_canonical_eq {f g : Filter} (hf : f.WellFormed) (hg : g.WellFormed)
    (hlegible : f.Legible) (hlegible' : g.Legible) (h : f.canonical = g.canonical) :
    f.Matches g := by
  have hoperator := operator_eq_of_canonical_eq h
  induction f generalizing g with
  | group connective members ih =>
    cases g with
    | term leaf => exact nomatch hoperator
    | group connective' others =>
      have hconnective : connective = connective' := Operator.group.inj hoperator
      subst hconnective
      cases hf with
      | group _ hne hmembers =>
        cases hg with
        | group _ hne' hothers =>
          -- Members are matched by their texts; the induction then matches what they say.
          obtain ⟨permuted, hperm, htexts⟩ := exists_perm_of_map_perm
            (members_perm_of_canonical_eq hlegible hlegible' hne hne' h)
          refine .group connective (forall₂_of_map_eq ?_ htexts) hperm
          intro member hmember other hother htext
          have hother' := hperm.mem_iff.1 hother
          exact ih member hmember (hmembers member hmember) (hothers other hother')
            (hlegible member hmember).legible (hlegible' other hother').legible htext
            (operator_eq_of_canonical_eq htext)
  | term leaf =>
    cases g with
    | group connective others => exact nomatch hoperator
    | term leaf' =>
      cases hf with
      | term hleaf =>
        cases hg with
        | term hleaf' =>
          exact Term.matches_of_canonical_eq hleaf hleaf' hlegible hlegible' h

/-- For legible filters the text is a sound key: it is shared by those that differ in order only,
and filters that share it mean the same. -/
theorem canonical_sound {path path' : String} {value value' : Value} {f g : Filter}
    (hf : Filter.ofValue path value = .ok f) (hg : Filter.ofValue path' value' = .ok g)
    (hlegible : f.Legible) (hlegible' : g.Legible) :
    (f.canonical = g.canonical ↔ Filter.Alike f g) ∧
      (f.canonical = g.canonical → SameMeaning f g) := by
  have hmatches : f.canonical = g.canonical → f.Matches g :=
    Filter.matches_of_canonical_eq (Filter.wellFormed_of_ofValue hf)
      (Filter.wellFormed_of_ofValue hg) hlegible hlegible'
  exact ⟨⟨fun h => (hmatches h).alike, Filter.Alike.canonical_eq⟩,
    fun h => (hmatches h).agrees.sameMeaning⟩

/-- A fern of the genus or of the family, or whatever was seen. -/
def seenOrFern : Filter :=
  .group .any [.term (.presence ["seen"] false), .term (.stringEquals ["genus", "family"] "Azolla")]

/-- The same the other way round. -/
def fernOrSeen : Filter :=
  .group .any [.term (.stringEquals ["family", "genus"] "Azolla"), .term (.presence ["seen"] false)]

def textsValue (texts : List String) : Value := .array (texts.map .string)

def presenceValue (fields : List String) : Value :=
  .object [("exists", .object [("fields", textsValue fields)])]

def equalsValue (fields : List String) (value : String) : Value :=
  .object [("string_equals", .object [("fields", textsValue fields), ("value", .string value)])]

theorem seenOrFern_canonical_sound :
    Filter.ofValue "filters" (.object [("or", .array
        [presenceValue ["seen"], equalsValue ["genus", "family"] "Azolla"])]) = .ok seenOrFern ∧
      Filter.ofValue "filters" (.object [("or", .array
        [equalsValue ["family", "genus"] "Azolla", presenceValue ["seen"]])]) = .ok fernOrSeen ∧
      seenOrFern.Legible ∧ fernOrSeen.Legible ∧ SameMeaning seenOrFern fernOrSeen := by
  have hseen : Filter.LegibleMember (.term (.presence ["seen"] false)) :=
    .term (by decide) (Term.enclosed_canonical (.inr (List.cons_ne_nil _ _)) (by decide))
  have hfern : Filter.LegibleMember (.term (.stringEquals ["genus", "family"] "Azolla")) :=
    .term (by decide) (Term.enclosed_canonical (List.cons_ne_nil _ _) (by decide))
  have hfern' : Filter.LegibleMember (.term (.stringEquals ["family", "genus"] "Azolla")) :=
    .term (by decide) (Term.enclosed_canonical (List.cons_ne_nil _ _) (by decide))
  have hlegible : seenOrFern.Legible :=
    List.forall_mem_cons.2 ⟨hseen, List.forall_mem_singleton.2 hfern⟩
  have hlegible' : fernOrSeen.Legible :=
    List.forall_mem_cons.2 ⟨hfern', List.forall_mem_singleton.2 hseen⟩
  have halike : Filter.Alike seenOrFern fernOrSeen :=
    .group .any (.cons (.refl _) (.cons (.fields (.stringEquals ["genus", "family"] "Azolla")
      (List.Perm.swap "family" "genus" [])) .nil)) (List.Perm.swap _ _ [])
  refine ⟨rfl, rfl, hlegible, hlegible', ?_⟩
  have hread : Filter.ofValue "filters" (.object [("or", .array
      [presenceValue ["seen"], equalsValue ["genus", "family"] "Azolla"])]) = .ok seenOrFern := rfl
  have hread' : Filter.ofValue "filters" (.object [("or", .array
      [equalsValue ["family", "genus"] "Azolla", presenceValue ["seen"]])]) = .ok fernOrSeen := rfl
  have hsound := canonical_sound hread hread' hlegible hlegible'
  exact hsound.2 (hsound.1.2 halike)

/-! ## Filters that share a text -/

/-- Values that are read as filters of one text and of different meanings. -/
def Collide (value value' : Value) : Prop :=
  ∃ f g, Filter.ofValue "filters" value = .ok f ∧ Filter.ofValue "filters" value' = .ok g ∧
    f.canonical = g.canonical ∧ ¬ SameMeaning f g

def containsValue (fields : List String) (value : String) : Value :=
  .object [("string_contains", .object [("fields", textsValue fields), ("value", .string value)])]

def nearValue (radius : Number) (unit : String) : Value :=
  .object [("geo_point", .object [("latitude", .number .zero), ("longitude", .number .zero),
    ("radius", .number radius), ("radius_unit", .string unit)])]

def areaValue (category name : String) : Value :=
  .object [("geo_named_area", .object [(category, .string name)])]

/-- A record of which nothing is true. -/
def blankRecord : Record where
  text _ _ := false
  term _ _ := false
  present _ := false
  below _ _ := false
  atMost _ _ := false
  above _ _ := false
  atLeast _ _ := false
  near _ _ _ _ _ := false
  within _ _ := false

def plainCompiler : Compiler := ⟨.empty, .standard⟩

theorem collide_of_holds_ne {value value' : Value} {f g : Filter} (record : Record)
    (hf : Filter.ofValue "filters" value = .ok f) (hg : Filter.ofValue "filters" value' = .ok g)
    (hareas : f.namedAreas = []) (hareas' : g.namedAreas = []) (htext : f.canonical = g.canonical)
    (h : f.holds plainCompiler record ≠ g.holds plainCompiler record) : Collide value value' := by
  refine ⟨f, g, hf, hg, htext, not_sameMeaning_of_holds_ne ?_ ?_ h⟩
  · rw [hareas]
    exact fun _ hmem => absurd hmem List.not_mem_nil
  · rw [hareas']
    exact fun _ hmem => absurd hmem List.not_mem_nil

theorem fieldsText_of_pairwise {fields : List String} (h : fields.Pairwise (· ≤ ·)) :
    fieldsText fields = ",".intercalate fields :=
  sortedJoin_of_pairwise h

theorem fieldsText_singleton (field : String) : fieldsText [field] = field := by
  rw [fieldsText_of_pairwise (List.pairwise_singleton _ _), String.intercalate_singleton]

theorem canonical_presence_single (field : String) :
    Filter.canonical (.term (.presence [field] false)) = "exists:" ++ field := by
  rw [Filter.canonical_term, Term.canonical_presence_fields, fieldsText_singleton]

-- A field that goes on after the name of another one is stored elsewhere.
theorem qualified_append_beq {field rest : String} (h : rest ≠ "") :
    (FieldNames.standard.qualified (field ++ rest) ==
      FieldNames.standard.qualified field) = false := by
  rw [beq_eq_false_iff_ne, FieldNames.qualified, FieldNames.qualified, Ne,
    String.append_right_inj]
  intro heq
  have hlength := congrArg String.length heq
  rw [String.length_append] at hlength
  have hzero : rest.length = 0 := by omega
  exact h (String.length_eq_zero_iff.1 hzero)

theorem append_ne_empty {s t : String} (h : s ≠ "") : s ++ t ≠ "" := by
  intro hempty
  exact h (String.append_eq_empty_iff.1 hempty).1

-- Two fields are written like one with a comma in its name.
theorem collide_comma {left right : String} (h : left ≤ right) :
    Collide (presenceValue [left, right]) (presenceValue [left ++ "," ++ right]) := by
  have htext : Term.canonical (.presence [left, right] false) =
      Term.canonical (.presence [left ++ "," ++ right] false) := by
    rw [Term.canonical_presence_fields, Term.canonical_presence_fields, fieldsText_singleton,
      fieldsText_of_pairwise (List.pairwise_pair.2 h), String.intercalate_cons_cons,
      String.intercalate_singleton]
  -- Of a record that has only the first of the fields, one filter holds and the other does not.
  have hother := @qualified_append_beq left ("," ++ right) (append_ne_empty (by decide))
  refine collide_of_holds_ne (f := .term (.presence [left, right] false))
    (g := .term (.presence [left ++ "," ++ right] false)) { blankRecord with
      present := fun field => field == FieldNames.standard.qualified left } rfl rfl rfl rfl htext ?_
  simp [Filter.holds, Term.holds, plainCompiler, String.append_assoc, hother]

-- A semicolon may end the fields or be part of the value.
theorem collide_semicolon (field between value : String) :
    Collide (equalsValue [field ++ ";" ++ between] value)
      (equalsValue [field] (between ++ ";" ++ value)) := by
  have htext : Term.canonical (.stringEquals [field ++ ";" ++ between] value) =
      Term.canonical (.stringEquals [field] (between ++ ";" ++ value)) := by
    rw [Term.canonical_stringEquals, Term.canonical_stringEquals, fieldsText_singleton,
      fieldsText_singleton]
    simp only [String.append_assoc]
  have hother := @qualified_append_beq field (";" ++ between) (append_ne_empty (by decide))
  refine collide_of_holds_ne (f := .term (.stringEquals [field ++ ";" ++ between] value))
    (g := .term (.stringEquals [field] (between ++ ";" ++ value))) { blankRecord with
      term := fun stored _ => stored == FieldNames.standard.qualified field }
    rfl rfl rfl rfl htext ?_
  simp [Filter.holds, Term.holds, plainCompiler, String.append_assoc, hother]

-- A single field without a name is written like no field.
theorem collide_nameless (words : String) :
    Collide (containsValue [] words) (containsValue [""] words) := by
  have htext : Term.canonical (.stringContains [] words) =
      Term.canonical (.stringContains [""] words) := by
    rw [Term.canonical_stringContains, Term.canonical_stringContains, fieldsText_singleton,
      fieldsText_of_pairwise List.Pairwise.nil, String.intercalate_nil]
  refine collide_of_holds_ne (f := .term (.stringContains [] words))
    (g := .term (.stringContains [""] words)) { blankRecord with
      text := fun field _ => field == "meta.all" } rfl rfl rfl rfl htext ?_
  show true ≠ false
  decide

-- Where a radius ends and its unit begins is not written.
theorem collide_unit {radius radius' : Number} {unit unit' : String}
    (h : radius.render ++ unit = radius'.render ++ unit') (hne : unit ≠ unit') :
    Collide (nearValue radius unit) (nearValue radius' unit') := by
  have htext : Term.canonical (.nearPoint ⟨.zero, .zero, radius, unit⟩) =
      Term.canonical (.nearPoint ⟨.zero, .zero, radius', unit'⟩) := by
    have hparts : ∀ radius unit, Term.canonical (.nearPoint ⟨.zero, .zero, radius, unit⟩) =
        "geo_point:" ++ (radius.render ++ unit) ++ ";" ++ Number.zero.render ++ ";" ++
          Number.zero.render := by
      intro radius unit
      rw [Term.canonical_nearPoint, @String.append_assoc "geo_point:" radius.render unit]
    rw [hparts, hparts, h]
  refine collide_of_holds_ne (f := .term (.nearPoint ⟨.zero, .zero, radius, unit⟩))
    (g := .term (.nearPoint ⟨.zero, .zero, radius', unit'⟩)) { blankRecord with
      near := fun _ _ _ _ unit => unit == unit' } rfl rfl rfl rfl htext ?_
  show (unit == unit') ≠ (unit' == unit')
  simp [hne]

-- A semicolon may end the category or be part of the name.
theorem collide_category (category : Region.Category) (between name : String) :
    Collide (areaValue (category.name ++ ";" ++ between) name)
      (areaValue category.name (between ++ ";" ++ name)) := by
  have htext : Term.canonical (.namedArea ⟨category.name ++ ";" ++ between, name⟩) =
      Term.canonical (.namedArea ⟨category.name, between ++ ";" ++ name⟩) := by
    rw [Term.canonical_namedArea, Term.canonical_namedArea]
    simp only [String.append_assoc]
  have hnone : Region.Category.ofName? (category.name ++ ";" ++ between) = none := by
    rw [Region.Category.ofName?, List.find?_eq_none]
    intro other _ hname
    have hmem : ';' ∈ other.name.toList := by
      rw [eq_of_beq hname]
      simp
    cases other <;> exact absurd hmem (by decide)
  -- The longer name is that of an area here, and the longer category is that of none anywhere.
  let compiler : Compiler := ⟨Region.Lookup.empty.insert category
    (Region.RegionSet.empty.add (between ++ ";" ++ name) []), .standard⟩
  refine ⟨.term (.namedArea ⟨category.name ++ ";" ++ between, name⟩),
    .term (.namedArea ⟨category.name, between ++ ";" ++ name⟩), rfl, rfl, htext,
    @not_sameMeaning_of_unknown _ _ compiler ⟨category.name ++ ";" ++ between, name⟩
      List.mem_cons_self ?_ ?_⟩
  · rintro ⟨found, hfound⟩
    rw [Region.Lookup.get?, hnone] at hfound
    exact nomatch hfound
  · intro area harea
    rw [List.mem_singleton.1 harea]
    refine ⟨Area.empty, ?_⟩
    rw [Region.Lookup.get?, Region.Category.ofName?_name]
    simp [compiler, Region.Lookup.set?, Region.Lookup.insert, Region.PerCategory.get_set,
      Region.RegionSet.get?, Region.RegionSet.add, SortedMap.get?_insert, Region.RegionSet.empty]

/-- Any of the fields is there, one member for each. -/
def anySeen (fields : List String) : Filter :=
  .group .any (fields.map fun field => .term (.presence [field] false))

def anySeenValue (fields : List String) : Value :=
  .object [("or", .array (fields.map fun field => presenceValue [field]))]

theorem canonical_anySeen_pair {left right : String}
    (h : "exists:" ++ left ≤ "exists:" ++ right) :
    (anySeen [left, right]).canonical = (anySeen [left ++ "|exists:" ++ right]).canonical := by
  rw [anySeen, anySeen, Filter.canonical_group, Filter.canonical_group]
  simp only [List.map_cons, List.map_nil, canonical_presence_single]
  rw [sortedJoin_of_pairwise (List.pairwise_pair.2 h),
    sortedJoin_of_pairwise (List.pairwise_singleton _ _), String.intercalate_singleton,
    String.intercalate_cons_cons, String.intercalate_singleton]
  simp [← String.toList_inj]

-- Two members are written like one with a bar in its name, whatever brackets there are.
theorem collide_bar {left right : String} (h : "exists:" ++ left ≤ "exists:" ++ right) :
    Collide (anySeenValue [left, right]) (anySeenValue [left ++ "|exists:" ++ right]) := by
  have hother := @qualified_append_beq left ("|exists:" ++ right) (append_ne_empty (by decide))
  refine collide_of_holds_ne (f := anySeen [left, right])
    (g := anySeen [left ++ "|exists:" ++ right]) { blankRecord with
      present := fun field => field == FieldNames.standard.qualified left }
    rfl rfl rfl rfl (canonical_anySeen_pair h) ?_
  simp [anySeen, Filter.holds, Filter.truths, Term.holds, plainCompiler, String.append_assoc,
    hother]

/-- Every condition on names is needed: filters that break one share their text with filters that
mean something else. -/
theorem canonical_unsound :
    Collide (presenceValue ["a", "b"]) (presenceValue ["a,b"]) ∧
      Collide (equalsValue ["a;b"] "c") (equalsValue ["a"] "b;c") ∧
      Collide (containsValue [] "a") (containsValue [""] "a") ∧
      Collide (areaValue "marine;a" "b") (areaValue "marine" "a;b") ∧
      (Collide (nearValue (.integer 1 (by decide)) "0m")
          (nearValue (.integer 10 (by decide)) "m") ∧
        Collide (nearValue (.integer 1 (by decide)) ".5m")
          (nearValue ((Number.ofParts? false 15 (-1)).getD .zero) "m") ∧
        Collide (nearValue (.integer 1 (by decide)) "e+20m")
          (nearValue ((Number.ofParts? false 1 20).getD .zero) "m")) ∧
      Collide (anySeenValue ["a", "b"]) (anySeenValue ["a|exists:b"]) ∧
      Collide (anySeenValue ["a[", "b]"]) (anySeenValue ["a[|exists:b]"]) := by
  refine ⟨collide_comma (by decide), collide_semicolon "a" "b" "c", collide_nameless "a",
    collide_category .marine "a" "b", ⟨?_, ?_, ?_⟩, collide_bar (by decide),
    collide_bar (by decide)⟩
  · exact collide_unit (by decide) (by decide)
  · exact collide_unit (by decide +kernel) (by decide)
  · exact collide_unit (by decide +kernel) (by decide)

end RecordQuery.Query
