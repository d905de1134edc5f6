import RecordQuery.Proofs.Meaning.Agreement

/-!
# Filters that can be told from their text

Names, values and units stand in the canonical text as they are, next to the marks that set the
parts of the text apart. A filter is legible if they cannot be mistaken for each other. Main
statements: the text of any filter tells its operator, and the text of a term has only such
brackets and bars out of place as its author put there.
-/

namespace RecordQuery.Query

open Json (Number Value goesOn)
open Text (Behind Enclosed)

/-! ## Legible terms -/

/-- No comma is part of a name. -/
def Separate (fields : List String) : Prop := ∀ field ∈ fields, ',' ∉ field.toList

instance (fields : List String) : Decidable (Separate fields) :=
  inferInstanceAs (Decidable (∀ field ∈ fields, ',' ∉ field.toList))

/-- The parts of a term can be told from its text: commas and semicolons stand between them only,
and units do not go on like the radius before them. -/
def Term.Legible : Term → Prop
  | .stringEquals fields _ => Separate fields ∧ ∀ field ∈ fields, ';' ∉ field.toList
  | .stringContains fields _ =>
    Separate fields ∧ (∀ field ∈ fields, ';' ∉ field.toList) ∧ fields ≠ [""]
  | .numberEquals fields _ => Separate fields
  | .numberRange range => Separate range.fields
  | .presence fields ofGeo => ofGeo = true ∨ Separate fields
  | .nearPoint near => goesOn near.unit.toList = false
  | .namedArea area => ';' ∉ area.category.toList
  | .customArea _ => True

instance : DecidablePred Term.Legible
  | .stringEquals _ _ => inferInstanceAs (Decidable (_ ∧ _))
  | .stringContains _ _ => inferInstanceAs (Decidable (_ ∧ _ ∧ _))
  | .numberEquals fields _ => inferInstanceAs (Decidable (Separate fields))
  | .numberRange range => inferInstanceAs (Decidable (Separate range.fields))
  | .presence _ _ => inferInstanceAs (Decidable (_ ∨ _))
  | .nearPoint _ => inferInstanceAs (Decidable (_ = _))
  | .namedArea _ => inferInstanceAs (Decidable (¬ _))
  | .customArea _ => inferInstanceAs (Decidable True)

/-- Within a group, terms have brackets and bars only as pairs of brackets and between them. -/
inductive Filter.LegibleMember : Filter → Prop
  | group (connective : Connective) {members : List Filter} :
      (∀ member ∈ members, LegibleMember member) → LegibleMember (.group connective members)
  | term {leaf : Term} : leaf.Legible → Enclosed leaf.canonical.toList →
      LegibleMember (.term leaf)

def Filter.Legible : Filter → Prop
  | .group _ members => ∀ member ∈ members, member.LegibleMember
  | .term leaf => leaf.Legible

theorem Filter.LegibleMember.legible {filter : Filter} (h : filter.LegibleMember) :
    filter.Legible := by
  cases h with
  | group _ hmembers => exact hmembers
  | term hleaf _ => exact hleaf

/-! ## Parts of a text -/

section Parts

variable {s t v w : String}

-- The first semicolon ends a part without semicolons.
theorem split_first (hs : ';' ∉ s.toList) (ht : ';' ∉ t.toList)
    (h : s ++ ";" ++ v = t ++ ";" ++ w) : s = t ∧ v = w := by
  have htext := congrArg String.toList h
  simp only [String.toList_append, List.append_assoc] at htext
  obtain ⟨hparts, hrest⟩ := Text.delimited_not_mem ';' hs ht (Text.behind_cons ';' v.toList)
    (Text.behind_cons ';' w.toList) htext
  exact ⟨String.toList_inj.1 hparts, String.toList_inj.1 (List.cons.inj hrest).2⟩

-- The last semicolon begins a part without semicolons.
theorem split_last (hv : ';' ∉ v.toList) (hw : ';' ∉ w.toList)
    (h : s ++ ";" ++ v = t ++ ";" ++ w) : s = t ∧ v = w := by
  -- Read backwards, the last semicolon is the first one.
  have htext := congrArg (fun text => text.toList.reverse) h
  simp only [String.toList_append, List.reverse_append, List.append_assoc] at htext
  obtain ⟨hparts, hrest⟩ := Text.delimited_not_mem ';' (mt List.mem_reverse.1 hv)
    (mt List.mem_reverse.1 hw) (Text.behind_cons ';' s.toList.reverse)
    (Text.behind_cons ';' t.toList.reverse) htext
  exact ⟨String.toList_inj.1 (List.reverse_injective (List.cons.inj hrest).2),
    String.toList_inj.1 (List.reverse_injective hparts)⟩

end Parts

theorem semicolon_not_mem_append {s t : String} (hs : ';' ∉ s.toList) (ht : ';' ∉ t.toList) :
    ';' ∉ (s ++ t).toList := by
  rw [String.toList_append, List.mem_append]
  rintro (hmem | hmem)
  · exact hs hmem
  · exact ht hmem

theorem perm_of_fieldsText_eq {fields others : List String} (hfields : Separate fields)
    (hothers : Separate others) (hne : fields ≠ []) (hne' : others ≠ [])
    (h : fieldsText fields = fieldsText others) : fields.Perm others :=
  perm_of_sortedJoin_eq rfl (Text.delimited_not_mem ',') hfields hothers hne hne' h

-- No fields are written like a single field without a name.
theorem eq_of_fieldsText_eq_nil {fields : List String} (hfields : Separate fields)
    (hne : fields ≠ []) (h : fieldsText fields = fieldsText []) : fields = [""] := by
  have hnil : fieldsText [] = "" := by
    rw [fieldsText, sortedJoin, List.mergeSort_nil, String.intercalate_nil]
  rw [hnil] at h
  exact sortedJoin_eq_empty rfl hfields hne h

theorem semicolon_not_mem_fieldsText {fields : List String}
    (h : ∀ field ∈ fields, ';' ∉ field.toList) : ';' ∉ (fieldsText fields).toList := by
  intro hmem
  rcases mem_sortedJoin rfl hmem with hcomma | ⟨field, hfield, hc⟩
  · exact absurd hcomma (by decide)
  · exact h field hfield hc

theorem semicolon_not_mem_render (n : Number) : ';' ∉ n.render.toList := by
  intro hmem
  rcases Number.isMark_of_mem_render hmem with hmark | hmark
  · exact absurd hmark (by decide)
  · exact absurd hmark (by decide)

theorem toList_boundText (sign : Char) (included : Bool) (bound : Number) :
    (boundText (String.singleton sign) included (some bound)).toList =
      sign :: ((if included then ['='] else []) ++ bound.render.toList) := by
  rw [boundText]
  cases included <;> simp

theorem semicolon_not_mem_boundText {sign : Char} (hsign : sign ≠ ';') (included : Bool)
    (bound : Option Number) :
    ';' ∉ (boundText (String.singleton sign) included bound).toList := by
  cases bound with
  | none => exact List.not_mem_nil
  | some bound =>
    rw [toList_boundText, List.mem_cons, List.mem_append]
    rintro (hmem | hmem | hmem)
    · exact hsign hmem.symm
    · cases included
      · exact absurd hmem List.not_mem_nil
      · exact absurd hmem (by decide)
    · exact semicolon_not_mem_render bound hmem

-- A bound is read off the beginning of a text that goes on neither like a number nor with
-- another bound of the same side.
theorem boundText_append_inj {sign : Char} {included included' : Bool}
    {bound bound' : Option Number} {u w : List Char} (hu : goesOn u = false)
    (hw : goesOn w = false) (hu' : sign ∉ u.head?) (hw' : sign ∉ w.head?)
    (h : (boundText (String.singleton sign) included bound).toList ++ u =
      (boundText (String.singleton sign) included' bound').toList ++ w) :
    bound = bound' ∧ (bound ≠ none → included = included') ∧ u = w := by
  -- An equals sign belongs to the bound, as no number begins with one.
  have hequals : ¬ Number.IsMark '=' := by
    rintro (hmark | hmark)
    · exact absurd hmark (by decide)
    · exact absurd hmark (by decide)
  cases bound with
  | none =>
    cases bound' with
    | none => exact ⟨rfl, fun hnone => absurd rfl hnone, h⟩
    | some bound' =>
      rw [toList_boundText] at h
      rw [show u = _ from h] at hu'
      exact absurd rfl hu'
  | some bound =>
    cases bound' with
    | none =>
      rw [toList_boundText] at h
      rw [show w = _ from h.symm] at hw'
      exact absurd rfl hw'
    | some bound' =>
      rw [toList_boundText, toList_boundText] at h
      have hrest := (List.cons.inj h).2
      cases included with
      | true =>
        cases included' with
        | true =>
          obtain ⟨hbound, huw⟩ := Number.render_append_inj hu hw (List.cons.inj hrest).2
          exact ⟨congrArg some hbound, fun _ => rfl, huw⟩
        | false => exact absurd hrest.symm (Number.render_append_ne_cons hequals)
      | false =>
        cases included' with
        | true => exact absurd hrest (Number.render_append_ne_cons hequals)
        | false =>
          obtain ⟨hbound, huw⟩ := Number.render_append_inj hu hw hrest
          exact ⟨congrArg some hbound, fun _ => rfl, huw⟩

/-! ## Headings -/

/-- The operator that a filter's text begins with. -/
def Filter.heading : Filter → String
  | .group connective _ => connective.name
  | .term (.presence _ true) => "geo_exists"
  | .term leaf => leaf.kind.name

/-- The operator whose texts begin with the heading. -/
def operatorOf? (heading : String) : Option Operator :=
  if heading = "geo_exists" then some (.term .presence) else Operator.ofName? heading

theorem operatorOf?_name (op : Operator) : operatorOf? op.name = some op := by
  cases op with
  | group connective => cases connective <;> decide
  | term kind => cases kind <;> decide

theorem colon_not_mem_name (op : Operator) : ':' ∉ op.name.toList := by
  cases op with
  | group connective => cases connective <;> decide
  | term kind => cases kind <;> decide

-- Presences of the place have a heading of their own.
theorem heading_eq_or (filter : Filter) :
    filter.heading = filter.operator.name ∨
      filter.heading = "geo_exists" ∧ filter.operator = .term .presence := by
  cases filter with
  | group connective members => exact .inl rfl
  | term leaf =>
    cases leaf with
    | presence fields ofGeo =>
      cases ofGeo with
      | true => exact .inr ⟨rfl, rfl⟩
      | false => exact .inl rfl
    | stringEquals | stringContains | numberEquals | numberRange | nearPoint | namedArea
    | customArea => exact .inl rfl

theorem operatorOf?_heading (filter : Filter) :
    operatorOf? filter.heading = some filter.operator := by
  rcases heading_eq_or filter with hname | ⟨hgeo, hoperator⟩
  · rw [hname, operatorOf?_name]
  · rw [hgeo, hoperator]
    exact if_pos rfl

theorem colon_not_mem_heading (filter : Filter) : ':' ∉ filter.heading.toList := by
  rcases heading_eq_or filter with hname | ⟨hgeo, _⟩
  · rw [hname]
    exact colon_not_mem_name filter.operator
  · rw [hgeo]
    decide

theorem exists_canonical_eq_heading_append (filter : Filter) :
    ∃ rest, filter.canonical.toList = filter.heading.toList ++ rest ∧ Behind ':' rest := by
  -- The texts of all terms begin with their headings, which end with the colon.
  have hcolon : ∀ {heading marked text : String} (rest : String),
      marked.toList = heading.toList ++ [':'] → text = marked ++ rest →
      ∃ rest, text.toList = heading.toList ++ rest ∧ Behind ':' rest := by
    rintro heading marked _ rest hmarked rfl
    refine ⟨':' :: rest.toList, ?_, Text.behind_cons ':' _⟩
    rw [String.toList_append, hmarked, List.append_assoc]
    rfl
  cases filter with
  | group connective members =>
    rw [Filter.canonical_group]
    refine ⟨_, ?_, Text.behind_cons ':' ('[' :: (sortedJoin "|"
      (members.map Filter.canonical)).toList ++ [']'])⟩
    simp only [String.toList_append, List.append_assoc]
    rfl
  | term leaf =>
    rw [Filter.canonical_term]
    cases leaf with
    | stringEquals fields value =>
      apply hcolon (fieldsText fields ++ (";" ++ value))
        (by decide : "string_equals:".toList = "string_equals".toList ++ [':'])
      rw [Term.canonical_stringEquals, String.append_assoc, String.append_assoc]
    | stringContains fields value =>
      apply hcolon (fieldsText fields ++ (";" ++ value))
        (by decide : "string_contains:".toList = "string_contains".toList ++ [':'])
      rw [Term.canonical_stringContains, String.append_assoc, String.append_assoc]
    | numberEquals fields value =>
      apply hcolon (fieldsText fields ++ (";" ++ value.render))
        (by decide : "number_equals:".toList = "number_equals".toList ++ [':'])
      rw [Term.canonical_numberEquals, String.append_assoc, String.append_assoc]
    | numberRange range =>
      apply hcolon (fieldsText range.fields ++ (";" ++
          (boundText "<" range.upperIncluded range.upper ++
            boundText ">" range.lowerIncluded range.lower)))
        (by decide : "number_range:".toList = "number_range".toList ++ [':'])
      simp only [Term.canonical_numberRange, String.append_assoc]
    | presence fields ofGeo =>
      cases ofGeo with
      | true => exact ⟨[], (List.append_nil _).symm, Text.behind_nil ':'⟩
      | false =>
        exact hcolon (fieldsText fields)
          (by decide : "exists:".toList = "exists".toList ++ [':']) rfl
    | nearPoint near =>
      apply hcolon (near.radius.render ++ (near.unit ++ (";" ++ (near.latitude.render ++
          (";" ++ near.longitude.render)))))
        (by decide : "geo_point:".toList = "geo_point".toList ++ [':'])
      simp only [Term.canonical_nearPoint, String.append_assoc]
    | namedArea area =>
      apply hcolon (area.category ++ (";" ++ area.name))
        (by decide : "geo_named_area:".toList = "geo_named_area".toList ++ [':'])
      rw [Term.canonical_namedArea, String.append_assoc, String.append_assoc]
    | customArea custom =>
      exact hcolon (coordinatesText custom.coordinates)
        (by decide : "geo_custom_area:".toList = "geo_custom_area".toList ++ [':']) rfl

theorem heading_eq_of_canonical_eq {f g : Filter} (h : f.canonical = g.canonical) :
    f.heading = g.heading := by
  -- A heading ends at the first colon.
  obtain ⟨rest, hf, hrest⟩ := exists_canonical_eq_heading_append f
  obtain ⟨rest', hg, hrest'⟩ := exists_canonical_eq_heading_append g
  rw [h, hg] at hf
  exact String.toList_inj.1 (Text.delimited_not_mem ':' (colon_not_mem_heading g)
    (colon_not_mem_heading f) hrest' hrest hf).1.symm

theorem operator_eq_of_canonical_eq {f g : Filter} (h : f.canonical = g.canonical) :
    f.operator = g.operator := by
  have hsome := operatorOf?_heading f
  rw [heading_eq_of_canonical_eq h, operatorOf?_heading] at hsome
  exact (Option.some.inj hsome).symm

/-! ## Texts from outside -/

/-- What a term has from its author, as it is. -/
def Term.texts : Term → List String
  | .stringEquals fields value => value :: fields
  | .stringContains fields value => value :: fields
  | .numberEquals fields _ => fields
  | .numberRange range => range.fields
  | .presence fields ofGeo => if ofGeo then [] else fields
  | .nearPoint near => [near.unit]
  | .namedArea area => [area.category, area.name]
  | .customArea _ => []

theorem enclosed_fieldsText {fields : List String}
    (h : ∀ field ∈ fields, Enclosed field.toList) : Enclosed (fieldsText fields).toList := by
  exact depthAfter_sortedJoin rfl (by decide) h

theorem enclosed_boundText {sign : Char} (hsign : Enclosed [sign]) (included : Bool)
    (bound : Option Number) :
    Enclosed (boundText (String.singleton sign) included bound).toList := by
  cases bound with
  | none => exact Text.depthAfter_nil 0
  | some bound =>
    have hincluded : Enclosed (if included then ['='] else []) := by
      cases included <;> decide
    rw [toList_boundText]
    exact hsign.append (hincluded.append (enclosed_render bound))

-- A term can have brackets and bars from its author only.
theorem Term.enclosed_canonical {leaf : Term} (hleaf : leaf.WellFormed)
    (h : ∀ text ∈ leaf.texts, Enclosed text.toList) : Enclosed leaf.canonical.toList := by
  have happend : ∀ {s t : String}, Enclosed s.toList → Enclosed t.toList →
      Enclosed (s ++ t).toList := by
    intro s t hs ht
    rw [String.toList_append]
    exact hs.append ht
  have hsemicolon : Enclosed (";" : String).toList := by decide
  cases leaf with
  | stringEquals fields value =>
    obtain ⟨hvalue, hfields⟩ := List.forall_mem_cons.1 h
    exact happend (happend (happend (by decide) (enclosed_fieldsText hfields)) hsemicolon) hvalue
  | stringContains fields value =>
    obtain ⟨hvalue, hfields⟩ := List.forall_mem_cons.1 h
    exact happend (happend (happend (by decide) (enclosed_fieldsText hfields)) hsemicolon) hvalue
  | numberEquals fields value =>
    exact happend (happend (happend (by decide) (enclosed_fieldsText h)) hsemicolon)
      (enclosed_render value)
  | numberRange range =>
    exact happend (happend (happend (happend (by decide) (enclosed_fieldsText h)) hsemicolon)
      (enclosed_boundText (by decide : Enclosed ['<']) _ _))
      (enclosed_boundText (by decide : Enclosed ['>']) _ _)
  | presence fields ofGeo =>
    cases ofGeo with
    | true => exact (by decide : Enclosed ("geo_exists" : String).toList)
    | false => exact happend (by decide) (enclosed_fieldsText h)
  | nearPoint near =>
    have hunit : Enclosed near.unit.toList := h near.unit List.mem_cons_self
    exact happend (happend (happend (happend (happend (happend (by decide)
      (enclosed_render near.radius)) hunit) hsemicolon) (enclosed_render near.latitude))
      hsemicolon) (enclosed_render near.longitude)
  | namedArea area =>
    obtain ⟨hcategory, hname⟩ := List.forall_mem_cons.1 h
    exact happend (happend (happend (by decide) hcategory) hsemicolon)
      (hname area.name List.mem_cons_self)
  | customArea custom => exact happend (by decide) (enclosed_coordinatesText hleaf)

end RecordQuery.Query
