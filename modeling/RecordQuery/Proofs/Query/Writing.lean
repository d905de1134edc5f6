import RecordQuery.Proofs.Query.Reading

/-!
# Writing filters

A JSON value for every filter: each option is written under its key, an open side of a range as
null, and a custom area as its coordinates. Main statement: a filter that is well-formed is read
back from its value, so that the filters that can be read are those that are well-formed.
-/

namespace RecordQuery

open Json (Mismatch Number Value)

/-- Objects list their members in key order, each key once, at every depth. -/
inductive Json.Value.Ordered : Value → Prop
  | null : Ordered .null
  | bool (value : Bool) : Ordered (.bool value)
  | number (value : Number) : Ordered (.number value)
  | string (value : String) : Ordered (.string value)
  | array {items : List Value} : (∀ item ∈ items, Ordered item) → Ordered (.array items)
  | object {members : List (String × Value)} : Entries.Ordered members →
      (∀ member ∈ members, Ordered member.2) → Ordered (.object members)

namespace Query

/-! ## Lists and bounds -/

def fieldsValue (fields : List String) : Value := .array (fields.map .string)

-- An open side is null.
def boundValue : Option Number → Value
  | some bound => .number bound
  | none => .null

def coordinatesValue (coordinates : Coordinates) : Value :=
  .array (coordinates.map fun polygon => .array (polygon.map fun ring =>
    .array (ring.map fun position => .array (position.map .number))))

-- What is written item by item is read item by item.
theorem toList_map {α : Type} {item : Value → Except Mismatch α} {write : α → Value} {xs : List α}
    (h : ∀ x, item (write x) = .ok x) : Value.toList item (.array (xs.map write)) = .ok xs := by
  rw [Value.toList, mapM_eq_ok_iff, List.forall₂_map_left_iff, List.forall₂_same]
  exact fun x _ => h x

theorem toFields_fieldsValue (fields : List String) : toFields (fieldsValue fields) = .ok fields :=
  toList_map fun _ => rfl

theorem toCoordinates_coordinatesValue (coordinates : Coordinates) :
    toCoordinates (coordinatesValue coordinates) = .ok coordinates :=
  toList_map fun _ => toList_map fun _ => toList_map fun _ => toList_map fun _ => rfl

theorem toOption_boundValue (bound : Option Number) :
    (boundValue bound).toOption Value.toNumber = .ok bound := by
  cases bound with
  | none => rfl
  | some n => rfl

theorem ordered_map {α : Type} {write : α → Value} (h : ∀ x, (write x).Ordered) (xs : List α) :
    (Value.array (xs.map write)).Ordered := by
  refine .array fun item hitem => ?_
  obtain ⟨x, _, rfl⟩ := List.mem_map.1 hitem
  exact h x

theorem ordered_object {members : List (String × Value)}
    (hkeys : (members.map Prod.fst).Pairwise (· < ·))
    (hvalues : ∀ member ∈ members, member.2.Ordered) : (Value.object members).Ordered :=
  .object (List.pairwise_map.1 hkeys) hvalues

theorem ordered_single {key : String} {value : Value} (h : value.Ordered) :
    (Value.object [(key, value)]).Ordered :=
  ordered_object (List.pairwise_singleton _ _) (List.forall_mem_singleton.2 h)

theorem ordered_fieldsValue (fields : List String) : (fieldsValue fields).Ordered :=
  ordered_map .string fields

theorem ordered_coordinatesValue (coordinates : Coordinates) :
    (coordinatesValue coordinates).Ordered :=
  ordered_map (ordered_map (ordered_map (ordered_map .number))) coordinates

theorem ordered_boundValue (bound : Option Number) : (boundValue bound).Ordered := by
  cases bound with
  | none => exact .null
  | some n => exact .number n

/-! ## Terms -/

namespace Term

-- The options of a term.
def toValue : Term → Value
  | .stringEquals fields value | .stringContains fields value =>
    .object [("fields", fieldsValue fields), ("value", .string value)]
  | .numberEquals fields value =>
    .object [("fields", fieldsValue fields), ("value", .number value)]
  | .numberRange range => .object
    [("fields", fieldsValue range.fields),
      ("greater_than", boundValue range.lower),
      ("greater_than_inclusive", .bool range.lowerIncluded),
      ("less_than", boundValue range.upper),
      ("less_than_inclusive", .bool range.upperIncluded)]
  | .presence fields ofGeo =>
    .object [("fields", fieldsValue fields), ("geo_field", .bool ofGeo)]
  | .nearPoint near => .object
    [("latitude", .number near.latitude), ("longitude", .number near.longitude),
      ("radius", .number near.radius), ("radius_unit", .string near.unit)]
  | .namedArea area => .object [(area.category, .string area.name)]
  | .customArea custom => coordinatesValue custom.coordinates

theorem ordered_toValue (leaf : Term) : leaf.toValue.Ordered := by
  cases leaf with
  | customArea custom => exact ordered_coordinatesValue custom.coordinates
  | namedArea area => exact ordered_single (.string area.name)
  | _ =>
    refine ordered_object ?_ ?_
    · simp only [List.map_cons, List.map_nil]
      decide
    · simp [ordered_fieldsValue, ordered_boundValue, Value.Ordered.string, Value.Ordered.number,
        Value.Ordered.bool]

section Records

variable {α : Type} {fields : List String}

-- Of members that are set one after the other, none is missing in the end.
theorem decode_fieldsAndValue (title : String) {toValue : Value → Except Mismatch α}
    {value : Value} {read : α} (h : toValue value = .ok read) :
    (fieldsAndValue title toValue).decode
      (.object [("fields", fieldsValue fields), ("value", value)]) = .ok (fields, read) := by
  simp [RecordShape.decode, RecordShape.setMember, fieldsAndValue, toFields_fieldsValue, h,
    required, bind, Except.bind, pure, Except.pure]

theorem decode_range (range : NumberRange) :
    rangeShape.decode (toValue (.numberRange range)) = .ok range := by
  simp [toValue, RecordShape.decode, RecordShape.setMember, rangeShape, toFields_fieldsValue,
    toOption_boundValue, Value.toFlag, required, bind, Except.bind, pure, Except.pure]

theorem decode_presence (ofGeo : Bool) :
    presenceShape.decode (toValue (.presence fields ofGeo)) = .ok (fields, ofGeo) := by
  simp [toValue, RecordShape.decode, RecordShape.setMember, presenceShape, toFields_fieldsValue,
    Value.toFlag, bind, Except.bind, pure, Except.pure]

theorem decode_near (near : NearPoint) :
    nearShape.decode (toValue (.nearPoint near)) = .ok near := by
  simp [toValue, RecordShape.decode, RecordShape.setMember, nearShape, Value.toNumber,
    Value.toText, required, bind, Except.bind, pure, Except.pure]

end Records

theorem options_eq_ok {α : Type} {decoded : Except Mismatch α} {read : α}
    (h : decoded = .ok read) : options decoded = .ok read := by
  rw [h]
  rfl

/-- The options that are written for a well-formed term are read as that term. -/
theorem decode_toValue {leaf : Term} (h : leaf.WellFormed) :
    decode leaf.toValue leaf.kind = .ok leaf := by
  -- First the options are read, then their fields are counted where the term needs some.
  cases leaf with
  | stringEquals fields value =>
    have hread : options ((fieldsAndValue "StringEquals" Value.toText).decode
        (toValue (.stringEquals fields value))) = .ok (fields, value) :=
      options_eq_ok (decode_fieldsAndValue "StringEquals" rfl)
    exact bind_eq_ok_iff.2 ⟨(fields, value), hread,
      bind_eq_ok_iff.2 ⟨(), needFields_eq_ok_iff.2 h, rfl⟩⟩
  | stringContains fields value =>
    have hread : options ((fieldsAndValue "StringContains" Value.toText).decode
        (toValue (.stringContains fields value))) = .ok (fields, value) :=
      options_eq_ok (decode_fieldsAndValue "StringContains" rfl)
    exact bind_eq_ok_iff.2 ⟨(fields, value), hread, rfl⟩
  | numberEquals fields value =>
    have hread : options ((fieldsAndValue "NumberEquals" Value.toNumber).decode
        (toValue (.numberEquals fields value))) = .ok (fields, value) :=
      options_eq_ok (decode_fieldsAndValue "NumberEquals" rfl)
    exact bind_eq_ok_iff.2 ⟨(fields, value), hread,
      bind_eq_ok_iff.2 ⟨(), needFields_eq_ok_iff.2 h, rfl⟩⟩
  | numberRange range =>
    exact bind_eq_ok_iff.2 ⟨range, options_eq_ok (decode_range range),
      bind_eq_ok_iff.2 ⟨(), needFields_eq_ok_iff.2 h, rfl⟩⟩
  | presence fields ofGeo =>
    refine bind_eq_ok_iff.2 ⟨(fields, ofGeo), options_eq_ok (decode_presence ofGeo), ?_⟩
    cases ofGeo with
    | true => rfl
    | false =>
      have hfields : fields ≠ [] := h.resolve_left (by decide)
      exact bind_eq_ok_iff.2 ⟨(), needFields_eq_ok_iff.2 hfields, rfl⟩
  | nearPoint near =>
    exact bind_eq_ok_iff.2 ⟨near, options_eq_ok (decode_near near), rfl⟩
  | namedArea area => rfl
  | customArea custom =>
    have hread := options_eq_ok (toCoordinates_coordinatesValue custom.coordinates)
    have harea := CustomArea.ofCoordinates_eq_ok_iff.2 ⟨rfl, h⟩
    exact bind_eq_ok_iff.2 ⟨custom.coordinates, hread, bind_eq_ok_iff.2 ⟨custom, harea, rfl⟩⟩

end Term

/-! ## Filters -/

namespace Filter

mutual

def toValue : Filter → Value
  | .group connective members => .object [(connective.name, .array (toValues members))]
  | .term leaf => .object [(leaf.kind.name, leaf.toValue)]

def toValues : List Filter → List Value
  | [] => []
  | member :: rest => toValue member :: toValues rest

end

theorem toValues_eq_map (members : List Filter) : toValues members = members.map toValue :=
  eq_map_of_cons rfl (fun _ _ => rfl) members

theorem ordered_toValue (filter : Filter) : filter.toValue.Ordered := by
  induction filter with
  | group connective members ih =>
    rw [toValue, toValues_eq_map]
    refine ordered_single (.array fun item hitem => ?_)
    obtain ⟨member, hmember, rfl⟩ := List.mem_map.1 hitem
    exact ih member hmember
  | term leaf => exact ordered_single leaf.ordered_toValue

theorem ofValue_toValue {filter : Filter} (h : filter.WellFormed) (path : String) :
    ofValue path filter.toValue = .ok filter := by
  induction filter generalizing path with
  | group connective members ih =>
    cases h with
    | group _ hne hmembers =>
      rw [toValue, toValues_eq_map]
      refine ofValue_group (Operator.ofName?_name (.group connective))
        (mt List.map_eq_nil_iff.1 hne) (ofMembers_of_forall₂ ?_)
      rw [List.forall₂_map_left_iff, List.forall₂_same]
      exact fun member hmember => ih member hmember (hmembers member hmember)
  | term leaf =>
    cases h with
    | term hleaf =>
      exact ofValue_term (Operator.ofName?_name (.term leaf.kind)) (Term.decode_toValue hleaf)

theorem exists_ofValue_iff_wellFormed (filter : Filter) :
    (∃ path value, ofValue path value = .ok filter) ↔ filter.WellFormed :=
  ⟨fun ⟨_, _, h⟩ => wellFormed_of_ofValue h, fun h => ⟨"", filter.toValue, ofValue_toValue h ""⟩⟩

theorem wellFormed_iff_exists_ordered (filter : Filter) :
    filter.WellFormed ↔
      ∃ value : Value, value.Ordered ∧ ∀ path, ofValue path value = .ok filter :=
  ⟨fun h => ⟨filter.toValue, filter.ordered_toValue, ofValue_toValue h⟩,
    fun ⟨_, _, h⟩ => wellFormed_of_ofValue (h "")⟩

end Filter

/-- The filters that can be read are the well-formed ones, each from a value in proper order; where
a value stands decides neither whether it is read nor as which filter; and the documents that can
be read are objects of a text to search for and of a filter that can be read. -/
theorem reads_wellFormed :
    (∀ filter : Filter, (∃ path value, Filter.ofValue path value = .ok filter) ↔
      filter.WellFormed) ∧
    (∀ filter : Filter, filter.WellFormed ↔
      ∃ value : Value, value.Ordered ∧ ∀ path, Filter.ofValue path value = .ok filter) ∧
    (∀ path other value filter,
      Filter.ofValue path value = .ok filter ↔ Filter.ofValue other value = .ok filter) ∧
    ∀ value, (∃ document, Document.ofValue value = .ok document) ↔
      ∃ members, value = .object members ∧ ∀ member ∈ members,
        (member.1 = "search" ∧ ∃ text, member.2 = .string text) ∨
          (member.1 = "filters" ∧ ∃ path filter, Filter.ofValue path member.2 = .ok filter) :=
  ⟨Filter.exists_ofValue_iff_wellFormed, Filter.wellFormed_iff_exists_ordered,
    Filter.ofValue_eq_ok_iff_of_path, Document.exists_ofValue_eq_ok_iff⟩

end Query

end RecordQuery
