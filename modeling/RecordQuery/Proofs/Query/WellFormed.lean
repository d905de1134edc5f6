import RecordQuery.Proofs.Geometry.Drawing
import RecordQuery.Proofs.Query.Members
import RecordQuery.Query.Document

/-!
# Filters that can be read

What is sure of a filter that was read from a document: groups have members, terms that need
fields name some, and the area of a custom area is the one that its coordinates draw.
-/

namespace RecordQuery.Query

open Json (Value)

/-- There is a polygon, and the coordinates draw the area. -/
structure CustomArea.WellFormed (custom : CustomArea) : Prop where
  ne_nil : custom.coordinates ≠ []
  draws : Draws custom.coordinates custom.area

def Term.WellFormed : Term → Prop
  | .stringEquals fields _ => fields ≠ []
  | .stringContains _ _ => True
  | .numberEquals fields _ => fields ≠ []
  | .numberRange range => range.fields ≠ []
  | .presence fields ofGeo => ofGeo = true ∨ fields ≠ []
  | .nearPoint _ => True
  | .namedArea _ => True
  | .customArea custom => custom.WellFormed

inductive Filter.WellFormed : Filter → Prop
  | group (connective : Connective) {members : List Filter} : members ≠ [] →
      (∀ member ∈ members, WellFormed member) → WellFormed (.group connective members)
  | term {leaf : Term} : leaf.WellFormed → WellFormed (.term leaf)

/-! ## Terms -/

theorem CustomArea.ofCoordinates_eq_ok_iff {coordinates : Coordinates} {custom : CustomArea} :
    CustomArea.ofCoordinates coordinates = .ok custom ↔
      custom.coordinates = coordinates ∧ custom.WellFormed := by
  -- An area is empty just when it was drawn from no polygons.
  have hempty : ∀ {area : Area}, Draws coordinates area →
      (area.isEmpty = true ↔ coordinates = []) := by
    intro area hdraws
    rw [Area.isEmpty, List.isEmpty_iff, ← List.length_eq_zero_iff, ← List.length_eq_zero_iff,
      List.Forall₂.length_eq hdraws]
  rw [CustomArea.ofCoordinates]
  constructor
  · intro h
    cases harea : Area.ofCoordinates (degrees coordinates) with
    | error cause =>
      rw [harea] at h
      exact nomatch h
    | ok area =>
      have hdraws := RecordQuery.Query.ofCoordinates_eq_ok_iff.1 harea
      rw [harea] at h
      by_cases hnil : area.isEmpty = true
      · simp only [if_pos hnil] at h
        exact nomatch h
      · simp only [if_neg hnil] at h
        obtain rfl := Except.ok.inj h
        exact ⟨rfl, mt (hempty hdraws).2 hnil, hdraws⟩
  · rintro ⟨rfl, hne, hdraws⟩
    rw [RecordQuery.Query.ofCoordinates_eq_ok_iff.2 hdraws]
    simp only [if_neg (mt (hempty hdraws).1 hne)]

namespace Term

theorem needFields_eq_ok_iff {fields : List String} {u : Unit} :
    needFields fields = .ok u ↔ fields ≠ [] := by
  cases fields with
  | nil => exact ⟨fun h => (nomatch h), fun h => absurd rfl h⟩
  | cons field fields => exact ⟨fun _ => List.cons_ne_nil field fields, fun _ => rfl⟩

theorem wellFormed_of_decode {value : Value} {kind : TermKind} {leaf : Term}
    (h : decode value kind = .ok leaf) : leaf.WellFormed := by
  cases kind with
  | stringEquals =>
    obtain ⟨read, _, h⟩ := bind_eq_ok_iff.1 h
    obtain ⟨_, hfields, h⟩ := bind_eq_ok_iff.1 h
    obtain rfl := Except.ok.inj h
    exact needFields_eq_ok_iff.1 hfields
  | stringContains =>
    obtain ⟨read, _, h⟩ := bind_eq_ok_iff.1 h
    obtain rfl := Except.ok.inj h
    exact True.intro
  | numberEquals =>
    obtain ⟨read, _, h⟩ := bind_eq_ok_iff.1 h
    obtain ⟨_, hfields, h⟩ := bind_eq_ok_iff.1 h
    obtain rfl := Except.ok.inj h
    exact needFields_eq_ok_iff.1 hfields
  | numberRange =>
    obtain ⟨range, _, h⟩ := bind_eq_ok_iff.1 h
    obtain ⟨_, hfields, h⟩ := bind_eq_ok_iff.1 h
    obtain rfl := Except.ok.inj h
    exact needFields_eq_ok_iff.1 hfields
  | presence =>
    obtain ⟨⟨fields, ofGeo⟩, _, h⟩ := bind_eq_ok_iff.1 h
    cases ofGeo with
    | true =>
      obtain rfl := Except.ok.inj h
      exact .inl rfl
    | false =>
      obtain ⟨_, hfields, h⟩ := bind_eq_ok_iff.1 h
      obtain rfl := Except.ok.inj h
      exact .inr (needFields_eq_ok_iff.1 hfields)
  | nearPoint =>
    obtain ⟨near, _, h⟩ := bind_eq_ok_iff.1 h
    obtain rfl := Except.ok.inj h
    exact True.intro
  | namedArea =>
    obtain ⟨area, _, h⟩ := bind_eq_ok_iff.1 h
    obtain rfl := Except.ok.inj h
    exact True.intro
  | customArea =>
    obtain ⟨coordinates, _, h⟩ := bind_eq_ok_iff.1 h
    obtain ⟨custom, hcustom, h⟩ := bind_eq_ok_iff.1 h
    obtain rfl := Except.ok.inj h
    exact (CustomArea.ofCoordinates_eq_ok_iff.1 hcustom).2

end Term

/-! ## Filters -/

namespace Filter

theorem ofMembers_eq_ok {path : String} {index : Nat} {items : List Value}
    {members : List Filter} (h : ofMembers path index items = .ok members) :
    List.Forall₂ (fun item member => ∃ place, ofValue place item = .ok member)
      items members := by
  induction items generalizing index members with
  | nil =>
    rw [ofMembers] at h
    obtain rfl := Except.ok.inj h
    exact .nil
  | cons item items ih =>
    rw [ofMembers] at h
    split at h
    · exact nomatch h
    · rename_i member hmember
      split at h
      · exact nomatch h
      · rename_i rest hrest
        obtain rfl := Except.ok.inj h
        exact .cons ⟨_, hmember⟩ (ih hrest)

-- A filter is read from a single operator with its options: those of a term, or the members of
-- a group.
theorem ofValue_eq_ok {path : String} {value : Value} {filter : Filter}
    (h : ofValue path value = .ok filter) :
    (∃ name options kind leaf, value = .object [(name, options)] ∧
      Operator.ofName? name = some (.term kind) ∧ Term.decode options kind = .ok leaf ∧
      filter = .term leaf) ∨
    ∃ name items connective members, value = .object [(name, .array items)] ∧
      Operator.ofName? name = some (.group connective) ∧ items ≠ [] ∧
      ofMembers (path ++ "." ++ name) 0 items = .ok members ∧
      filter = .group connective members := by
  -- One object with one member is the only form that is not refused.
  unfold ofValue at h
  split at h
  · rename_i name options
    split at h
    · exact nomatch h
    · rename_i kind hname
      split at h
      · exact nomatch h
      · rename_i leaf hleaf
        exact .inl ⟨name, options, kind, leaf, rfl, hname, hleaf, (Except.ok.inj h).symm⟩
    · rename_i connective hname
      split at h
      · exact nomatch h
      · rename_i items hne
        split at h
        · exact nomatch h
        · rename_i members hmembers
          exact .inr ⟨name, items, connective, members, rfl, hname, fun hnil => hne hnil,
            hmembers, (Except.ok.inj h).symm⟩
      · exact nomatch h
  · exact nomatch h
  · exact nomatch h

theorem wellFormed_of_ofValue {path : String} {value : Value} {filter : Filter}
    (h : ofValue path value = .ok filter) : filter.WellFormed := by
  induction filter generalizing path value with
  | group connective members ih =>
    obtain ⟨_, _, _, _, _, _, _, hfilter⟩ | ⟨_, items, _, _, _, _, hne, hmembers, hfilter⟩ :=
      ofValue_eq_ok h
    · exact nomatch hfilter
    · obtain ⟨rfl, rfl⟩ := Filter.group.inj hfilter
      -- The members were read from the items one by one, at paths of their own.
      have hread := ofMembers_eq_ok hmembers
      refine .group connective ?_ fun member hmember => ?_
      · intro hnil
        rw [hnil] at hread
        exact hne (List.forall₂_nil_right_iff.1 hread)
      · obtain ⟨item, _, place, hitem⟩ := exists_of_forall₂_of_mem hread hmember
        exact ih member hmember hitem
  | term leaf =>
    obtain ⟨_, _, _, _, _, _, hleaf, hfilter⟩ | ⟨_, _, _, _, _, _, _, _, hfilter⟩ :=
      ofValue_eq_ok h
    · obtain rfl := Filter.term.inj hfilter
      exact .term (Term.wellFormed_of_decode hleaf)
    · exact nomatch hfilter

end Filter

/-! ## Documents -/

/-- The filter is well-formed, if there is one. -/
def Document.WellFormed (document : Document) : Prop :=
  ∀ tree, document.filter = some tree → tree.WellFormed

namespace Document

theorem wellFormed_of_addMember {document next : Document} {member : String × Value}
    (hdocument : document.WellFormed) (h : document.addMember member = .ok next) :
    next.WellFormed := by
  unfold addMember at h
  split at h
  · split at h
    · obtain rfl := Except.ok.inj h
      exact hdocument
    · exact nomatch h
  · split at h
    · exact nomatch h
    · rename_i filter hfilter
      obtain rfl := Except.ok.inj h
      intro tree htree
      rw [← Option.some.inj htree]
      exact Filter.wellFormed_of_ofValue hfilter
  · exact nomatch h

-- Member by member, the document that has been read so far stays well-formed.
theorem wellFormed_of_foldlM {members : List (String × Value)} {document read : Document}
    (hdocument : document.WellFormed) (h : members.foldlM addMember document = .ok read) :
    read.WellFormed := by
  induction members generalizing document with
  | nil =>
    obtain rfl := Except.ok.inj h
    exact hdocument
  | cons member rest ih =>
    rw [List.foldlM_cons] at h
    obtain ⟨next, hmember, hrest⟩ := bind_eq_ok_iff.1 h
    exact ih (wellFormed_of_addMember hdocument hmember) hrest

theorem wellFormed_of_ofValue {value : Value} {document : Document}
    (h : ofValue value = .ok document) : document.WellFormed := by
  unfold ofValue at h
  split at h
  · have hempty : empty.WellFormed := by
      intro tree htree
      rw [empty] at htree
      exact nomatch htree
    exact wellFormed_of_foldlM hempty h
  · exact nomatch h

end Document

end RecordQuery.Query
