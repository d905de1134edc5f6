import RecordQuery.Proofs.Canonical.Alike
import RecordQuery.Proofs.Canonical.Coordinates
import RecordQuery.Proofs.Meaning.Filter
import RecordQuery.Proofs.Query.Resolution

/-!
# Filters that say the same

Two filters mean the same if no compiler tells them apart: it refuses both, or what it makes of
them holds of the same records. Main statement: filters that name the same areas and hold alike
of every record mean the same.
-/

namespace RecordQuery.Query

open Json (Number)

/-- Both filters are refused, or they become clauses that hold of the same records. -/
def SameMeaning (f g : Filter) : Prop :=
  ∀ compiler : Compiler,
    (∃ clause other, compiler.filter f = .ok clause ∧ compiler.filter g = .ok other ∧
      ∀ record, clause.holds record = other.holds record) ∨
    ∃ error other, compiler.filter f = .error error ∧ compiler.filter g = .error other

/-- The same areas are named, and the filters hold of the same records. -/
structure Filter.Agrees (f g : Filter) : Prop where
  namedAreas : ∀ area, area ∈ f.namedAreas ↔ area ∈ g.namedAreas
  holds : ∀ compiler record, f.holds compiler record = g.holds compiler record

theorem Filter.Agrees.trans {f g h : Filter} (hfg : f.Agrees g) (hgh : g.Agrees h) :
    f.Agrees h :=
  ⟨fun area => (hfg.namedAreas area).trans (hgh.namedAreas area),
    fun compiler record => (hfg.holds compiler record).trans (hgh.holds compiler record)⟩

theorem Filter.Agrees.sameMeaning {f g : Filter} (h : f.Agrees g) : SameMeaning f g := by
  intro compiler
  -- The same areas are named, so both are refused or none is.
  have hknown : (∃ clause, compiler.filter f = .ok clause) ↔
      ∃ clause, compiler.filter g = .ok clause := by
    rw [Compiler.exists_filter_eq_ok_iff, Compiler.exists_filter_eq_ok_iff]
    simp only [h.namedAreas]
  cases hf : compiler.filter f with
  | ok clause =>
    obtain ⟨other, hg⟩ := hknown.1 ⟨clause, hf⟩
    refine .inl ⟨clause, other, rfl, hg, fun record => ?_⟩
    rw [Filter.holds_of_compiled record hf, Filter.holds_of_compiled record hg, h.holds]
  | error error =>
    cases hg : compiler.filter g with
    | ok other =>
      obtain ⟨clause, hclause⟩ := hknown.2 ⟨other, hg⟩
      rw [hf] at hclause
      exact nomatch hclause
    | error other => exact .inr ⟨error, other, rfl, rfl⟩

-- A record of which only one of them holds tells filters apart.
theorem not_sameMeaning_of_holds_ne {f g : Filter} {compiler : Compiler} {record : Record}
    (hf : ∀ area ∈ f.namedAreas, compiler.Knows area)
    (hg : ∀ area ∈ g.namedAreas, compiler.Knows area)
    (h : f.holds compiler record ≠ g.holds compiler record) : ¬ SameMeaning f g := by
  intro hsame
  -- Both are compiled, so the clauses would have to agree on the record.
  obtain ⟨clause, hclause⟩ := Compiler.exists_filter_eq_ok_iff.2 hf
  obtain ⟨other, hother⟩ := Compiler.exists_filter_eq_ok_iff.2 hg
  rcases hsame compiler with ⟨clause', other', hclause', hother', hholds⟩ | ⟨_, _, herror, _⟩
  · apply h
    rw [← Filter.holds_of_compiled record hclause', ← Filter.holds_of_compiled record hother']
    exact hholds record
  · rw [hclause] at herror
    exact nomatch herror

-- A compiler that refuses only one of them tells filters apart.
theorem not_sameMeaning_of_unknown {f g : Filter} {compiler : Compiler} {area : NamedArea}
    (harea : area ∈ f.namedAreas) (hunknown : ¬ compiler.Knows area)
    (hg : ∀ area ∈ g.namedAreas, compiler.Knows area) : ¬ SameMeaning f g := by
  intro hsame
  obtain ⟨other, hother⟩ := Compiler.exists_filter_eq_ok_iff.2 hg
  rcases hsame compiler with ⟨clause, _, hclause, _, _⟩ | ⟨_, _, _, herror⟩
  · exact hunknown (Compiler.exists_filter_eq_ok_iff.1 ⟨clause, hclause⟩ area harea)
  · rw [hother] at herror
    exact nomatch herror

/-! ## Agreement of groups and of terms -/

theorem Filter.holds_group_congr {compiler : Compiler} {record : Record}
    (connective : Connective) {members others : List Filter}
    (h : (members.map (Filter.holds compiler record)).Perm
      (others.map (Filter.holds compiler record))) :
    Filter.holds compiler record (.group connective members) =
      Filter.holds compiler record (.group connective others) := by
  cases connective with
  | all => rw [Filter.holds, Filter.holds, truths_eq_map, truths_eq_map, h.all_eq]
  | any => rw [Filter.holds, Filter.holds, truths_eq_map, truths_eq_map, h.any_eq]
  | none => rw [Filter.holds, Filter.holds, truths_eq_map, truths_eq_map, h.any_eq]

-- Groups agree whose members do, in whatever order they stand.
theorem Filter.Agrees.group (connective : Connective) {members others permuted : List Filter}
    (hmembers : List.Forall₂ Filter.Agrees members permuted) (hperm : permuted.Perm others) :
    Filter.Agrees (.group connective members) (.group connective others) := by
  constructor
  · intro area
    rw [Filter.mem_namedAreas_group, Filter.mem_namedAreas_group]
    constructor
    · rintro ⟨member, hmember, harea⟩
      obtain ⟨other, hother, hagrees⟩ := exists_of_forall₂_of_mem hmembers.flip hmember
      exact ⟨other, hperm.mem_iff.1 hother, (hagrees.namedAreas area).1 harea⟩
    · rintro ⟨other, hother, harea⟩
      obtain ⟨member, hmember, hagrees⟩ :=
        exists_of_forall₂_of_mem hmembers (hperm.mem_iff.2 hother)
      exact ⟨member, hmember, (hagrees.namedAreas area).2 harea⟩
  · intro compiler record
    apply Filter.holds_group_congr
    have hholds : members.map (Filter.holds compiler record) =
        permuted.map (Filter.holds compiler record) :=
      map_eq_of_forall₂ (hmembers.imp fun _ _ hagrees => hagrees.holds compiler record)
    rw [hholds]
    exact hperm.map _

theorem Term.holds_withFields {leaf : Term} {fields : List String}
    (h : leaf.fields.Perm fields) (compiler : Compiler) (record : Record) :
    (leaf.withFields fields).holds compiler record = leaf.holds compiler record := by
  cases leaf with
  | stringEquals _ value => exact h.symm.any_eq
  | stringContains others value =>
    -- Without fields the text of all fields is searched, so none may be lost or gained.
    have hempty : fields.isEmpty = others.isEmpty := by
      rw [Bool.eq_iff_iff, List.isEmpty_iff_length_eq_zero, List.isEmpty_iff_length_eq_zero,
        ← h.length_eq]
      rfl
    have hany := (h.symm.any_eq :
      fields.any (fun field => record.text (compiler.names.subfield field "full") value) = _)
    rw [Term.withFields, Term.holds, Term.holds, hempty, hany]
    rfl
  | numberEquals _ value => exact h.symm.any_eq
  | numberRange range => exact h.symm.any_eq
  | presence others ofGeo =>
    cases ofGeo with
    | true => rfl
    | false => exact h.symm.any_eq
  | nearPoint near => rfl
  | namedArea area => rfl
  | customArea custom => rfl

theorem Filter.Agrees.withFields {leaf : Term} {fields : List String}
    (h : leaf.fields.Perm fields) :
    Filter.Agrees (.term leaf) (.term (leaf.withFields fields)) := by
  constructor
  · intro area
    cases leaf <;> rfl
  · intro compiler record
    exact (Term.holds_withFields h compiler record).symm

-- Inclusion is asked for bounds that are there only.
theorem Filter.Agrees.numberRange {range other : NumberRange}
    (hfields : range.fields = other.fields) (h : range.SameBounds other) :
    Filter.Agrees (.term (.numberRange range)) (.term (.numberRange other)) := by
  refine ⟨fun area => Iff.rfl, fun compiler record => ?_⟩
  have hholds : ∀ stored, range.holds record stored = other.holds record stored := by
    intro stored
    unfold NumberRange.holds
    rw [← h.upper, ← h.lower]
    congr 1
    · cases hbound : range.upper with
      | none => rfl
      | some bound => rw [h.upperIncluded (by rw [hbound]; exact Option.some_ne_none bound)]
    · cases hbound : range.lower with
      | none => rfl
      | some bound => rw [h.lowerIncluded (by rw [hbound]; exact Option.some_ne_none bound)]
  rw [Filter.holds, Filter.holds, Term.holds, Term.holds, hfields]
  simp only [hholds]

-- What is drawn is the same but for the order of the holes.
theorem SamePolygon.drawn {rings others : List (List (List Number))} {polygon other : Polygon}
    (h : SamePolygon rings others) (hpolygon : DrawsPolygon rings polygon)
    (hother : DrawsPolygon others other) : polygon.SameButHoles other := by
  obtain ⟨outer, holes, outer', holes', rfl, rfl, houter, hholes⟩ := h
  obtain ⟨_, _, hrings, hdrawn, hdrawnHoles⟩ := hpolygon
  obtain ⟨_, _, hrings', hdrawn', hdrawnHoles'⟩ := hother
  obtain ⟨rfl, rfl⟩ := List.cons.inj hrings
  obtain ⟨rfl, rfl⟩ := List.cons.inj hrings'
  -- Each ring is a function of what counts of its positions, so a permutation carries over.
  have hmap : ∀ {holes : List (List (List Number))} {drawn : List Ring},
      List.Forall₂ DrawsRing holes drawn →
      drawn = (holes.map fun ring => ring.map (·.take 2)).map fun ring =>
        ring.filterMap pointAt? := by
    intro holes drawn hdraws
    induction hdraws with
    | nil => rfl
    | cons hfirst _ ih => rw [List.map_cons, List.map_cons, ← ih, ← hfirst.eq_filterMap]
  constructor
  · rw [hdrawn.eq_filterMap, hdrawn'.eq_filterMap, houter]
  · rw [hmap hdrawnHoles, hmap hdrawnHoles']
    exact hholes.map _

theorem Draws.sameButHoles {coordinates others : Coordinates} {area other : Area}
    (harea : Draws coordinates area) (h : List.Forall₂ SamePolygon coordinates others)
    (hother : Draws others other) :
    List.Forall₂ Polygon.SameButHoles area.polygons other.polygons := by
  obtain ⟨polygons⟩ := area
  obtain ⟨polygons'⟩ := other
  change List.Forall₂ DrawsPolygon coordinates polygons at harea
  change List.Forall₂ DrawsPolygon others polygons' at hother
  -- The induction is on the polygons of the coordinates, which the areas follow one by one.
  induction h generalizing polygons polygons' with
  | nil =>
    rw [List.forall₂_nil_left_iff.1 harea, List.forall₂_nil_left_iff.1 hother]
    exact .nil
  | cons hfirst _ ih =>
    obtain ⟨polygon, rest, hpolygon, hrest, rfl⟩ := List.forall₂_cons_left_iff.1 harea
    obtain ⟨polygon', rest', hpolygon', hrest', rfl⟩ := List.forall₂_cons_left_iff.1 hother
    exact .cons (hfirst.drawn hpolygon hpolygon') (ih rest rest' hrest hrest')

-- The order of holes has no say in what is in an area.
theorem inArea_eq_of_sameButHoles {area other : Area}
    (h : List.Forall₂ Polygon.SameButHoles area.polygons other.polygons) (record : Record)
    (field : String) : record.inArea field area = record.inArea field other := by
  obtain ⟨polygons⟩ := area
  obtain ⟨polygons'⟩ := other
  change List.Forall₂ Polygon.SameButHoles polygons polygons' at h
  unfold Record.inArea
  induction h with
  | nil => rfl
  | cons hfirst _ ih => rw [List.any_cons, List.any_cons, ih, hfirst.outer, hfirst.holes.any_eq]

theorem Filter.Agrees.customArea {custom other : CustomArea} (hcustom : custom.WellFormed)
    (hother : other.WellFormed)
    (h : List.Forall₂ SamePolygon custom.coordinates other.coordinates) :
    Filter.Agrees (.term (.customArea custom)) (.term (.customArea other)) := by
  refine ⟨fun area => Iff.rfl, fun compiler record => ?_⟩
  exact inArea_eq_of_sameButHoles (hcustom.draws.sameButHoles h hother.draws) record
    compiler.names.geo

end RecordQuery.Query
