import RecordQuery.Proofs.Clause.Reordering
import RecordQuery.Proofs.Meaning.Agreement

/-!
# The order in filters

Main statement: filters that differ in the order of members, fields or holes, at any depth, are
compiled to clauses that differ in order only, or are refused both.
-/

namespace RecordQuery.Query

open Json (Number)

/-- The least equivalence of filters that lets members of groups change places or give way to
reordered ones, and lets fields and holes change places. The coordinates as they were written are
left open, because an area is compiled from what they draw. -/
inductive Filter.Reordered : Filter → Filter → Prop
  | refl (filter : Filter) : Reordered filter filter
  | symm {f g : Filter} : Reordered f g → Reordered g f
  | trans {f g h : Filter} : Reordered f g → Reordered g h → Reordered f h
  | members (connective : Connective) {members others : List Filter} :
      members.Perm others → Reordered (.group connective members) (.group connective others)
  | member (connective : Connective) (before after : List Filter) {f g : Filter} :
      Reordered f g → Reordered (.group connective (before ++ f :: after))
        (.group connective (before ++ g :: after))
  | fields (leaf : Term) {fields : List String} :
      leaf.fields.Perm fields → Reordered (.term leaf) (.term (leaf.withFields fields))
  | holes {custom other : CustomArea} :
      List.Forall₂ Polygon.SameButHoles custom.area.polygons other.area.polygons →
      Reordered (.term (.customArea custom)) (.term (.customArea other))

namespace Filter.Reordered

-- The same areas are named, so both filters are refused or none is.
theorem mem_namedAreas_iff {f g : Filter} (h : f.Reordered g) (area : NamedArea) :
    area ∈ f.namedAreas ↔ area ∈ g.namedAreas := by
  induction h with
  | refl => exact Iff.rfl
  | symm _ ih => exact ih.symm
  | trans _ _ ihf ihg => exact ihf.trans ihg
  | members connective hperm =>
    rw [mem_namedAreas_group, mem_namedAreas_group]
    simp only [hperm.mem_iff]
  | member connective before after _ ih =>
    rw [mem_namedAreas_group, mem_namedAreas_group]
    simp only [List.mem_append, List.mem_cons, or_and_right, exists_or, exists_eq_left, ih]
  | fields leaf => cases leaf <;> exact Iff.rfl
  | holes => exact Iff.rfl

end Filter.Reordered

namespace Compiler

section Compiled

variable {compiler : Compiler}

theorem anyField_reordered {fields others : List String} (h : fields.Perm others)
    (clause : String → Clause) :
    (anyField fields clause).Reordered (anyField others clause) :=
  .anyOf (Clause.Reordered.forall₂_refl _) (h.map clause)

theorem term_withFields_reordered {leaf : Term} {fields : List String}
    (h : leaf.fields.Perm fields) {clause other : Clause}
    (hclause : compiler.term leaf = .ok clause)
    (hother : compiler.term (leaf.withFields fields) = .ok other) : clause.Reordered other := by
  cases leaf with
  | stringEquals | numberEquals | numberRange =>
    obtain rfl := Except.ok.inj hclause
    obtain rfl := Except.ok.inj hother
    exact anyField_reordered h _
  | stringContains others value =>
    -- Without fields all of them are searched, and then there are none to change places.
    cases others with
    | nil =>
      obtain rfl := List.nil_perm.1 h
      obtain rfl := Except.ok.inj hclause
      obtain rfl := Except.ok.inj hother
      exact .refl _
    | cons first rest =>
      cases fields with
      | nil => exact absurd (List.perm_nil.1 h) (List.cons_ne_nil first rest)
      | cons field fields =>
        obtain rfl := Except.ok.inj hclause
        obtain rfl := Except.ok.inj hother
        exact anyField_reordered h _
  | presence others ofGeo =>
    cases ofGeo with
    | true =>
      obtain rfl := Except.ok.inj hclause
      obtain rfl := Except.ok.inj hother
      exact .refl _
    | false =>
      obtain rfl := Except.ok.inj hclause
      obtain rfl := Except.ok.inj hother
      exact anyField_reordered h _
  | nearPoint | namedArea | customArea =>
    obtain rfl := Except.ok.inj (hclause.symm.trans hother)
    exact .refl _

theorem group_reordered {clauses between others : List Clause}
    (hmembers : List.Forall₂ Clause.Reordered clauses between) (hperm : between.Perm others)
    (connective : Connective) :
    (group clauses connective).Reordered (group others connective) := by
  cases connective with
  | all => exact .allOf hmembers hperm
  | any => exact .anyOf hmembers hperm
  | none => exact .none hmembers hperm

-- What members become follows them when they change places.
theorem perm_of_compiled {members others : List Filter} {clauses clauses' : List Clause}
    (hclauses : List.Forall₂ (fun member clause => compiler.filter member = .ok clause)
      members clauses)
    (hothers : List.Forall₂ (fun member clause => compiler.filter member = .ok clause)
      others clauses') (h : members.Perm others) : clauses.Perm clauses' :=
  List.rel_perm_imp (fun _ _ _ hclause hother => Except.ok.inj (hclause.symm.trans hother))
    hclauses hothers h

/-- Each clause into which the one filter is compiled is a reordered form of each clause into which
the other is. -/
def CompiledReordered (compiler : Compiler) (f g : Filter) : Prop :=
  ∀ clause other, compiler.filter f = .ok clause → compiler.filter g = .ok other →
    clause.Reordered other

theorem forall₂_reordered {members others : List Filter} {clauses clauses' : List Clause}
    (hclauses : List.Forall₂ (fun member clause => compiler.filter member = .ok clause)
      members clauses)
    (hothers : List.Forall₂ (fun member clause => compiler.filter member = .ok clause)
      others clauses') (h : List.Forall₂ compiler.CompiledReordered members others) :
    List.Forall₂ Clause.Reordered clauses clauses' := by
  induction h generalizing clauses clauses' with
  | nil =>
    rw [List.forall₂_nil_left_iff.1 hclauses, List.forall₂_nil_left_iff.1 hothers]
    exact .nil
  | cons hfirst _ ih =>
    obtain ⟨clause, rest, hclause, hrest, rfl⟩ := List.forall₂_cons_left_iff.1 hclauses
    obtain ⟨other, rest', hother, hrest', rfl⟩ := List.forall₂_cons_left_iff.1 hothers
    exact .cons (hfirst clause other hclause hother) (ih hrest hrest')

theorem compiledReordered_refl (f : Filter) : compiler.CompiledReordered f f := by
  intro clause other hclause hother
  rw [Except.ok.inj (hclause.symm.trans hother)]
  exact .refl other

-- Induction on how the filters are reordered; a filter between two that are compiled is compiled
-- as well, since it names the same areas.
theorem compiledReordered_of_reordered {f g : Filter} (h : f.Reordered g) :
    compiler.CompiledReordered f g := by
  induction h with
  | refl f => exact compiledReordered_refl f
  | symm _ ih => exact fun clause other hclause hother => (ih other clause hother hclause).symm
  | @trans f g h hfg _ ihf ihg =>
    intro clause other hclause hother
    obtain ⟨middle, hmiddle⟩ : ∃ middle, compiler.filter g = .ok middle := by
      rw [exists_filter_eq_ok_iff]
      intro area harea
      exact exists_filter_eq_ok_iff.1 ⟨clause, hclause⟩ area ((hfg.mem_namedAreas_iff area).2 harea)
    exact (ihf clause middle hclause hmiddle).trans (ihg middle other hmiddle hother)
  | members connective hperm =>
    intro clause other hclause hother
    obtain ⟨clauses, hclauses, rfl⟩ := filter_group_eq_ok_iff.1 hclause
    obtain ⟨clauses', hclauses', rfl⟩ := filter_group_eq_ok_iff.1 hother
    exact group_reordered (Clause.Reordered.forall₂_refl _)
      (perm_of_compiled hclauses hclauses' hperm) connective
  | @member connective before after f g _ ih =>
    intro clause other hclause hother
    obtain ⟨clauses, hclauses, rfl⟩ := filter_group_eq_ok_iff.1 hclause
    obtain ⟨clauses', hclauses', rfl⟩ := filter_group_eq_ok_iff.1 hother
    have hsame : ∀ members, List.Forall₂ compiler.CompiledReordered members members := fun _ =>
      List.forall₂_same.2 fun member _ => compiledReordered_refl member
    have hmembers : List.Forall₂ compiler.CompiledReordered (before ++ f :: after)
        (before ++ g :: after) :=
      List.rel_append (hsame before) (.cons ih (hsame after))
    exact group_reordered (forall₂_reordered hclauses hclauses' hmembers) (.refl _) connective
  | fields leaf hperm =>
    intro clause other hclause hother
    rw [filter] at hclause hother
    exact term_withFields_reordered hperm hclause hother
  | holes h =>
    intro clause other hclause hother
    obtain rfl := Except.ok.inj hclause
    obtain rfl := Except.ok.inj hother
    exact (Clause.SameButExcluded.ofArea compiler.names.geo h).reordered

theorem filter_eq_error {f : Filter} {error : Error} (h : compiler.filter f = .error error) :
    ∃ area ∈ f.namedAreas, error = area.unknown := by
  rw [← failure?_eq_some_iff, failure?_filter, Option.map_eq_some_iff] at h
  obtain ⟨area, harea, rfl⟩ := h
  exact ⟨area, List.mem_of_find?_eq_some harea, rfl⟩

end Compiled

/-- Filters that differ in order only are compiled to clauses that differ in order only, or each
of them is refused for an area it names. -/
theorem filter_order_independent (f g : Filter) (h : f.Reordered g) (compiler : Compiler) :
    (∃ clause other, compiler.filter f = .ok clause ∧ compiler.filter g = .ok other ∧
      clause.Reordered other) ∨
    ∃ area ∈ f.namedAreas, ∃ missing ∈ g.namedAreas,
      compiler.filter f = .error (.unknownRegion area.category area.name) ∧
        compiler.filter g = .error (.unknownRegion missing.category missing.name) := by
  have hknown : (∃ clause, compiler.filter f = .ok clause) ↔
      ∃ other, compiler.filter g = .ok other := by
    rw [exists_filter_eq_ok_iff, exists_filter_eq_ok_iff]
    simp only [h.mem_namedAreas_iff]
  cases hf : compiler.filter f with
  | ok clause =>
    obtain ⟨other, hg⟩ := hknown.1 ⟨clause, hf⟩
    exact .inl ⟨clause, other, rfl, hg, compiledReordered_of_reordered h clause other hf hg⟩
  | error error =>
    cases hg : compiler.filter g with
    | ok other =>
      obtain ⟨clause, hclause⟩ := hknown.2 ⟨other, hg⟩
      exact nomatch hf.symm.trans hclause
    | error error' =>
      obtain ⟨area, harea, rfl⟩ := filter_eq_error hf
      obtain ⟨missing, hmissing, rfl⟩ := filter_eq_error hg
      exact .inr ⟨area, harea, missing, hmissing, rfl, rfl⟩

/-- An area with two holes, a short one and a long one, in this order or in the other. -/
def twoHoles (short long : List (List Number)) : Coordinates :=
  [[[[.zero, .zero], [.zero, .zero]], short, long]]

/-- Members, fields and holes change places, the latter in an inner group. -/
theorem twoHoles_order_independent :
    let position : List Number := [.zero, .zero]
    let point : Point := ⟨Number.zero.toBinary, Number.zero.toBinary⟩
    let custom : CustomArea :=
      ⟨twoHoles [position] [position, position], ⟨[⟨[point, point], [[point], [point, point]]⟩]⟩⟩
    let other : CustomArea :=
      ⟨twoHoles [position, position] [position], ⟨[⟨[point, point], [[point, point], [point]]⟩]⟩⟩
    let lagoon : Filter := .term (.namedArea ⟨"marine", "Lagoon"⟩)
    let f : Filter := .group .any [.term (.stringEquals ["genus", "family"] "Acropora"),
      .group .none [.term (.customArea custom), lagoon]]
    let g : Filter := .group .any [.group .none [.term (.customArea other), lagoon],
      .term (.stringEquals ["family", "genus"] "Acropora")]
    f.Reordered g ∧ ∃ clause other, lagoonCompiler.filter f = .ok clause ∧
      lagoonCompiler.filter g = .ok other ∧ clause.Reordered other := by
  intro position point custom other lagoon f g
  have hcustom : CustomArea.ofCoordinates custom.coordinates = .ok custom := rfl
  have hother : CustomArea.ofCoordinates other.coordinates = .ok other := rfl
  have hdraws : Draws custom.coordinates custom.area :=
    (CustomArea.ofCoordinates_eq_ok_iff.1 hcustom).2.draws
  have hdraws' : Draws other.coordinates other.area :=
    (CustomArea.ofCoordinates_eq_ok_iff.1 hother).2.draws
  have hholes : List.Forall₂ SamePolygon custom.coordinates other.coordinates :=
    .cons ⟨_, _, _, _, rfl, rfl, rfl, List.Perm.swap _ _ []⟩ .nil
  have hinner : Filter.Reordered (.term (.customArea custom)) (.term (.customArea other)) :=
    .holes (hdraws.sameButHoles hholes hdraws')
  have hfields : Filter.Reordered (.term (.stringEquals ["genus", "family"] "Acropora"))
      (.term (.stringEquals ["family", "genus"] "Acropora")) :=
    .fields (.stringEquals ["genus", "family"] "Acropora") (List.Perm.swap "family" "genus" [])
  have h : f.Reordered g :=
    (Filter.Reordered.member .any [] _ hfields).trans
      ((Filter.Reordered.member .any [_] [] (.member .none [] [lagoon] hinner)).trans
        (.members .any (List.Perm.swap _ _ [])))
  refine ⟨h, (filter_order_independent f g h lagoonCompiler).resolve_right ?_⟩
  rintro ⟨_, _, _, _, hrefused, _⟩
  exact nomatch hrefused

end Compiler

end RecordQuery.Query
