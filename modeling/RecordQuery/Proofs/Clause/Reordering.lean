import RecordQuery.Proofs.Clause.Members
import RecordQuery.Proofs.Geometry.Drawing

/-!
# The order of clauses

Clauses are reordered when the lists in them, at any depth, are, and they are the same but for what
they exclude when no other list is. Main statements: clauses that are built alike from reordered
parts are reordered, and areas with the same holes are searched for by clauses that are the same but
for what they exclude.
-/

namespace RecordQuery

/-- The least equivalence of clauses that lets the clauses in a list change places, and give way to
reordered ones. The number of children that have to hold stays what it is. -/
inductive Clause.Reordered : Clause → Clause → Prop
  | refl (clause : Clause) : Reordered clause clause
  | symm {c d : Clause} : Reordered c d → Reordered d c
  | trans {c d e : Clause} : Reordered c d → Reordered d e → Reordered c e
  | all {children children' others excluded excluded' others' : List Clause} :
      List.Forall₂ Reordered children children' → children'.Perm others →
      List.Forall₂ Reordered excluded excluded' → excluded'.Perm others' →
      Reordered (.all children excluded) (.all others others')
  | any {children children' others : List Clause} (minMatch : UInt64) :
      List.Forall₂ Reordered children children' → children'.Perm others →
      Reordered (.any children minMatch) (.any others minMatch)
  | none {children children' others : List Clause} :
      List.Forall₂ Reordered children children' → children'.Perm others →
      Reordered (.none children) (.none others)

/-- The same clause but for the order in which clauses are excluded, in it or in the choices it is
made of. -/
inductive Clause.SameButExcluded : Clause → Clause → Prop
  | refl (clause : Clause) : SameButExcluded clause clause
  | all (children : List Clause) {excluded others : List Clause} : excluded.Perm others →
      SameButExcluded (.all children excluded) (.all children others)
  | any (minMatch : UInt64) {children others : List Clause} :
      List.Forall₂ SameButExcluded children others →
      SameButExcluded (.any children minMatch) (.any others minMatch)

namespace Clause

theorem anyOf_eq_any {clauses : List Clause} (h : clauses.length ≠ 1) :
    anyOf clauses = .any clauses 1 := by
  match clauses, h with
  | [], _ => rfl
  | [_], h => exact absurd rfl h
  | _ :: _ :: _, _ => rfl

theorem allOf_eq_all {clauses : List Clause} (h : clauses.length ≠ 1) :
    allOf clauses = .all clauses [] := by
  match clauses, h with
  | [], _ => rfl
  | [_], h => exact absurd rfl h
  | _ :: _ :: _, _ => rfl

section Related

variable {S : Clause → Clause → Prop} {clauses others : List Clause}

-- A single clause stands for itself, on both sides.
theorem related_anyOf
    (hany : ∀ {clauses others}, List.Forall₂ S clauses others → S (.any clauses 1) (.any others 1))
    (h : List.Forall₂ S clauses others) : S (anyOf clauses) (anyOf others) := by
  cases h with
  | nil => exact hany .nil
  | cons hfirst hrest =>
    cases hrest with
    | nil => exact hfirst
    | cons hsecond hrest => exact hany (.cons hfirst (.cons hsecond hrest))

theorem related_allOf
    (hall : ∀ {clauses others}, List.Forall₂ S clauses others →
      S (.all clauses []) (.all others []))
    (h : List.Forall₂ S clauses others) : S (allOf clauses) (allOf others) := by
  cases h with
  | nil => exact hall .nil
  | cons hfirst hrest =>
    cases hrest with
    | nil => exact hfirst
    | cons hsecond hrest => exact hall (.cons hfirst (.cons hsecond hrest))

end Related

namespace Reordered

theorem forall₂_refl (clauses : List Clause) : List.Forall₂ Reordered clauses clauses :=
  List.forall₂_same.2 fun clause _ => .refl clause

section Lists

variable {clauses between others : List Clause}

-- A list of one clause is a list of one clause in any order.
theorem eq_singleton (hmembers : List.Forall₂ Reordered clauses between)
    (hperm : between.Perm others) (hone : clauses.length = 1) :
    ∃ clause other, clauses = [clause] ∧ others = [other] ∧ Reordered clause other := by
  obtain ⟨clause, rfl⟩ := List.length_eq_one_iff.1 hone
  obtain ⟨other, rest, hclause, hrest, rfl⟩ := List.forall₂_cons_left_iff.1 hmembers
  obtain rfl := List.forall₂_nil_left_iff.1 hrest
  exact ⟨clause, other, rfl, List.singleton_perm.1 hperm |>.symm, hclause⟩

theorem length_eq (hmembers : List.Forall₂ Reordered clauses between)
    (hperm : between.Perm others) : clauses.length = others.length :=
  hmembers.length_eq.trans hperm.length_eq

theorem anyOf (hmembers : List.Forall₂ Reordered clauses between)
    (hperm : between.Perm others) : Reordered (anyOf clauses) (anyOf others) := by
  by_cases hone : clauses.length = 1
  · obtain ⟨clause, other, rfl, rfl, h⟩ := eq_singleton hmembers hperm hone
    exact h
  · have hother : others.length ≠ 1 := length_eq hmembers hperm ▸ hone
    rw [anyOf_eq_any hone, anyOf_eq_any hother]
    exact .any 1 hmembers hperm

theorem allOf (hmembers : List.Forall₂ Reordered clauses between)
    (hperm : between.Perm others) : Reordered (allOf clauses) (allOf others) := by
  by_cases hone : clauses.length = 1
  · obtain ⟨clause, other, rfl, rfl, h⟩ := eq_singleton hmembers hperm hone
    exact h
  · have hother : others.length ≠ 1 := length_eq hmembers hperm ▸ hone
    rw [allOf_eq_all hone, allOf_eq_all hother]
    exact .all hmembers hperm .nil .nil

end Lists

end Reordered

namespace SameButExcluded

theorem reordered {clause other : Clause} (h : SameButExcluded clause other) :
    Reordered clause other := by
  induction clause generalizing other with
  | all children excluded =>
    cases h with
    | refl => exact .refl _
    | all _ hperm =>
      exact .all (Reordered.forall₂_refl _) (.refl _) (Reordered.forall₂_refl _) hperm
  | any children minMatch ih =>
    cases h with
    | refl => exact .refl _
    | any _ hchildren =>
      have hreordered := forall₂_imp_of_mem (fun child hchild _ => ih child hchild) hchildren
      exact .any minMatch hreordered (.refl _)
  | _ =>
    cases h
    exact .refl _

theorem ofPolygon (field : String) {polygon other : Polygon} (h : polygon.SameButHoles other) :
    SameButExcluded (Clause.ofPolygon field polygon) (Clause.ofPolygon field other) := by
  rw [Clause.ofPolygon, Clause.ofPolygon, ← h.hasHoles_eq, h.outer]
  by_cases hholes : polygon.hasHoles = true
  · rw [if_pos hholes, if_pos hholes]
    exact .all _ (h.holes.map _)
  · rw [if_neg hholes, if_neg hholes]
    exact .refl _

theorem ofArea (field : String) {area other : Area}
    (h : List.Forall₂ Polygon.SameButHoles area.polygons other.polygons) :
    SameButExcluded (Clause.ofArea field area) (Clause.ofArea field other) := by
  refine related_anyOf (.any 1) ?_
  rw [List.forall₂_map_left_iff, List.forall₂_map_right_iff]
  exact h.imp fun _ _ hpolygon => ofPolygon field hpolygon

end SameButExcluded

end Clause

end RecordQuery
