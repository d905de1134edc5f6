import Mathlib.Data.List.Forall2
import Mathlib.Data.List.Perm.Basic

/-!
# Lists that match

Lists match when their elements are related one by one, in their order. A function that takes a list
element by element is a map.
-/

namespace RecordQuery

section Elements

variable {α β : Type} {R S : α → β → Prop} {xs : List α} {ys : List β}

theorem exists_of_forall₂_of_mem (h : List.Forall₂ R xs ys) {y : β} (hy : y ∈ ys) :
    ∃ x ∈ xs, R x y := by
  induction h with
  | nil => exact absurd hy List.not_mem_nil
  | cons hfirst _ ih =>
    rcases List.mem_cons.1 hy with rfl | hy
    · exact ⟨_, List.mem_cons_self, hfirst⟩
    · obtain ⟨x, hx, hR⟩ := ih hy
      exact ⟨x, List.mem_cons_of_mem _ hx, hR⟩

-- What follows from the relation for the elements of one list holds all along.
theorem forall₂_imp_of_mem (hRS : ∀ x ∈ xs, ∀ y, R x y → S x y) (h : List.Forall₂ R xs ys) :
    List.Forall₂ S xs ys := by
  have hboth : List.Forall₂ (fun x y => (∀ y, R x y → S x y) ∧ R x y) xs ys :=
    (List.forall₂_and_left xs ys).2 ⟨hRS, h⟩
  exact hboth.imp fun _ y hxy => hxy.1 y hxy.2

end Elements

section Images

variable {α β γ : Type} {f : α → γ} {g : β → γ} {xs : List α} {ys : List β}

theorem eq_map_of_cons {f : α → γ} {images : List α → List γ} (hnil : images [] = [])
    (hcons : ∀ x xs, images (x :: xs) = f x :: images xs) (xs : List α) :
    images xs = xs.map f := by
  induction xs with
  | nil => exact hnil
  | cons x xs ih => rw [hcons, List.map_cons, ih]

-- Lists with the same images match, one by one.
theorem forall₂_of_map_eq {R : α → β → Prop} (hR : ∀ x ∈ xs, ∀ y ∈ ys, f x = g y → R x y)
    (h : xs.map f = ys.map g) : List.Forall₂ R xs ys := by
  induction xs generalizing ys with
  | nil =>
    rw [List.map_nil] at h
    rw [List.map_eq_nil_iff.1 h.symm]
    exact .nil
  | cons x xs ih =>
    cases ys with
    | nil => exact absurd h (List.cons_ne_nil _ _)
    | cons y ys =>
      rw [List.map_cons, List.map_cons] at h
      obtain ⟨hxy, hrest⟩ := List.cons.inj h
      refine .cons (hR x List.mem_cons_self y List.mem_cons_self hxy) (ih ?_ hrest)
      intro x' hx' y' hy'
      exact hR x' (List.mem_cons_of_mem x hx') y' (List.mem_cons_of_mem y hy')

theorem map_eq_of_forall₂ (h : List.Forall₂ (fun x y => f x = g y) xs ys) :
    xs.map f = ys.map g := by
  rw [← List.forall₂_eq_eq_eq, List.forall₂_map_left_iff, List.forall₂_map_right_iff]
  exact h

-- Lists with the same images in any order match in some order.
theorem exists_perm_of_map_perm (h : (xs.map f).Perm (ys.map g)) :
    ∃ zs : List β, zs.Perm ys ∧ xs.map f = zs.map g := by
  -- Every image on the right comes from an element, so the elements can follow the images.
  have himages : List.Forall₂ (fun image y => image = g y) (ys.map g) ys := by
    rw [List.forall₂_map_left_iff, List.forall₂_same]
    exact fun _ _ => rfl
  obtain ⟨zs, hzs, hperm⟩ := List.perm_comp_forall₂ h himages
  rw [List.forall₂_map_left_iff] at hzs
  exact ⟨zs, hperm, map_eq_of_forall₂ hzs⟩

end Images

-- What is found from the back is the last element of its kind.
theorem find?_reverse_eq_some_iff {α : Type} {p : α → Bool} {xs : List α} {x : α} :
    xs.reverse.find? p = some x ↔
      ∃ before after, xs = before ++ x :: after ∧ p x = true ∧ ∀ y ∈ after, p y = false := by
  rw [List.find?_eq_some_iff_append]
  constructor
  · rintro ⟨hx, after, before, hreverse, hafter⟩
    refine ⟨before.reverse, after.reverse, ?_, hx, fun y hy => ?_⟩
    · rw [← List.reverse_reverse xs, hreverse]
      simp only [List.reverse_append, List.reverse_cons, List.append_assoc, List.singleton_append]
    · simpa using hafter y (List.mem_reverse.1 hy)
  · rintro ⟨before, after, rfl, hx, hafter⟩
    refine ⟨hx, after.reverse, before.reverse, ?_, fun y hy => ?_⟩
    · simp only [List.reverse_append, List.reverse_cons, List.append_assoc, List.singleton_append]
    · simpa using hafter y (List.mem_reverse.1 hy)

end RecordQuery
