import RecordQuery.Proofs.Matching
import RecordQuery.Proofs.Text.Splitting
import RecordQuery.Query.Canonical

/-!
# Parts joined in sorted order

The text of sorted parts does not depend on the order they came in. When the parts can be told
apart in it, it depends on nothing else.
-/

namespace RecordQuery.Query

open Text (Delimited)

section Sorting

variable {separator : String} {c : Char} {piece : List Char → Prop} {parts others : List String}

theorem pairwise_le_mergeSort (parts : List String) :
    (parts.mergeSort fun a b => decide (a ≤ b)).Pairwise (· ≤ ·) := by
  have hsorted := @List.pairwise_mergeSort String (fun a b => decide (a ≤ b))
    (fun a b c hab hbc => by
      simpa using String.le_trans (by simpa using hab) (by simpa using hbc))
    (fun a b => by simpa using String.le_total a b) parts
  simpa using hsorted

-- There is one sorted order, so the parts may stand in any.
theorem mergeSort_eq_of_perm (h : parts.Perm others) :
    (parts.mergeSort fun a b => decide (a ≤ b)) =
      others.mergeSort fun a b => decide (a ≤ b) := by
  have hperm := (List.mergeSort_perm parts fun a b => decide (a ≤ b)).trans
    (h.trans (List.mergeSort_perm others fun a b => decide (a ≤ b)).symm)
  refine List.Perm.eq_of_pairwise ?_ (pairwise_le_mergeSort parts)
    (pairwise_le_mergeSort others) hperm
  intro a b _ _ hab hba
  exact String.le_antisymm hab hba

theorem sortedJoin_eq_of_perm (h : parts.Perm others) :
    sortedJoin separator parts = sortedJoin separator others := by
  rw [sortedJoin, sortedJoin, mergeSort_eq_of_perm h]

-- Parts that are sorted already stay where they are.
theorem sortedJoin_of_pairwise (h : parts.Pairwise (· ≤ ·)) :
    sortedJoin separator parts = separator.intercalate parts := by
  rw [sortedJoin, List.mergeSort_of_pairwise]
  exact h.imp fun hab => decide_eq_true hab

theorem toList_sortedJoin (hseparator : separator.toList = [c]) (parts : List String) :
    (sortedJoin separator parts).toList =
      [c].intercalate ((parts.mergeSort fun a b => decide (a ≤ b)).map String.toList) := by
  rw [sortedJoin, String.toList_intercalate, hseparator]

theorem mem_mergeSort_map_toList {parts : List String} {a : List Char} :
    a ∈ (parts.mergeSort fun a b => decide (a ≤ b)).map String.toList ↔
      a ∈ parts.map String.toList :=
  ((List.mergeSort_perm parts _).map String.toList).mem_iff

-- The text of sorted parts consists of separators and of what the parts consist of.
theorem mem_sortedJoin (hseparator : separator.toList = [c]) {d : Char}
    (h : d ∈ (sortedJoin separator parts).toList) : d = c ∨ ∃ part ∈ parts, d ∈ part.toList := by
  rw [toList_sortedJoin hseparator] at h
  rcases Text.mem_intercalate h with hc | ⟨a, ha, hd⟩
  · exact .inl hc
  · obtain ⟨part, hpart, rfl⟩ := List.mem_map.1 (mem_mergeSort_map_toList.1 ha)
    exact .inr ⟨part, hpart, hd⟩

theorem depthAfter_sortedJoin (hseparator : separator.toList = [c]) {depth : Nat}
    (hstep : Text.depthStep depth c = some depth)
    (h : ∀ part ∈ parts, Text.Enclosed part.toList) :
    Text.depthAfter depth (sortedJoin separator parts).toList = some depth := by
  rw [toList_sortedJoin hseparator]
  apply Text.depthAfter_intercalate hstep
  intro a ha
  obtain ⟨part, hpart, rfl⟩ := List.mem_map.1 (mem_mergeSort_map_toList.1 ha)
  exact h part hpart

theorem mergeSort_map_toList_ne_nil (h : parts ≠ []) :
    (parts.mergeSort fun a b => decide (a ≤ b)).map String.toList ≠ [] := by
  intro hnil
  have hperm := (List.mergeSort_perm parts fun a b => decide (a ≤ b)).symm
  rw [List.map_eq_nil_iff.1 hnil] at hperm
  exact h hperm.eq_nil

/-- Parts that can be told apart are the same but for their order. -/
theorem perm_of_sortedJoin_eq (hseparator : separator.toList = [c]) (hpiece : Delimited c piece)
    (hparts : ∀ part ∈ parts, piece part.toList) (hothers : ∀ part ∈ others, piece part.toList)
    (hne : parts ≠ []) (hne' : others ≠ [])
    (h : sortedJoin separator parts = sortedJoin separator others) : parts.Perm others := by
  have htext := congrArg String.toList h
  rw [toList_sortedJoin hseparator, toList_sortedJoin hseparator] at htext
  have hpieces : ∀ {parts : List String}, (∀ part ∈ parts, piece part.toList) →
      ∀ a ∈ (parts.mergeSort fun a b => decide (a ≤ b)).map String.toList, piece a := by
    intro parts hparts a ha
    obtain ⟨part, hpart, rfl⟩ := List.mem_map.1 (mem_mergeSort_map_toList.1 ha)
    exact hparts part hpart
  -- Both texts are joined from sorted lists, which are therefore one list.
  have hsorted := hpiece.intercalate_inj (hpieces hparts) (hpieces hothers)
    (mergeSort_map_toList_ne_nil hne) (mergeSort_map_toList_ne_nil hne') htext
  have heq := (List.map_inj_right fun _ _ => String.toList_inj.1).1 hsorted
  have hperm := List.mergeSort_perm parts fun a b => decide (a ≤ b)
  rw [heq] at hperm
  exact hperm.symm.trans (List.mergeSort_perm others _)

-- The text of parts without the separator is empty for no parts and for a single empty one.
theorem sortedJoin_eq_empty (hseparator : separator.toList = [c])
    (hparts : ∀ part ∈ parts, c ∉ part.toList) (hne : parts ≠ [])
    (h : sortedJoin separator parts = "") : parts = [""] := by
  -- A single empty part is written like nothing, and is told apart from other parts as they are.
  have hsingle : sortedJoin separator [""] = "" := by
    rw [sortedJoin, List.mergeSort_singleton, String.intercalate_singleton]
  have hperm := perm_of_sortedJoin_eq hseparator (Text.delimited_not_mem c) hparts
    (List.forall_mem_singleton.2 List.not_mem_nil) hne (List.cons_ne_nil "" [])
    (h.trans hsingle.symm)
  exact List.perm_singleton.1 hperm

end Sorting

end RecordQuery.Query
