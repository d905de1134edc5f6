import RecordQuery.Proofs.Matching
import RecordQuery.Query.Canonical
import RecordQuery.Query.Compiler

/-!
# Filters and their members

Recursion over filters goes through a function on filters and one on lists of members. Here the
functions on lists are put in terms of the list library, and induction over filters is stated
once: a property of every term that passes from the members to the group holds of every filter.
-/

namespace RecordQuery.Query

namespace Filter

@[elab_as_elim, induction_eliminator]
theorem induct {motive : Filter → Prop}
    (group : ∀ connective members, (∀ member ∈ members, motive member) →
      motive (.group connective members))
    (term : ∀ leaf, motive (.term leaf)) (filter : Filter) : motive filter := by
  -- On lists, the recursor is to prove the property of every member.
  refine @Filter.rec motive (fun members => ∀ member ∈ members, motive member) group term
    ?nil ?cons filter
  case nil =>
    intro member h
    exact absurd h List.not_mem_nil
  case cons =>
    intro first rest hfirst hrest
    exact List.forall_mem_cons.2 ⟨hfirst, hrest⟩

theorem canonicalMembers_eq_map (members : List Filter) :
    canonicalMembers members = members.map canonical :=
  eq_map_of_cons rfl (fun _ _ => rfl) members

theorem canonical_group (connective : Connective) (members : List Filter) :
    canonical (.group connective members) =
      connective.name ++ ":[" ++ sortedJoin "|" (members.map canonical) ++ "]" := by
  rw [canonical, canonicalMembers_eq_map]

theorem namedAreasOfMembers_eq_flatMap (members : List Filter) :
    namedAreasOfMembers members = members.flatMap namedAreas := by
  induction members with
  | nil => rfl
  | cons member rest ih => rw [namedAreasOfMembers, List.flatMap_cons, ih]

theorem mem_namedAreas_group {connective : Connective} {members : List Filter}
    {area : NamedArea} :
    area ∈ namedAreas (.group connective members) ↔
      ∃ member ∈ members, area ∈ member.namedAreas := by
  rw [namedAreas, namedAreasOfMembers_eq_flatMap, List.mem_flatMap]

end Filter

namespace Compiler

-- Members are compiled one by one.
theorem filters_eq_ok_iff {compiler : Compiler} {members : List Filter}
    {clauses : List Clause} :
    compiler.filters members = .ok clauses ↔
      List.Forall₂ (fun member clause => compiler.filter member = .ok clause) members clauses := by
  induction members generalizing clauses with
  | nil =>
    rw [filters, List.forall₂_nil_left_iff, Except.ok.injEq]
    exact eq_comm
  | cons member rest ih =>
    rw [filters, List.forall₂_cons_left_iff]
    constructor
    · intro h
      split at h
      · exact absurd h (by simp)
      · rename_i clause hmember
        split at h
        · exact absurd h (by simp)
        · rename_i others hrest
          exact ⟨clause, others, hmember, ih.1 hrest, (Except.ok.inj h).symm⟩
    · rintro ⟨clause, others, hmember, hrest, rfl⟩
      rw [hmember, ih.2 hrest]

theorem filter_group_eq_ok_iff {compiler : Compiler} {connective : Connective}
    {members : List Filter} {clause : Clause} :
    compiler.filter (.group connective members) = .ok clause ↔
      ∃ clauses, List.Forall₂ (fun member clause => compiler.filter member = .ok clause)
        members clauses ∧ group clauses connective = clause := by
  rw [filter]
  constructor
  · intro h
    split at h
    · exact absurd h (by simp)
    · rename_i clauses hmembers
      exact ⟨clauses, filters_eq_ok_iff.1 hmembers, Except.ok.inj h⟩
  · rintro ⟨clauses, hmembers, rfl⟩
    rw [filters_eq_ok_iff.2 hmembers]

end Compiler

end RecordQuery.Query
