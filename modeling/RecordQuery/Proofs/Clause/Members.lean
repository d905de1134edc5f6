import RecordQuery.Clause.SearchBody
import RecordQuery.Proofs.Matching

/-!
# Clauses and the clauses in them

Recursion over clauses goes through a function on clauses and one on lists of clauses. Here
induction over clauses is stated once, and search bodies are put in terms of the list library: the
kind of question a body asks is its only key, and clauses are joined by listing their bodies.
-/

namespace RecordQuery.Clause

open Json (Value)

@[elab_as_elim, induction_eliminator]
theorem induct {motive : Clause → Prop} (everything : motive .everything)
    (text : ∀ field words, motive (.text field words))
    (term : ∀ field value, motive (.term field value))
    (range : ∀ field bounds, motive (.range field bounds))
    (present : ∀ field, motive (.present field))
    (near : ∀ field lat lon radius unit, motive (.near field lat lon radius unit))
    (within : ∀ field ring, motive (.within field ring))
    (all : ∀ children excluded, (∀ child ∈ children, motive child) →
      (∀ clause ∈ excluded, motive clause) → motive (.all children excluded))
    (any : ∀ children minMatch, (∀ child ∈ children, motive child) →
      motive (.any children minMatch))
    (none : ∀ children, (∀ child ∈ children, motive child) → motive (.none children))
    (clause : Clause) : motive clause := by
  -- On lists, the recursor is to prove the property of every clause in them.
  refine @Clause.rec motive (fun clauses => ∀ clause ∈ clauses, motive clause) everything text
    term range present near within all (fun children minMatch => any children minMatch) none
    ?nil ?cons clause
  case nil =>
    intro clause h
    exact absurd h List.not_mem_nil
  case cons =>
    intro first rest hfirst hrest
    exact List.forall_mem_cons.2 ⟨hfirst, hrest⟩

theorem bodies_eq_map (clauses : List Clause) : bodies clauses = clauses.map body :=
  eq_map_of_cons rfl (fun _ _ => rfl) clauses

/-- The kind of question a clause asks, which is the only key of its search body. -/
def kind : Clause → String
  | .everything => "match_all"
  | .text .. => "match"
  | .term .. => "term"
  | .range .. => "range"
  | .present .. => "exists"
  | .near .. => "geo_distance"
  | .within .. => "geo_polygon"
  | .all .. | .any .. | .none .. => "bool"

theorem exists_body_eq (clause : Clause) : ∃ content, clause.body = single clause.kind content := by
  cases clause with
  | all children excluded =>
    cases excluded with
    | nil => exact ⟨_, rfl⟩
    | cons first excluded => exact ⟨_, rfl⟩
  | _ => exact ⟨_, rfl⟩

/-! ## Joined clauses -/

/-- The list of excluded bodies, which is left out if there are none. -/
def exclusion : List Value → List (String × Value)
  | [] => []
  | first :: rest => [("must_not", .array (first :: rest))]

theorem body_all (children excluded : List Clause) :
    body (.all children excluded) = single "bool"
      (.ofMembers (("filter", .array (children.map body)) :: exclusion (excluded.map body))) := by
  cases excluded with
  | nil =>
    rw [body, bodies_eq_map]
    rfl
  | cons first excluded =>
    rw [body, bodies_eq_map, bodies_eq_map]
    rfl

theorem body_any (children : List Clause) (minMatch : UInt64) :
    body (.any children minMatch) = single "bool" (.ofMembers
      [("should", .array (children.map body)), ("minimum_should_match", count minMatch)]) := by
  rw [body, bodies_eq_map]

theorem body_none (children : List Clause) :
    body (.none children) =
      single "bool" (.ofMembers [("must_not", .array (children.map body))]) := by
  rw [body, bodies_eq_map]
  rfl

end RecordQuery.Clause
