import RecordQuery.Proofs.Clause.Members
import RecordQuery.Proofs.Meaning.Record

/-!
# What search bodies say

The truth of a search body is worked out from the JSON alone: a `bool` joins the clauses in its
lists, and any other question is simple and has the truth it is given. Main statement: the search
body of a clause is true if and only if the clause is, whatever is true of simple questions.
-/

namespace RecordQuery

open Json (Value)

/-! ## Truth of clauses -/

namespace Clause

mutual

/-- The truth of a clause that is joined from simple conditions, given the truth of those. -/
def evaluate (simple : Clause → Bool) : Clause → Bool
  | .everything => true
  | .all children excluded =>
    (evaluateAll simple children).all id && !(evaluateAll simple excluded).any id
  | .any children minMatch =>
    decide (minMatch.toNat ≤ (evaluateAll simple children).count true)
  | .none children => !(evaluateAll simple children).any id
  | condition => simple condition

def evaluateAll (simple : Clause → Bool) : List Clause → List Bool
  | [] => []
  | clause :: rest => evaluate simple clause :: evaluateAll simple rest

end

theorem evaluateAll_eq_map (simple : Clause → Bool) (clauses : List Clause) :
    evaluateAll simple clauses = clauses.map (evaluate simple) :=
  eq_map_of_cons rfl (fun _ _ => rfl) clauses

-- What holds of a record is joined in this way from what the record says of simple conditions.
theorem holds_eq_evaluate (record : Record) (clause : Clause) :
    clause.holds record = clause.evaluate (holds record) := by
  induction clause with
  | all children excluded ihchildren ihexcluded =>
    rw [holds, evaluate, truths_eq_map, truths_eq_map, evaluateAll_eq_map, evaluateAll_eq_map,
      List.map_congr_left ihchildren, List.map_congr_left ihexcluded]
  | any children minMatch ih =>
    rw [holds, evaluate, truths_eq_map, evaluateAll_eq_map, List.map_congr_left ih]
  | none children ih =>
    rw [holds, evaluate, truths_eq_map, evaluateAll_eq_map, List.map_congr_left ih]
  | _ => rfl

end Clause

/-! ## Truth of search bodies -/

namespace SearchBody

/-- The clauses in the list of this name; a list that is absent is empty. -/
def clausesUnder (name : String) (parts : List (String × Value)) : List Value :=
  match Entries.find? name parts with
  | some (.array clauses) => clauses
  | _ => []

/-- How many clauses under `should` have to be true; none unless it is said. -/
def minimumMatch (parts : List (String × Value)) : Nat :=
  match Entries.find? "minimum_should_match" parts with
  | some (.number (.integer least _)) => least.toNat
  | _ => 0

def truthsUnder (name : String) (truths : List (String × List Bool)) : List Bool :=
  (Entries.find? name truths).getD []

/-- The truth of a `bool`, from the truths in its lists by the names of the lists. -/
def joined (least : Nat) (truths : List (String × List Bool)) : Bool :=
  (truthsUnder "filter" truths).all id && !(truthsUnder "must_not" truths).any id &&
    decide (least ≤ (truthsUnder "should" truths).count true)

mutual

/-- The truth of a search body, given the truth of every simple question. -/
def evaluate (simple : Value → Bool) : Value → Bool
  | .object [("match_all", .object [])] => true
  | .object [("bool", .object parts)] => joined (minimumMatch parts) (evaluateParts simple parts)
  | question => simple question

def evaluateParts (simple : Value → Bool) : List (String × Value) → List (String × List Bool)
  | [] => []
  | (name, .array clauses) :: rest =>
    (name, evaluateAll simple clauses) :: evaluateParts simple rest
  | (name, _) :: rest => (name, []) :: evaluateParts simple rest

def evaluateAll (simple : Value → Bool) : List Value → List Bool
  | [] => []
  | clause :: rest => evaluate simple clause :: evaluateAll simple rest

end

variable (simple : Value → Bool)

theorem evaluateAll_eq_map (clauses : List Value) :
    evaluateAll simple clauses = clauses.map (evaluate simple) :=
  eq_map_of_cons rfl (fun _ _ => rfl) clauses

theorem truthsUnder_evaluateParts (name : String) (parts : List (String × Value)) :
    truthsUnder name (evaluateParts simple parts) =
      (clausesUnder name parts).map (evaluate simple) := by
  unfold truthsUnder clausesUnder
  induction parts with
  | nil => rfl
  | cons part rest ih =>
    obtain ⟨key, value⟩ := part
    by_cases h : key = name
    · cases value <;> simp [evaluateParts, Entries.find?, h, evaluateAll_eq_map]
    · cases value <;> simp [evaluateParts, Entries.find?, h, ih]

/-- All required clauses are true, no excluded one is, and enough of the optional ones are. -/
theorem evaluate_bool (parts : List (String × Value)) :
    evaluate simple (.object [("bool", .object parts)]) =
      (((clausesUnder "filter" parts).map (evaluate simple)).all id &&
        !((clausesUnder "must_not" parts).map (evaluate simple)).any id &&
        decide (minimumMatch parts ≤
          ((clausesUnder "should" parts).map (evaluate simple)).count true)) := by
  rw [evaluate, joined, truthsUnder_evaluateParts, truthsUnder_evaluateParts,
    truthsUnder_evaluateParts]

theorem evaluate_simple {kind : String} (hbool : kind ≠ "bool") (hall : kind ≠ "match_all")
    (content : Value) :
    evaluate simple (Clause.single kind content) = simple (Clause.single kind content) := by
  unfold evaluate Clause.single
  split
  · rename_i h
    exact absurd (by simpa using h) fun h : kind = "match_all" ∧ content = .object [] => hall h.1
  · rename_i parts h
    exact absurd (by simpa using h) fun h : kind = "bool" ∧ content = .object parts => hbool h.1
  · rfl

-- Clauses that are no joins become simple questions.
theorem evaluate_body_of_kind {clause : Clause} (hbool : clause.kind ≠ "bool")
    (hall : clause.kind ≠ "match_all") : evaluate simple clause.body = simple clause.body := by
  obtain ⟨content, hbody⟩ := clause.exists_body_eq
  rw [hbody]
  exact evaluate_simple simple hbool hall content

-- Of parts that are put together one after the other, the last of each name is in force.
theorem evaluate_ofMembers (parts : List (String × Value)) :
    evaluate simple (Clause.single "bool" (.ofMembers parts)) =
      (((clausesUnder "filter" parts.reverse).map (evaluate simple)).all id &&
        !((clausesUnder "must_not" parts.reverse).map (evaluate simple)).any id &&
        decide (minimumMatch parts.reverse ≤
          ((clausesUnder "should" parts.reverse).map (evaluate simple)).count true)) := by
  have hclauses : ∀ name, clausesUnder name (Entries.ofList parts) =
      clausesUnder name parts.reverse := by
    intro name
    rw [clausesUnder, clausesUnder, Entries.find?_ofList]
  have hleast : minimumMatch (Entries.ofList parts) = minimumMatch parts.reverse := by
    rw [minimumMatch, minimumMatch, Entries.find?_ofList]
  rw [← hclauses, ← hclauses, ← hclauses, ← hleast]
  exact evaluate_bool simple (Entries.ofList parts)

/-! ## The search bodies of clauses -/

theorem evaluate_body_all (children excluded : List Clause) :
    evaluate simple (Clause.body (.all children excluded)) =
      (((children.map Clause.body).map (evaluate simple)).all id &&
        !((excluded.map Clause.body).map (evaluate simple)).any id) := by
  rw [Clause.body_all, evaluate_ofMembers]
  -- There are no optional clauses, and none of them is asked for.
  cases excluded.map Clause.body with
  | nil => simp [Clause.exclusion, clausesUnder, minimumMatch, Entries.find?]
  | cons first rest => simp [Clause.exclusion, clausesUnder, minimumMatch, Entries.find?]

theorem evaluate_body_any (children : List Clause) (minMatch : UInt64) :
    evaluate simple (Clause.body (.any children minMatch)) =
      decide (minMatch.toNat ≤ ((children.map Clause.body).map (evaluate simple)).count true) := by
  rw [Clause.body_any, evaluate_ofMembers]
  simp [clausesUnder, minimumMatch, Entries.find?, Clause.count]

theorem evaluate_body_none (children : List Clause) :
    evaluate simple (Clause.body (.none children)) =
      !((children.map Clause.body).map (evaluate simple)).any id := by
  rw [Clause.body_none, evaluate_ofMembers]
  simp [clausesUnder, minimumMatch, Entries.find?]

/-- Writing a clause as a search body keeps its truth, where simple conditions are worth what
their own search bodies are. -/
theorem evaluate_body (clause : Clause) :
    evaluate simple clause.body = clause.evaluate fun condition => simple condition.body := by
  have htruths : ∀ clauses : List Clause,
      (∀ clause ∈ clauses, evaluate simple clause.body =
        clause.evaluate fun condition => simple condition.body) →
      (clauses.map Clause.body).map (evaluate simple) =
        Clause.evaluateAll (fun condition => simple condition.body) clauses := by
    intro clauses h
    rw [List.map_map, Clause.evaluateAll_eq_map]
    exact List.map_congr_left h
  induction clause with
  | everything => rfl
  | all children excluded ihchildren ihexcluded =>
    rw [evaluate_body_all, htruths children ihchildren, htruths excluded ihexcluded,
      Clause.evaluate]
  | any children minMatch ih => rw [evaluate_body_any, htruths children ih, Clause.evaluate]
  | none children ih => rw [evaluate_body_none, htruths children ih, Clause.evaluate]
  | text | term | range | present | near | within =>
    exact evaluate_body_of_kind simple (by simp [Clause.kind]) (by simp [Clause.kind])

end SearchBody

end RecordQuery
