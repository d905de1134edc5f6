import RecordQuery.Proofs.Query.Members
import RecordQuery.Proofs.Query.WellFormed

/-!
# What can be read

Where a value stands is for the texts of errors only. Main statements: whether a value is read as a
filter and as which does not depend on its path, and a document is read from an object whose
members are a text to search for and a filter that can be read.
-/

namespace RecordQuery.Query

open Json (Value)

/-! ## Filters -/

namespace Filter

theorem ofValue_term {path name : String} {options : Value} {kind : TermKind} {leaf : Term}
    (hname : Operator.ofName? name = some (.term kind))
    (hleaf : Term.decode options kind = .ok leaf) :
    ofValue path (.object [(name, options)]) = .ok (.term leaf) := by
  rw [ofValue, hname]
  simp only [hleaf]

theorem ofValue_group {path name : String} {items : List Value} {connective : Connective}
    {members : List Filter} (hname : Operator.ofName? name = some (.group connective))
    (hne : items ≠ []) (hmembers : ofMembers (path ++ "." ++ name) 0 items = .ok members) :
    ofValue path (.object [(name, .array items)]) = .ok (.group connective members) := by
  obtain ⟨item, items, rfl⟩ := List.exists_cons_of_ne_nil hne
  rw [ofValue, hname]
  simp only [hmembers]

-- Members that are read wherever they stand are read in their places.
theorem ofMembers_of_forall₂ {path : String} {index : Nat} {items : List Value}
    {members : List Filter}
    (h : List.Forall₂ (fun item member => ∀ place, ofValue place item = .ok member)
      items members) : ofMembers path index items = .ok members := by
  induction h generalizing index with
  | nil => rfl
  | cons hfirst _ ih =>
    rw [ofMembers, hfirst]
    simp only [ih]

theorem ofValue_of_ofValue {path : String} {value : Value} {filter : Filter}
    (h : ofValue path value = .ok filter) (other : String) :
    ofValue other value = .ok filter := by
  induction filter generalizing path value other with
  | group connective members ih =>
    rcases ofValue_eq_ok h with ⟨_, _, _, _, _, _, _, hfilter⟩ |
      ⟨name, items, _, _, rfl, hname, hne, hmembers, hfilter⟩
    · exact nomatch hfilter
    · obtain ⟨rfl, rfl⟩ := Filter.group.inj hfilter
      apply ofValue_group hname hne
      -- Each item was read at some place, so it is read at any.
      have hread := (ofMembers_eq_ok hmembers).flip
      have hanywhere : List.Forall₂ (fun member item => ∀ place, ofValue place item = .ok member)
          members items :=
        forall₂_imp_of_mem (fun member hmember item ⟨_, hitem⟩ place =>
          ih member hmember hitem place) hread
      exact ofMembers_of_forall₂ hanywhere.flip
  | term leaf =>
    rcases ofValue_eq_ok h with ⟨name, options, _, _, rfl, hname, hleaf, hfilter⟩ |
      ⟨_, _, _, _, _, _, _, _, hfilter⟩
    · rw [hfilter]
      exact ofValue_term hname hleaf
    · exact nomatch hfilter

theorem ofValue_eq_ok_iff_of_path (path other : String) (value : Value) (filter : Filter) :
    ofValue path value = .ok filter ↔ ofValue other value = .ok filter :=
  ⟨fun h => ofValue_of_ofValue h other, fun h => ofValue_of_ofValue h path⟩

end Filter

/-! ## Documents -/

namespace Document

/-- A text to search for or a filter that can be read, each under its key. -/
def Allowed (member : String × Value) : Prop :=
  (member.1 = "search" ∧ ∃ text, member.2 = .string text) ∨
    (member.1 = "filters" ∧ ∃ path filter, Filter.ofValue path member.2 = .ok filter)

theorem exists_addMember_eq_ok_iff (document : Document) (member : String × Value) :
    (∃ next, document.addMember member = .ok next) ↔ Allowed member := by
  unfold addMember Allowed
  constructor
  · rintro ⟨next, h⟩
    split at h
    · rename_i hkey
      split at h
      · rename_i text htext
        exact .inl ⟨hkey, text, htext⟩
      · exact nomatch h
    · rename_i hkey
      split at h
      · exact nomatch h
      · rename_i filter hfilter
        exact .inr ⟨hkey, "filters", filter, hfilter⟩
    · exact nomatch h
  · rintro (⟨hkey, text, htext⟩ | ⟨hkey, path, filter, hfilter⟩)
    · rw [hkey, htext]
      exact ⟨_, rfl⟩
    · rw [hkey, Filter.ofValue_of_ofValue hfilter "filters"]
      exact ⟨_, rfl⟩

theorem exists_ofValue_eq_ok_iff (value : Value) :
    (∃ document, ofValue value = .ok document) ↔
      ∃ members, value = .object members ∧ ∀ member ∈ members, Allowed member := by
  cases value with
  | object members =>
    rw [ofValue, exists_foldlM_eq_ok_iff exists_addMember_eq_ok_iff]
    constructor
    · intro h
      exact ⟨members, rfl, h⟩
    · rintro ⟨_, hmembers, h⟩
      rw [Value.object.inj hmembers]
      exact h
  | _ =>
    constructor
    · rintro ⟨_, h⟩
      exact nomatch h
    · rintro ⟨_, h, _⟩
      exact nomatch h

end Document

end RecordQuery.Query
