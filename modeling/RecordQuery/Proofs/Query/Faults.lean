import RecordQuery.Proofs.Query.Reading

/-!
# Where a filter is at fault

Members are read one after the other, so reading stops at the first node that cannot be read, in
whatever groups it stands. Main statement: what reading fails with is what that node itself is at
fault for, with the path that leads there.
-/

namespace RecordQuery.Query

open Json (Value)

/-- The path to what an error complains of, if it has one. -/
def Error.place? : Error → Option String
  | .malformed path _ => some path
  | .unsupportedOperator path _ => some path
  | _ => none

namespace Operator

theorem name_of_ofName? {name : String} {operator : Operator} (h : ofName? name = some operator) :
    operator.name = name := by
  have hfound := List.find?_some h
  exact beq_iff_eq.1 hfound

end Operator

namespace Filter

/-- The step from a group to the member at an index. -/
structure Step where
  connective : Connective
  index : Nat

def Step.text (step : Step) : String :=
  "." ++ step.connective.name ++ "[" ++ toString step.index ++ "]"

/-- The path of what is reached by some steps from what stands at `path`. -/
def placeAt (path : String) (steps : List Step) : String :=
  path ++ String.join (steps.map Step.text)

theorem placeAt_nil (path : String) : placeAt path [] = path := String.append_empty

theorem placeAt_cons (path : String) (step : Step) (steps : List Step) :
    placeAt path (step :: steps) = placeAt (path ++ step.text) steps := by
  rw [placeAt, placeAt, List.map_cons, String.join_cons, String.append_assoc]

-- The path of the member at an index of the group at `path`.
def memberPath (path : String) (index : Nat) : String := s!"{path}[{index}]"

theorem append_text (path : String) (step : Step) :
    path ++ step.text = memberPath (path ++ "." ++ step.connective.name) step.index := by
  simp only [Step.text, memberPath, toString, String.append_assoc]

/-- The value can be read as a filter, wherever it stands. -/
def Readable (value : Value) : Prop := ∀ path, ∃ filter, ofValue path value = .ok filter

theorem readable_of_ofValue {path : String} {value : Value} {filter : Filter}
    (h : ofValue path value = .ok filter) : Readable value :=
  fun other => ⟨filter, ofValue_of_ofValue h other⟩

/-- The steps lead from a value to a node in it, past members that can all be read. -/
inductive Leads : Value → List Step → Value → Prop
  | here (node : Value) : Leads node [] node
  | member (connective : Connective) {before after : List Value} {item node : Value}
      {steps : List Step} : (∀ earlier ∈ before, Readable earlier) → Leads item steps node →
      Leads (.object [(connective.name, .array (before ++ item :: after))])
        (⟨connective, before.length⟩ :: steps) node

/-- What the node at `path` is at fault for, whatever its members are. -/
inductive OwnFault (path : String) : Value → Error → Prop
  | notObject {node : Value} : (∀ members, node ≠ .object members) →
      OwnFault path node (.malformed path .filterNotObject)
  | operatorCount {members : List (String × Value)} : members.length ≠ 1 →
      OwnFault path (.object members) (.malformed path (.operatorCount members.length))
  | unsupported {name : String} (options : Value) : Operator.ofName? name = none →
      OwnFault path (.object [(name, options)]) (.unsupportedOperator path name)
  | options {kind : TermKind} {options : Value} {cause : Malformation} :
      Term.decode options kind = .error cause →
      OwnFault path (.object [(kind.name, options)]) (.malformed (path ++ "." ++ kind.name) cause)
  | notList (connective : Connective) {options : Value} : (∀ items, options ≠ .array items) →
      OwnFault path (.object [(connective.name, options)])
        (.malformed (path ++ "." ++ connective.name) .membersNotList)
  | noMember (connective : Connective) :
      OwnFault path (.object [(connective.name, .array [])])
        (.malformed (path ++ "." ++ connective.name) .emptyGroup)

/-- The operator of a node that has one key, if it is a known one. -/
def knownOperator? : Value → Option Operator
  | .object [(name, _)] => Operator.ofName? name
  | _ => none

/-- The path of what a node is at fault for: the operator's, as soon as that is known. -/
def faultPlace (path : String) (node : Value) : String :=
  match knownOperator? node with
  | some operator => path ++ "." ++ operator.name
  | none => path

/-! ## One node -/

theorem knownOperator?_of_length_ne_one {members : List (String × Value)}
    (h : members.length ≠ 1) : knownOperator? (.object members) = none := by
  unfold knownOperator?
  split
  · rename_i heq
    rw [Value.object.inj heq] at h
    exact absurd rfl h
  · rfl

theorem OwnFault.place?_eq {path : String} {node : Value} {error : Error}
    (h : OwnFault path node error) : error.place? = some (faultPlace path node) := by
  have hknown : ∀ (operator : Operator) (options : Value),
      faultPlace path (.object [(operator.name, options)]) = path ++ "." ++ operator.name := by
    intro operator options
    rw [faultPlace, knownOperator?, Operator.ofName?_name]
  cases h with
  | notObject hnode =>
    cases node with
    | object members => exact absurd rfl (hnode members)
    | _ => rfl
  | operatorCount hlength => rw [faultPlace, knownOperator?_of_length_ne_one hlength, Error.place?]
  | unsupported options hname => rw [faultPlace, knownOperator?, hname, Error.place?]
  | options _ => exact congrArg some (hknown (.term _) _).symm
  | notList connective _ => exact congrArg some (hknown (.group connective) _).symm
  | noMember connective => exact congrArg some (hknown (.group connective) _).symm

theorem ofValue_of_ownFault {path : String} {node : Value} {error : Error}
    (h : OwnFault path node error) : ofValue path node = .error error := by
  cases h with
  | notObject hnode =>
    cases node with
    | object members => exact absurd rfl (hnode members)
    | _ => rfl
  | @operatorCount members hlength =>
    match members with
    | [] => rfl
    | [_] => exact absurd rfl hlength
    | _ :: _ :: _ => rfl
  | unsupported options hname => rw [ofValue, hname]
  | @options kind _ _ hdecode =>
    have hname := Operator.ofName?_name (.term kind)
    rw [Operator.name] at hname
    rw [ofValue, hname]
    simp only [hdecode]
  | @notList connective options hoptions =>
    have hname := Operator.ofName?_name (.group connective)
    rw [Operator.name] at hname
    cases options with
    | array items => exact absurd rfl (hoptions items)
    | _ => rw [ofValue, hname]
  | noMember connective =>
    have hname := Operator.ofName?_name (.group connective)
    rw [Operator.name] at hname
    rw [ofValue, hname]

theorem ofValue_group_eq_error {path : String} {connective : Connective} {items : List Value}
    {error : Error} (h : ofMembers (path ++ "." ++ connective.name) 0 items = .error error) :
    ofValue path (.object [(connective.name, .array items)]) = .error error := by
  have hname := Operator.ofName?_name (.group connective)
  rw [Operator.name] at hname
  cases items with
  | nil => exact nomatch h
  | cons item items =>
    rw [ofValue, hname]
    simp only [h]

-- A value is refused for what it is at fault for itself, or for one of the members of a group.
theorem ownFault_or_of_ofValue {path : String} {value : Value} {error : Error}
    (h : ofValue path value = .error error) :
    OwnFault path value error ∨ ∃ connective items,
      value = .object [(Connective.name connective, .array items)] ∧
        ofMembers (path ++ "." ++ connective.name) 0 items = .error error := by
  unfold ofValue at h
  split at h
  · rename_i name options
    split at h
    · rename_i hname
      obtain rfl := Except.error.inj h
      exact .inl (.unsupported options hname)
    · rename_i kind hname
      obtain rfl := Operator.name_of_ofName? hname
      split at h
      · rename_i cause hdecode
        obtain rfl := Except.error.inj h
        exact .inl (.options hdecode)
      · cases h
    · rename_i connective hname
      obtain rfl := Operator.name_of_ofName? hname
      split at h
      · obtain rfl := Except.error.inj h
        exact .inl (.noMember connective)
      · rename_i items _
        split at h
        · rename_i cause hmembers
          obtain rfl := Except.error.inj h
          exact .inr ⟨connective, items, rfl, hmembers⟩
        · cases h
      · rename_i hne
        obtain rfl := Except.error.inj h
        exact .inl (.notList connective hne)
  · rename_i members hne
    obtain rfl := Except.error.inj h
    refine .inl (.operatorCount fun hlength => ?_)
    obtain ⟨⟨name, options⟩, rfl⟩ := List.length_eq_one_iff.1 hlength
    exact hne name options rfl
  · rename_i hne
    obtain rfl := Except.error.inj h
    exact .inl (.notObject hne)

/-! ## Members -/

-- Of the members of a group the first that cannot be read is complained of.
theorem ofMembers_eq_error_iff {path : String} {index : Nat} {items : List Value} {error : Error} :
    ofMembers path index items = .error error ↔
      ComesTo Readable (fun place item => ofValue (memberPath path place) item = .error error)
        index items := by
  induction items generalizing index with
  | nil => simp only [ofMembers, not_comesTo_nil, reduceCtorEq]
  | cons first rest ih =>
    rw [comesTo_cons_iff, ← ih, ofMembers, ← memberPath]
    cases hfirst : ofValue (memberPath path index) first with
    | error cause =>
      have hunreadable : ¬ Readable first := by
        intro hread
        obtain ⟨filter, hfilter⟩ := hread (memberPath path index)
        cases hfirst.symm.trans hfilter
      simp only [Except.error.injEq, hunreadable, false_and, or_false]
    | ok filter =>
      simp only [readable_of_ofValue hfirst, true_and, reduceCtorEq, false_or]
      cases ofMembers path (index + 1) rest with
      | error cause => exact Iff.rfl
      | ok filters => simp only [reduceCtorEq]

/-! ## The whole filter -/

theorem exists_leads_of_ofValue {path : String} {value : Value} {error : Error}
    (h : ofValue path value = .error error) :
    ∃ steps node, Leads value steps node ∧ OwnFault (placeAt path steps) node error := by
  -- A member is a smaller value, so the search goes on in the first that cannot be read.
  induction hsize : sizeOf value using Nat.strongRecOn generalizing path value with
  | _ size ih =>
    rcases ownFault_or_of_ofValue h with hown | ⟨connective, items, rfl, hmembers⟩
    · exact ⟨[], value, .here value, (placeAt_nil path).symm ▸ hown⟩
    · obtain ⟨before, item, after, rfl, hbefore, hitem⟩ := ofMembers_eq_error_iff.1 hmembers
      have hsmaller : sizeOf item < size := by
        have hmem := List.sizeOf_lt_of_mem (List.mem_append_right before (List.mem_cons_self
          (a := item) (l := after)))
        simp only [Value.object.sizeOf_spec, Value.array.sizeOf_spec, List.cons.sizeOf_spec,
          Prod.mk.sizeOf_spec] at hsize
        omega
      rw [Nat.zero_add] at hitem
      have hstep := append_text path ⟨connective, before.length⟩
      rw [← hstep] at hitem
      obtain ⟨steps, node, hleads, hown⟩ := ih _ hsmaller hitem rfl
      refine ⟨_, node, .member connective hbefore hleads, ?_⟩
      rwa [placeAt_cons]

theorem ofValue_of_leads {path : String} {value node : Value} {steps : List Step} {error : Error}
    (hleads : Leads value steps node) (hown : OwnFault (placeAt path steps) node error) :
    ofValue path value = .error error := by
  induction hleads generalizing path with
  | here node => exact ofValue_of_ownFault (placeAt_nil path ▸ hown)
  | @member connective before after item node steps hbefore _ ih =>
    rw [placeAt_cons] at hown
    apply ofValue_group_eq_error
    refine ofMembers_eq_error_iff.2 ⟨before, item, after, rfl, hbefore, ?_⟩
    rw [Nat.zero_add]
    rw [append_text] at hown
    exact ih hown

/-- A value fails to be read as a filter with what a node in it is at fault for, where all members
that stand before the way to this node can be read. The error is that of the node alone, and its
path is the way there, followed by the node's operator if the node has one that is known. -/
theorem ofValue_eq_error_iff_leads (path : String) (value : Value) (error : Error) :
    ofValue path value = .error error ↔
      ∃ steps node, Leads value steps node ∧ OwnFault (placeAt path steps) node error ∧
        ofValue (placeAt path steps) node = .error error ∧
        error.place? = some (faultPlace (placeAt path steps) node) := by
  constructor
  · intro h
    obtain ⟨steps, node, hleads, hown⟩ := exists_leads_of_ofValue h
    exact ⟨steps, node, hleads, hown, ofValue_of_ownFault hown, hown.place?_eq⟩
  · rintro ⟨steps, node, hleads, hown, _, _⟩
    exact ofValue_of_leads hleads hown

/-- The second member of the first group holds a group with the node at fault. -/
example :
    ofValue "filters" (.object [("and", .array [
      .object [("exists", .object [("geo_field", .bool true)])],
      .object [("not", .array [.object [("regex", .null)], .null])]])]) =
    .error (.unsupportedOperator "filters.and[1].not[0]" "regex") := rfl

end Filter

end RecordQuery.Query
