import RecordQuery.Proofs.Query.Resolution
import RecordQuery.Schema.Registry

/-!
# Checking and compiling

A schema checks a query by going through the list of areas it names, and compiles it by looking
them up on the way. Main statements: both fail alike, with the first fault of the query, and
neither looks at an area that the query does not name.
-/

namespace RecordQuery.Schema

open Json (Value)
open Query (AgreeOn Compiler Document Error NamedArea)
open Region (Lookup)

/-- What is wrong with a query: it cannot be read as a document, or the areas it names are known
up to one that is not. -/
inductive Fault (compiler : Compiler) (query : Value) : Error → Prop
  | malformed {error : Error} : Document.ofValue query = .error error →
      Fault compiler query error
  | unknown {document : Document} {before after : List NamedArea} {area : NamedArea} :
      Document.ofValue query = .ok document → document.namedAreas = before ++ area :: after →
      (∀ other ∈ before, compiler.Knows other) → ¬ compiler.Knows area →
      Fault compiler query (.unknownRegion area.category area.name)

section Compiled

variable {compiler : Compiler} {query : Value}

theorem validateWith_of_ofValue_eq_ok {document : Document}
    (h : Document.ofValue query = .ok document) :
    validateWith compiler query =
      document.namedAreas.forM fun area => discard (compiler.resolve area) := by
  rw [validateWith, h]
  rfl

theorem compileWith_of_ofValue_eq_ok {document : Document}
    (h : Document.ofValue query = .ok document) :
    compileWith compiler query = compiler.document document := by
  rw [compileWith, h]
  rfl

theorem compileWith_of_ofValue_eq_error {error : Error}
    (h : Document.ofValue query = .error error) : compileWith compiler query = .error error := by
  rw [compileWith, h]
  rfl

theorem validateWith_eq_map_compileWith (compiler : Compiler) (query : Value) :
    validateWith compiler query = (compileWith compiler query).map fun _ => () := by
  cases h : Document.ofValue query with
  | error error =>
    rw [compileWith_of_ofValue_eq_error h, validateWith, h]
    rfl
  | ok document =>
    rw [validateWith_of_ofValue_eq_ok h, compileWith_of_ofValue_eq_ok h]
    apply eq_map_unit_of_failure?_eq
    rw [Compiler.failure?_forM_resolve, Compiler.failure?_document]

theorem compileWith_eq_error_iff {error : Error} :
    compileWith compiler query = .error error ↔ Fault compiler query error := by
  cases hread : Document.ofValue query with
  | error cause =>
    rw [compileWith_of_ofValue_eq_error hread, Except.error.injEq]
    constructor
    · rintro rfl
      exact .malformed hread
    · rintro (hmalformed | ⟨hdocument, _, _, _⟩)
      · exact Except.error.inj (hread.symm.trans hmalformed)
      · exact nomatch hread.symm.trans hdocument
  | ok document =>
    -- The document is there, so the first area that is not known is the only fault.
    rw [compileWith_of_ofValue_eq_ok hread, ← failure?_eq_some_iff, Compiler.failure?_document,
      Option.map_eq_some_iff]
    constructor
    · rintro ⟨area, harea, rfl⟩
      obtain ⟨hunknown, before, after, hareas, hknown⟩ :=
        Compiler.firstUnknown?_eq_some_iff.1 harea
      exact .unknown hread hareas hknown hunknown
    · rintro (hmalformed | ⟨hdocument, hareas, hknown, hunknown⟩)
      · exact nomatch hread.symm.trans hmalformed
      · obtain rfl := Except.ok.inj (hread.symm.trans hdocument)
        exact ⟨_, Compiler.firstUnknown?_eq_some_iff.2 ⟨hunknown, _, _, hareas, hknown⟩, rfl⟩

end Compiled

section Congruence

variable {lookup other : Lookup} {names : FieldNames} {query : Value}

theorem compileWith_congr
    (h : ∀ document, Document.ofValue query = .ok document →
      AgreeOn document.namedAreas lookup other) :
    compileWith ⟨lookup, names⟩ query = compileWith ⟨other, names⟩ query := by
  cases hread : Document.ofValue query with
  | error error =>
    rw [compileWith_of_ofValue_eq_error hread, compileWith_of_ofValue_eq_error hread]
  | ok document =>
    rw [compileWith_of_ofValue_eq_ok hread, compileWith_of_ofValue_eq_ok hread,
      Compiler.document_congr (h document hread)]

theorem validateWith_congr
    (h : ∀ document, Document.ofValue query = .ok document →
      AgreeOn document.namedAreas lookup other) :
    validateWith ⟨lookup, names⟩ query = validateWith ⟨other, names⟩ query := by
  rw [validateWith_eq_map_compileWith, validateWith_eq_map_compileWith, compileWith_congr h]

end Congruence

/-!
## The schemas there are from the start

The registry a program starts with knows the first schema and no other, so which version is asked
for decides whether there is a schema at all, and the areas at hand decide the rest.
-/

namespace Registry

theorem get_builtin (compiler : Compiler) (version : String) :
    (builtin compiler).get version =
      if firstVersion = version then .ok (Schema.first compiler)
      else .error (.unsupportedVersion version) := by
  have hfound : (builtin compiler).schemas.get? version =
      if firstVersion = version then some (Schema.first compiler) else none :=
    SortedMap.get?_insert SortedMap.empty firstVersion version (Schema.first compiler)
  rw [get, hfound]
  by_cases h : firstVersion = version
  · rw [if_pos h, if_pos h]
  · rw [if_neg h, if_neg h]

theorem latest_builtin (compiler : Compiler) :
    (builtin compiler).latest = .ok (Schema.first compiler) := by
  have hversion : (builtin compiler).latestVersion? = some firstVersion := rfl
  rw [latest, hversion]
  exact (get_builtin compiler firstVersion).trans (if_pos rfl)

-- Over other areas or names the same version is found or missing.
theorem getOrLatest_builtin (compiler other : Compiler) (version : Option String) :
    (builtin compiler).getOrLatest version =
      ((builtin other).getOrLatest version).map fun _ => Schema.first compiler := by
  cases version with
  | none => rw [getOrLatest, getOrLatest, latest_builtin, latest_builtin, Except.map]
  | some version =>
    rw [getOrLatest, getOrLatest, get_builtin, get_builtin]
    by_cases h : firstVersion = version
    · rw [if_pos h, if_pos h, Except.map]
    · rw [if_neg h, if_neg h, Except.map]

end Registry

end RecordQuery.Schema
