import Mathlib.Data.List.Dedup
import RecordQuery.Proofs.Matching
import RecordQuery.Proofs.Schema.Versions

/-!
# Registering schemas

A registry is grown by registering one schema after the other. Main statement: after any run of
registrations each version stands for the schema that was registered last with it, and the newest
version is the last in the order of versions.
-/

namespace RecordQuery.Schema.Registry

open Query (Compiler Error)

/-- The registries there are before anything is registered. -/
inductive Start where
  | empty
  | builtin (compiler : Compiler)

namespace Start

def registry : Start → Registry
  | .empty => Registry.empty
  | .builtin compiler => Registry.builtin compiler

/-- The schemas that are registered from the start. -/
def schemas : Start → List Schema
  | .empty => []
  | .builtin compiler => [Schema.first compiler]

end Start

/-- Registers schemas one after the other. -/
def registerAll (registry : Registry) (history : List Schema) : Registry :=
  history.foldl register registry

/-- The last of some schemas that has this version. -/
def lastOf? (version : String) (registered : List Schema) : Option Schema :=
  registered.reverse.find? (·.version == version)

theorem lastOf?_concat (version : String) (registered : List Schema) (schema : Schema) :
    lastOf? version (registered ++ [schema]) =
      if schema.version = version then some schema else lastOf? version registered := by
  rw [lastOf?, List.reverse_append, List.reverse_singleton, List.singleton_append, List.find?_cons]
  by_cases h : schema.version = version
  · rw [if_pos h, h, beq_self_eq_true]
  · rw [if_neg h, beq_eq_false_iff_ne.2 h, lastOf?]

theorem lastOf?_eq_some_iff {version : String} {registered : List Schema} {schema : Schema} :
    lastOf? version registered = some schema ↔
      ∃ before after, registered = before ++ schema :: after ∧ schema.version = version ∧
        ∀ other ∈ after, other.version ≠ version := by
  rw [lastOf?, find?_reverse_eq_some_iff]
  simp only [beq_iff_eq, beq_eq_false_iff_ne]

theorem lastOf?_eq_none_iff {version : String} {registered : List Schema} :
    lastOf? version registered = none ↔ ∀ schema ∈ registered, schema.version ≠ version := by
  rw [lastOf?, List.find?_eq_none]
  simp only [List.mem_reverse, beq_iff_eq, ne_eq]

/-- The registry holds the last schema of each version. -/
def Holds (registry : Registry) (registered : List Schema) : Prop :=
  ∀ version, registry.schemas.get? version = lastOf? version registered

section Runs

variable {registry : Registry} {registered : List Schema}

theorem holds_empty : empty.Holds [] := fun _ => rfl

theorem Holds.register (h : registry.Holds registered) (schema : Schema) :
    (registry.register schema).Holds (registered ++ [schema]) := by
  intro version
  rw [Registry.register, SortedMap.get?_insert, lastOf?_concat, h version]

theorem Holds.registerAll (h : registry.Holds registered) (history : List Schema) :
    (registry.registerAll history).Holds (registered ++ history) := by
  induction history generalizing registry registered with
  | nil => rwa [List.append_nil]
  | cons schema rest ih =>
    have hrest := ih (h.register schema)
    rwa [List.append_assoc, List.singleton_append] at hrest

theorem Start.holds (start : Start) : start.registry.Holds start.schemas := by
  cases start with
  | empty => exact holds_empty
  | builtin compiler => exact holds_empty.register (Schema.first compiler)

end Runs

/-! ## What a registry holds decides what it answers -/

namespace Holds

variable {registry : Registry} {registered : List Schema} (h : registry.Holds registered)
include h

theorem version_eq {version : String} {schema : Schema}
    (hmem : (version, schema) ∈ registry.schemas.entries) : schema.version = version := by
  rw [← SortedMap.get?_eq_some_iff, h version, lastOf?_eq_some_iff] at hmem
  obtain ⟨_, _, _, hversion, _⟩ := hmem
  exact hversion

theorem get_eq_ok_iff {version : String} {schema : Schema} :
    registry.get version = .ok schema ↔
      ∃ before after, registered = before ++ schema :: after ∧ schema.version = version ∧
        ∀ other ∈ after, other.version ≠ version := by
  rw [get, h version, ← lastOf?_eq_some_iff]
  cases lastOf? version registered with
  | none => simp only [reduceCtorEq]
  | some last => rw [Except.ok.injEq, Option.some.injEq]

theorem get_eq_error_iff {version : String} {error : Error} :
    registry.get version = .error error ↔
      error = .unsupportedVersion version ∧
        ∀ schema ∈ registered, schema.version ≠ version := by
  rw [get, h version, ← lastOf?_eq_none_iff]
  cases lastOf? version registered with
  | none => simp only [Except.error.injEq, and_true, eq_comm]
  | some last => simp only [reduceCtorEq, and_false]

theorem mem_keys_iff {version : String} :
    version ∈ registry.schemas.keys ↔ ∃ schema ∈ registered, schema.version = version := by
  rw [SortedMap.mem_keys_iff, h version]
  constructor
  · rintro ⟨schema, hlast⟩
    obtain ⟨before, after, rfl, hversion, _⟩ := lastOf?_eq_some_iff.1 hlast
    exact ⟨schema, List.mem_append_right before List.mem_cons_self, hversion⟩
  · rintro ⟨schema, hmem, hversion⟩
    refine Option.ne_none_iff_exists'.1 fun hnone => ?_
    exact lastOf?_eq_none_iff.1 hnone schema hmem hversion

theorem versions_perm_dedup :
    registry.versions.Perm (registered.map Schema.version).dedup := by
  refine registry.versions_perm.trans ?_
  rw [List.perm_ext_iff_of_nodup registry.schemas.nodup_keys (List.nodup_dedup _)]
  intro version
  rw [h.mem_keys_iff, List.mem_dedup, List.mem_map]

theorem latestVersion?_eq_none_iff : registry.latestVersion? = none ↔ registered = [] := by
  rw [latestVersion?_eq_getLast?, List.getLast?_eq_none_iff, ← List.length_eq_zero_iff,
    h.versions_perm_dedup.length_eq, List.length_eq_zero_iff, List.dedup_eq_nil,
    List.map_eq_nil_iff]

theorem exists_latest_iff :
    (∃ schema, registry.getOrLatest none = .ok schema) ↔ registered ≠ [] := by
  rw [ne_eq, ← h.latestVersion?_eq_none_iff, getOrLatest, latest]
  cases hlatest : registry.latestVersion? with
  | none => exact ⟨fun ⟨_, hget⟩ => (nomatch hget), fun hne => absurd rfl hne⟩
  | some version => exact ⟨fun _ => Option.some_ne_none version,
      fun _ => exists_get_of_latestVersion? hlatest⟩

theorem latestVersion?_of_latest {schema : Schema}
    (hlatest : registry.getOrLatest none = .ok schema) :
    registry.latestVersion? = some schema.version := by
  rw [getOrLatest, latest] at hlatest
  split at hlatest
  · rename_i version hversion
    obtain ⟨_, _, _, heq, _⟩ := h.get_eq_ok_iff.1 hlatest
    rw [hversion, heq]
  · exact nomatch hlatest

end Holds

/-- Whatever is registered, starting from no schema or from those there are from the start: a
schema stands under its own version, and of the schemas of one version the last one does; the
versions are listed once each, in their order, and the newest is the last of them. -/
theorem registerAll_keeps_last (start : Start) (history : List Schema) :
    let registry := start.registry.registerAll history
    let registered := start.schemas ++ history
    (∀ version schema, (version, schema) ∈ registry.schemas.entries → schema.version = version) ∧
    (∀ version schema, registry.get version = .ok schema ↔
      ∃ before after, registered = before ++ schema :: after ∧ schema.version = version ∧
        ∀ other ∈ after, other.version ≠ version) ∧
    (∀ version error, registry.get version = .error error ↔
      error = .unsupportedVersion version ∧ ∀ schema ∈ registered, schema.version ≠ version) ∧
    registry.versions.Perm (registered.map Schema.version).dedup ∧
    registry.versions.Pairwise Version.Precedes ∧
    registry.latestVersion? = registry.versions.getLast? ∧
    (registry.latestVersion? = none ↔ registered = []) ∧
    ((∃ schema, registry.getOrLatest none = .ok schema) ↔ registered ≠ []) ∧
    ∀ schema, registry.getOrLatest none = .ok schema →
      registry.latestVersion? = some schema.version := by
  intro registry registered
  have h : registry.Holds registered := start.holds.registerAll history
  exact ⟨fun _ _ => h.version_eq, fun _ _ => h.get_eq_ok_iff, fun _ _ => h.get_eq_error_iff,
    h.versions_perm_dedup, registry.pairwise_versions, registry.latestVersion?_eq_getLast?,
    h.latestVersion?_eq_none_iff, h.exists_latest_iff, fun _ => h.latestVersion?_of_latest⟩

/-- A schema of this version that takes every query and matches all records. -/
def lenient (version : String) : Schema where
  version := version
  validate := fun _ => .ok ()
  compile := fun _ => .ok .everything
  cacheKey := fun _ => .ok version

/-- Three versions with the same numbers, of which one is registered twice. -/
theorem registerAll_lenient_keeps_last :
    let history := ["v1.x", "v1.0", "1.0", "v1.x"].map lenient
    let registry := Start.empty.registry.registerAll history
    ("v1.0", lenient "v1.0") ∈ registry.schemas.entries ∧
      (lenient "v1.0").version = "v1.0" ∧
      (∃ schema, registry.getOrLatest none = .ok schema ∧
        registry.latestVersion? = some schema.version) ∧
      registry.latestVersion? = some "v1.x" := by
  intro history registry
  have hmem : ("v1.0", lenient "v1.0") ∈ registry.schemas.entries := .tail _ (.head _)
  obtain ⟨hversions, _, _, _, _, _, _, hlatest, hnewest⟩ := registerAll_keeps_last .empty history
  obtain ⟨schema, hschema⟩ := hlatest.2 (List.cons_ne_nil _ _)
  exact ⟨hmem, hversions "v1.0" (lenient "v1.0") hmem, ⟨schema, hschema, hnewest schema hschema⟩,
    rfl⟩

end RecordQuery.Schema.Registry
