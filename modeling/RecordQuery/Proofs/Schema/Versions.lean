import RecordQuery.Schema.Registry

/-!
# The order of versions

Versions are told apart by their numbers first and by their characters where the numbers are the
same. Main statements: the versions of a registry are listed in this order, each once, and the
newest, which is looked for without sorting, is the last of them.
-/

namespace RecordQuery.Schema

namespace Version

/-- A version comes before another: its numbers do, or they are the same and its characters do. -/
def Precedes (a b : String) : Prop := key a < key b ∨ key a = key b ∧ a < b

instance (a b : String) : Decidable (Precedes a b) :=
  inferInstanceAs (Decidable (key a < key b ∨ key a = key b ∧ a < b))

theorem before_eq_true_iff {a b : String} : before a b = true ↔ ¬ key b < key a := by
  rw [before, Bool.not_eq_true', decide_eq_false_iff_not]

theorem before_trans (a b c : String) (hab : before a b = true) (hbc : before b c = true) :
    before a c = true := by
  rw [before_eq_true_iff, List.not_lt] at hab hbc ⊢
  exact List.le_trans hab hbc

theorem before_total (a b : String) : (before a b || before b a) = true := by
  rw [Bool.or_eq_true, before_eq_true_iff, before_eq_true_iff, List.not_lt, List.not_lt]
  exact List.le_total (key a) (key b)

theorem Precedes.before {a b : String} (h : Precedes a b) : before a b = true := by
  rw [before_eq_true_iff]
  rcases h with hkey | ⟨hkey, _⟩
  · exact List.lt_asymm hkey
  · rw [hkey]
    exact List.lt_irrefl (key b)

theorem lt_or_eq_of_before {a b : String} (h : Version.before a b = true) :
    key a < key b ∨ key a = key b :=
  List.le_iff_lt_or_eq.1 (List.not_lt.1 (before_eq_true_iff.1 h))

theorem precedes_of_before_of_lt {a b : String} (hbefore : Version.before a b = true)
    (hlt : a < b) : Precedes a b := by
  rcases lt_or_eq_of_before hbefore with hkey | hkey
  · exact .inl hkey
  · exact .inr ⟨hkey, hlt⟩

theorem precedes_of_before_eq_false {a b : String} (h : Version.before a b = false) :
    Precedes b a := by
  rw [Version.before, Bool.not_eq_false', decide_eq_true_eq] at h
  exact .inl h

theorem precedes_irrefl (a : String) : ¬ Precedes a a := by
  rintro (hkey | ⟨_, hlt⟩)
  · exact List.lt_irrefl (key a) hkey
  · exact String.lt_irrefl a hlt

theorem Precedes.trans {a b c : String} (hab : Precedes a b) (hbc : Precedes b c) :
    Precedes a c := by
  rcases hab with hab | ⟨hkey, hab⟩
  · rcases lt_or_eq_of_before hbc.before with hbc | hbc
    · exact .inl (List.lt_trans hab hbc)
    · exact .inl (hbc ▸ hab)
  · rcases hbc with hbc | ⟨hkey', hbc⟩
    · exact .inl (hkey ▸ hbc)
    · exact .inr ⟨hkey.trans hkey', String.lt_trans hab hbc⟩

end Version

namespace Registry

open Version (Precedes)

/-- Sorting keeps versions with the same numbers in the order of their characters. -/
theorem pairwise_precedes_mergeSort {versions : List String} (h : versions.Pairwise (· < ·)) :
    (versions.mergeSort Version.before).Pairwise Precedes := by
  induction versions with
  | nil =>
    rw [List.mergeSort_nil]
    exact .nil
  | cons version rest ih =>
    obtain ⟨hversion, hrest⟩ := List.pairwise_cons.1 h
    -- The first version is put among the others, behind those that it does not come before.
    obtain ⟨front, back, hsorted, hothers, hfront⟩ :=
      List.mergeSort_cons Version.before_trans Version.before_total version rest
    have hbefore : (front ++ version :: back).Pairwise fun a b => Version.before a b = true :=
      hsorted ▸ List.pairwise_mergeSort Version.before_trans Version.before_total (version :: rest)
    have hback : ∀ other ∈ back, Precedes version other := by
      intro other hother
      have hsome : other ∈ rest.mergeSort Version.before := by
        rw [hothers]
        exact List.mem_append_right front hother
      have hmem : other ∈ rest := List.mem_mergeSort.1 hsome
      have hle := List.rel_of_pairwise_cons (List.pairwise_append.1 hbefore).2.1 hother
      exact Version.precedes_of_before_of_lt hle (hversion other hmem)
    have hahead : ∀ other ∈ front, Precedes other version := fun other hother =>
      Version.precedes_of_before_eq_false (Bool.not_eq_true' _ ▸ hfront other hother)
    have hpairs := ih hrest
    rw [hothers, List.pairwise_append] at hpairs
    obtain ⟨hpairsFront, hpairsBack, hacross⟩ := hpairs
    rw [hsorted, List.pairwise_append, List.pairwise_cons]
    refine ⟨hpairsFront, ⟨hback, hpairsBack⟩, fun a ha b hb => ?_⟩
    rcases List.mem_cons.1 hb with rfl | hb
    · exact hahead a ha
    · exact hacross a ha b hb

theorem versions_perm (registry : Registry) : registry.versions.Perm registry.schemas.keys :=
  List.mergeSort_perm registry.schemas.keys Version.before

theorem pairwise_versions (registry : Registry) : registry.versions.Pairwise Precedes :=
  pairwise_precedes_mergeSort registry.schemas.pairwise_keys

/-- One of these versions that all others come before. -/
structure Newest (versions : List String) (newest : String) : Prop where
  mem : newest ∈ versions
  precedes : ∀ version ∈ versions, version = newest ∨ Precedes version newest

-- What comes before one of them can be added.
theorem Newest.add {versions : List String} {version other newest : String}
    (h : Newest versions newest) (hmem : other ∈ versions) (hother : Precedes version other) :
    Newest (version :: versions) newest := by
  refine ⟨List.mem_cons_of_mem version h.mem, List.forall_mem_cons.2 ⟨.inr ?_, h.precedes⟩⟩
  rcases h.precedes other hmem with rfl | hnewest
  · exact hother
  · exact hother.trans hnewest

theorem Newest.of_perm {versions others : List String} {newest : String}
    (h : Newest versions newest) (hperm : versions.Perm others) : Newest others newest :=
  ⟨hperm.mem_iff.1 h.mem, fun version hversion =>
    h.precedes version (hperm.mem_iff.2 hversion)⟩

theorem exists_newest_of_foldl_newer {best : String} {versions : List String}
    (h : (best :: versions).Pairwise (· < ·)) :
    ∃ newest, versions.foldl newer (some best) = some newest ∧
      Newest (best :: versions) newest := by
  induction versions generalizing best with
  | nil =>
    exact ⟨best, rfl, List.mem_singleton_self best, List.forall_mem_singleton.2 (.inl rfl)⟩
  | cons version rest ih =>
    obtain ⟨hbest, hrest⟩ := List.pairwise_cons.1 h
    rw [List.foldl_cons, newer]
    by_cases hlater : Version.before best version = true
    · rw [if_pos hlater]
      obtain ⟨newest, hfold, hnewest⟩ := ih hrest
      have hprecedes : Precedes best version :=
        Version.precedes_of_before_of_lt hlater (hbest version List.mem_cons_self)
      exact ⟨newest, hfold, hnewest.add List.mem_cons_self hprecedes⟩
    · -- The version is passed over, and the best so far stays ahead of what follows.
      rw [if_neg hlater]
      have hothers : (best :: rest).Pairwise (· < ·) :=
        List.pairwise_cons.2 ⟨fun other hother => hbest other (List.mem_cons_of_mem version hother),
          (List.pairwise_cons.1 hrest).2⟩
      obtain ⟨newest, hfold, hnewest⟩ := ih hothers
      have hprecedes : Precedes version best :=
        Version.precedes_of_before_eq_false (Bool.eq_false_iff.2 hlater)
      exact ⟨newest, hfold,
        (hnewest.add List.mem_cons_self hprecedes).of_perm (List.Perm.swap best version rest)⟩

-- In a list that is in order, the newest version is the last.
theorem getLast?_eq_some_of_newest {versions : List String} {newest : String}
    (h : versions.Pairwise Precedes) (hnewest : Newest versions newest) :
    versions.getLast? = some newest := by
  cases hversions : versions.getLast? with
  | none =>
    rw [List.getLast?_eq_none_iff.1 hversions] at hnewest
    exact absurd hnewest.mem List.not_mem_nil
  | some last =>
    obtain ⟨front, rfl⟩ := List.getLast?_eq_some_iff.1 hversions
    have hlast := hnewest.precedes last List.mem_concat_self
    refine congrArg some (hlast.resolve_right fun hprecedes => ?_)
    -- If the last version came before the newest, the newest would stand in front of it.
    rcases List.mem_append.1 hnewest.mem with hfront | hback
    · have hahead := (List.pairwise_append.1 h).2.2 newest hfront last List.mem_cons_self
      exact Version.precedes_irrefl newest (hahead.trans hprecedes)
    · rw [List.mem_singleton.1 hback] at hprecedes
      exact Version.precedes_irrefl last hprecedes

theorem latestVersion?_eq_getLast? (registry : Registry) :
    registry.latestVersion? = registry.versions.getLast? := by
  have hperm := registry.versions_perm
  have hordered := registry.schemas.pairwise_keys
  rw [latestVersion?]
  cases hkeys : registry.schemas.keys with
  | nil =>
    rw [hkeys] at hperm
    rw [List.perm_nil.1 hperm]
    rfl
  | cons first rest =>
    rw [hkeys] at hperm hordered
    obtain ⟨newest, hfold, hnewest⟩ := exists_newest_of_foldl_newer hordered
    rw [List.foldl_cons, newer, hfold]
    exact (getLast?_eq_some_of_newest registry.pairwise_versions
      (hnewest.of_perm hperm.symm)).symm

theorem latestVersion?_eq_some_iff {registry : Registry} {version : String} :
    registry.latestVersion? = some version ↔ Newest registry.versions version := by
  rw [latestVersion?_eq_getLast?]
  constructor
  · intro hlast
    obtain ⟨front, hversions⟩ := List.getLast?_eq_some_iff.1 hlast
    have hordered := registry.pairwise_versions
    rw [hversions] at hordered ⊢
    refine ⟨List.mem_concat_self, fun other hother => ?_⟩
    rcases List.mem_append.1 hother with hfront | hback
    · exact .inr ((List.pairwise_append.1 hordered).2.2 other hfront version List.mem_cons_self)
    · exact .inl (List.mem_singleton.1 hback)
  · exact getLast?_eq_some_of_newest registry.pairwise_versions

-- The order of versions leaves only one way to list them.
theorem versions_eq_of_perm {registry : Registry} {listed : List String}
    (hperm : registry.versions.Perm listed) (h : listed.Pairwise Precedes) :
    registry.versions = listed := by
  refine List.Perm.eq_of_pairwise ?_ registry.pairwise_versions h hperm
  intro a b _ _ hab hba
  exact absurd (hab.trans hba) (Version.precedes_irrefl a)

/-- One version is listed before another if it comes before it in the order of versions. -/
theorem sublist_versions_iff {registry : Registry} {a b : String} (ha : a ∈ registry.versions)
    (hb : b ∈ registry.versions) : [a, b].Sublist registry.versions ↔ Precedes a b := by
  constructor
  · intro hsublist
    exact List.rel_of_pairwise_cons (registry.pairwise_versions.sublist hsublist)
      (List.mem_singleton_self b)
  · intro hprecedes
    obtain ⟨front, back, hversions⟩ := List.append_of_mem ha
    have hordered := registry.pairwise_versions
    rw [hversions] at hb hordered ⊢
    rcases List.mem_append.1 hb with hfront | hback
    · -- In front of the first the second would come before it.
      have hbefore := (List.pairwise_append.1 hordered).2.2 b hfront a List.mem_cons_self
      exact absurd (hprecedes.trans hbefore) (Version.precedes_irrefl a)
    · rcases List.mem_cons.1 hback with rfl | hback
      · exact absurd hprecedes (Version.precedes_irrefl b)
      · have hpair : [a, b].Sublist (a :: back) := (List.singleton_sublist.2 hback).cons_cons a
        exact hpair.trans (List.sublist_append_right front (a :: back))

-- The newest version is one of those there are, so its schema is found.
theorem exists_get_of_latestVersion? {registry : Registry} {version : String}
    (hlatest : registry.latestVersion? = some version) :
    ∃ schema, registry.get version = .ok schema := by
  rw [latestVersion?_eq_getLast?] at hlatest
  have hmem := registry.versions_perm.mem_iff.1 (List.mem_of_getLast? hlatest)
  obtain ⟨schema, hschema⟩ := SortedMap.mem_keys_iff.1 hmem
  exact ⟨schema, by rw [get, hschema]⟩

end Registry

end RecordQuery.Schema
