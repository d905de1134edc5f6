import RecordQuery.Proofs.Command.Boundaries
import RecordQuery.Proofs.Query.Faults

/-!
# What a key is the digest of, as it is shown

A command gives the key of a query, or shows the lines it is the digest of. Main statement: the two
fail alike just when there is a schema of the version that counts, which only the key asks for.
-/

namespace RecordQuery

namespace Query

open Json (Value)

/-! ## Errors of documents -/

theorem Document.exists_place?_of_addMember {document : Document} {member : String × Value}
    {error : Error} (h : document.addMember member = .error error) :
    ∃ place, error.place? = some place := by
  unfold addMember at h
  split at h
  · split at h
    · exact nomatch h
    · obtain rfl := Except.error.inj h
      exact ⟨"search", rfl⟩
  · split at h
    · rename_i cause hfilter
      obtain rfl := Except.error.inj h
      obtain ⟨steps, node, _, hown⟩ := Filter.exists_leads_of_ofValue hfilter
      exact ⟨_, hown.place?_eq⟩
    · exact nomatch h
  · obtain rfl := Except.error.inj h
    exact ⟨"", rfl⟩

theorem Document.exists_place?_of_ofValue {query : Value} {error : Error}
    (h : Document.ofValue query = .error error) : ∃ place, error.place? = some place := by
  unfold Document.ofValue at h
  split at h
  · obtain ⟨member, _, document, hmember⟩ := exists_of_foldlM_eq_error h
    exact exists_place?_of_addMember hmember
  · obtain rfl := Except.error.inj h
    exact ⟨"", rfl⟩

theorem getElem?_eq_of_append_eq {a b x y : String} {n : Nat} (h : a ++ x = b ++ y)
    (ha : n < a.length) (hb : n < b.length) : a.toList[n]? = b.toList[n]? := by
  rw [← String.toList_inj, String.toList_append, String.toList_append] at h
  rw [← String.length_toList] at ha hb
  rw [← @List.getElem?_append_left _ _ x.toList _ ha, h, List.getElem?_append_left hb]

-- What is wrong at a place is told in other words than a version that is not there.
theorem Error.message_ne_of_place? {error : Error} {place : String}
    (h : error.place? = some place) (version : String) :
    error.message ≠ (Error.unsupportedVersion version).message := by
  intro heq
  change _ = s!"unsupported query schema version: {version}" at heq
  cases error with
  | malformed path cause =>
    change s!"malformed query at {placeText path}: {cause.message}" = _ at heq
    simp only [toString, String.append_assoc] at heq
    have hletter := getElem?_eq_of_append_eq (n := 0) heq (by decide) (by decide)
    exact absurd hletter (by decide)
  | unsupportedOperator path operator =>
    change s!"unsupported operator '{operator}' at {path}" = _ at heq
    simp only [toString, String.append_assoc] at heq
    have hletter := getElem?_eq_of_append_eq (n := 12) heq (by decide) (by decide)
    exact absurd hletter (by decide)
  | invalidJson | unknownRegion | unsupportedVersion => exact nomatch h

end Query

namespace Command

open Json (Value)
open Query (Document)

/-! ## The two commands -/

section Steps

variable {m : Type → Type} [Monad m] [LawfulMonad m]

theorem output_hash_shown (world : World m) (settingsFile file : Option Path)
    (version : Option String) :
    output world ⟨settingsFile, version, .hash file true⟩ = (do
      let (_, query) ← prepare world settingsFile file
      return lines (← attempt .query (pure (Document.ofValue query))).canonicalLines) := by
  simp [output, prepare]

theorem output_hash (world : World m) (settingsFile file : Option Path) (version : Option String) :
    output world ⟨settingsFile, version, .hash file false⟩ = (do
      let (effective, query) ← prepare world settingsFile file
      let schema ← attempt .query (pure (chooseSchema effective version .empty))
      return line (← attempt .query (pure (schema.cacheKey query)))) := by
  simp [output, prepare]

end Steps

section Machine

variable {world : World Id} {settingsFile file : Option Path} {version : Option String}
  {effective : Settings} {query : Value}

/-- The document a query stands for, as far as a command is concerned. -/
def documentOf (query : Value) : Except Failure Document :=
  (Document.ofValue query).mapError .query

theorem run_output_hash_shown
    (h : Id.run (prepare world settingsFile file).run = .ok (effective, query)) :
    Id.run (output world ⟨settingsFile, version, .hash file true⟩).run =
      (documentOf query).map fun document => lines document.canonicalLines := by
  rw [output_hash_shown, bind_of_run_eq_ok h, documentOf]
  dsimp only
  cases Document.ofValue query <;> rfl

theorem run_output_hash_of_known
    (h : Id.run (prepare world settingsFile file).run = .ok (effective, query))
    (hversion : VersionKnown effective version) :
    Id.run (output world ⟨settingsFile, version, .hash file false⟩).run =
      (documentOf query).map fun document => line document.cacheKey := by
  rw [output_hash, bind_of_run_eq_ok h, documentOf]
  simp only [chooseSchema_of_known hversion, attempt_ok, pure_bind, Schema.first,
    Schema.cacheKeyOf]
  cases Document.ofValue query <;> rfl

theorem run_output_hash_of_not_known
    (h : Id.run (prepare world settingsFile file).run = .ok (effective, query))
    (hversion : ¬ VersionKnown effective version) :
    ∃ asked, Id.run (output world ⟨settingsFile, version, .hash file false⟩).run =
      .error (.query (.unsupportedVersion asked)) := by
  obtain ⟨asked, hchoice⟩ := chooseSchema_of_not_known hversion .empty
  refine ⟨asked, ?_⟩
  rw [output_hash, bind_of_run_eq_ok h]
  simp only [hchoice, attempt_error, ExceptT.bind_throw]
  rfl

theorem run_output_hash_of_error {failure : Failure} (canonical : Bool)
    (h : Id.run (prepare world settingsFile file).run = .error failure) :
    Id.run (output world ⟨settingsFile, version, .hash file canonical⟩).run = .error failure := by
  cases canonical with
  | true =>
    rw [output_hash_shown, bind_of_run_eq_error h]
    rfl
  | false =>
    rw [output_hash, bind_of_run_eq_error h]
    rfl

-- Showing a document never ends like asking for a version that is not there.
theorem verdict_documentOf_ne (complaint : Path → Option String) (f : Document → String)
    (asked : String) :
    (Outcome.of complaint ((documentOf query).map f)).verdict ≠
      (Outcome.of complaint (.error (.query (.unsupportedVersion asked)))).verdict := by
  intro heq
  obtain ⟨hcode, herrors⟩ := Prod.mk.inj heq
  cases hread : Document.ofValue query with
  | ok document =>
    rw [documentOf, hread] at hcode
    have hzero : (0 : UInt8) ≠ 1 := by decide
    exact absurd hcode hzero
  | error error =>
    rw [documentOf, hread] at herrors
    obtain ⟨place, hplace⟩ := Document.exists_place?_of_ofValue hread
    refine Query.Error.message_ne_of_place? hplace asked ?_
    change s!"error: {error.message}\n" =
      s!"error: {(Query.Error.unsupportedVersion asked).message}\n" at herrors
    simpa [toString] using herrors

end Machine

/-- Showing what is hashed ends with the exit code and the errors of hashing it just when there is
a schema of the version that counts, unless both fail before. A key that is given is the digest of
the lines that are shown, put together without their line breaks. -/
theorem hashed_as_shown_iff_version_known (world : World Id) (settingsFile file : Option Path)
    (version : Option String) :
    ((Id.run (run world ⟨settingsFile, version, .hash file true⟩)).verdict =
        (Id.run (run world ⟨settingsFile, version, .hash file false⟩)).verdict ↔
      ∀ effective query, Id.run (prepare world settingsFile file).run = .ok (effective, query) →
        VersionKnown effective version) ∧
    ((Id.run (run world ⟨settingsFile, version, .hash file false⟩)).exitCode = 0 →
      ∃ effective query document,
        Id.run (prepare world settingsFile file).run = .ok (effective, query) ∧
        Document.ofValue query = .ok document ∧
        Id.run (run world ⟨settingsFile, version, .hash file true⟩) =
          ⟨0, lines document.canonicalLines, ""⟩ ∧
        Id.run (run world ⟨settingsFile, version, .hash file false⟩) =
          ⟨0, line (Digest.Sha1.hex (String.join document.canonicalLines).toUTF8.toList), ""⟩) := by
  have hrun : ∀ canonical, Id.run (run world ⟨settingsFile, version, .hash file canonical⟩) =
      Outcome.of world.complaint
        (Id.run (output world ⟨settingsFile, version, .hash file canonical⟩).run) :=
    fun _ => rfl
  rw [hrun, hrun]
  cases hprepare : Id.run (prepare world settingsFile file).run with
  | error failure =>
    rw [run_output_hash_of_error true hprepare, run_output_hash_of_error false hprepare]
    refine ⟨⟨fun _ _ _ h => (nomatch h), fun _ => rfl⟩, fun hcode => ?_⟩
    obtain ⟨_, h⟩ := Outcome.exitCode_of_eq_zero_iff.1 hcode
    exact nomatch h
  | ok prepared =>
    obtain ⟨effective, query⟩ := prepared
    rw [run_output_hash_shown hprepare]
    by_cases hversion : VersionKnown effective version
    · rw [run_output_hash_of_known hprepare hversion]
      refine ⟨⟨fun _ _ _ h => ?_, fun _ => Outcome.verdict_of_map _ _ _ _⟩, fun hcode => ?_⟩
      · obtain ⟨rfl, _⟩ := Prod.mk.inj (Except.ok.inj h)
        exact hversion
      · obtain ⟨_, hresult⟩ := Outcome.exitCode_of_eq_zero_iff.1 hcode
        cases hread : Document.ofValue query with
        | error error =>
          rw [documentOf, hread] at hresult
          exact nomatch hresult
        | ok document =>
          rw [documentOf, hread]
          exact ⟨effective, query, document, rfl, hread, rfl, rfl⟩
    · obtain ⟨asked, hhashed⟩ := run_output_hash_of_not_known hprepare hversion
      rw [hhashed]
      refine ⟨⟨fun h => absurd h (verdict_documentOf_ne _ _ asked), fun h => ?_⟩, fun hcode => ?_⟩
      · exact absurd (h effective query rfl) hversion
      · obtain ⟨_, h⟩ := Outcome.exitCode_of_eq_zero_iff.1 hcode
        exact nomatch h

/-- A search for ferns is shown and hashed where the first version is asked for. -/
theorem fernMachine_hashed_as_shown :
    let world := fernMachine fun _ => .error (.opening "gone")
    let file : Option Path := some ⟨"vds.toml"⟩
    (Id.run (run world ⟨file, some "v1.0.0", .hash none false⟩)).exitCode = 0 ∧
      (∀ effective query, Id.run (prepare world file none).run = .ok (effective, query) →
        VersionKnown effective (some "v1.0.0")) ∧
      (Id.run (run world ⟨file, some "v1.0.0", .hash none true⟩)).verdict =
        (Id.run (run world ⟨file, some "v1.0.0", .hash none false⟩)).verdict ∧
      Id.run (run world ⟨file, some "v1.0.0", .hash none true⟩) = ⟨0, "search:fern\n", ""⟩ ∧
      ∃ effective query document,
        Id.run (prepare world file none).run = .ok (effective, query) ∧
        Document.ofValue query = .ok document ∧
        Id.run (run world ⟨file, some "v1.0.0", .hash none true⟩) =
          ⟨0, lines document.canonicalLines, ""⟩ ∧
        Id.run (run world ⟨file, some "v1.0.0", .hash none false⟩) =
          ⟨0, line (Digest.Sha1.hex (String.join document.canonicalLines).toUTF8.toList), ""⟩ := by
  intro world file
  have hcode : (Id.run (run world ⟨file, some "v1.0.0", .hash none false⟩)).exitCode = 0 := by
    decide +kernel
  have hversion : ∀ effective query,
      Id.run (prepare world file none).run = .ok (effective, query) →
        VersionKnown effective (some "v1.0.0") :=
    fun _ _ _ asked h => (Option.some.inj h).symm
  obtain ⟨hverdict, hkey⟩ := hashed_as_shown_iff_version_known world file none (some "v1.0.0")
  exact ⟨hcode, hversion, hverdict.2 hversion, by decide +kernel, hkey hcode⟩

/-- Where another version is asked for, the search is shown as if there were a key. -/
theorem fernMachine_shown_without_key :
    let world := fernMachine fun _ => .error (.opening "gone")
    let file : Option Path := some ⟨"vds.toml"⟩
    Id.run (run world ⟨file, some "v9.0.0", .hash none true⟩) = ⟨0, "search:fern\n", ""⟩ ∧
      Id.run (run world ⟨file, some "v9.0.0", .hash none false⟩) =
        ⟨1, "", "error: unsupported query schema version: v9.0.0\n"⟩ := by
  decide +kernel

end Command

end RecordQuery
