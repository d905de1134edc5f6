import RecordQuery.Command.Run
import RecordQuery.Proofs.Command.Line
import RecordQuery.Proofs.Meaning.Filter
import RecordQuery.Proofs.Schema.Validation

/-!
# Commands that answer a query

Compiling and checking begin alike: settings, query, schema. Main statement: they accept the same
queries, and commands that differ in nothing else end with the same exit code and the same
errors, whatever the machine they run on.
-/

namespace RecordQuery.Command

open Json (Value)
open Query (Document NamedArea)
open Region (Lookup)

variable {m : Type → Type} [Monad m]

/-- What comes before the schema: the settings in effect and the query. -/
def prepare (world : World m) (settingsFile file : Option Path) :
    ExceptT Failure m (Settings × Value) := do
  let files ← settingsFiles world settingsFile
  let effective ← loadSettings world files
  let query ← readQuery world file
  return (effective, query)

section Steps

variable [LawfulMonad m]

theorem output_translate (world : World m) (settingsFile file : Option Path)
    (version : Option String) (layout : Layout) :
    output world ⟨settingsFile, version, .translate file layout⟩ = (do
      let (effective, query) ← prepare world settingsFile file
      let schema ← schemaFor world effective version query
      return clauseText (← attempt .query (pure (schema.compile query))) layout) := by
  simp [output, prepare]

theorem output_validate (world : World m) (settingsFile file : Option Path)
    (version : Option String) :
    output world ⟨settingsFile, version, .validate file⟩ = (do
      let (effective, query) ← prepare world settingsFile file
      let schema ← schemaFor world effective version query
      attempt .query (pure (schema.validate query))
      return line s!"ok ({schema.version})") := by
  simp [output, prepare]

theorem attempt_ok {ε α : Type} (meaning : ε → Failure) (a : α) :
    attempt meaning (pure (.ok a) : m (Except ε α)) = pure a := by
  rw [attempt, pure_bind]
  rfl

theorem attempt_error {ε α : Type} (meaning : ε → Failure) (e : ε) :
    attempt meaning (pure (.error e) : m (Except ε α)) = throw (meaning e) := by
  rw [attempt, pure_bind]
  rfl

-- A step is forgotten but for what it fails with.
theorem attempt_bind_eq {ε α β γ : Type} {x : Except ε α} {y : Except ε β}
    (h : failure? x = failure? y) (meaning : ε → Failure) (next : ExceptT Failure m γ) :
    (attempt meaning (pure x) >>= fun _ => next) =
      (attempt meaning (pure y) >>= fun _ => next) := by
  cases x with
  | error e =>
    rw [failure?_eq_some_iff.1 (h.symm.trans (failure?_error e)), attempt_error, attempt_error,
      ExceptT.bind_throw, ExceptT.bind_throw]
  | ok a =>
    obtain ⟨b, rfl⟩ := failure?_eq_none_iff.1 (h.symm.trans (failure?_ok a))
    rw [attempt_ok, attempt_ok, pure_bind, pure_bind]

end Steps

theorem chooseSchema_eq_map (effective : Settings) (version : Option String)
    (areas others : Lookup) :
    chooseSchema effective version areas = (chooseSchema effective version others).map
      fun _ => Schema.first ⟨areas, effective.fields⟩ :=
  Schema.Registry.getOrLatest_builtin ⟨areas, effective.fields⟩ ⟨others, effective.fields⟩ _

/-- The version that is asked for, else the one that is set, is that of a schema there is; or there
is none, and the newest schema is meant. -/
def VersionKnown (effective : Settings) (version : Option String) : Prop :=
  ∀ asked ∈ version.or effective.defaultVersion, asked = Schema.firstVersion

theorem chooseSchema_of_known {effective : Settings} {version : Option String}
    (h : VersionKnown effective version) (areas : Lookup) :
    chooseSchema effective version areas = .ok (Schema.first ⟨areas, effective.fields⟩) := by
  rw [chooseSchema]
  cases hversion : version.or effective.defaultVersion with
  | none => exact Schema.Registry.latest_builtin _
  | some asked =>
    obtain rfl := h asked hversion
    exact (Schema.Registry.get_builtin _ _).trans (if_pos rfl)

theorem chooseSchema_of_not_known {effective : Settings} {version : Option String}
    (h : ¬ VersionKnown effective version) (areas : Lookup) :
    ∃ asked, chooseSchema effective version areas = .error (.unsupportedVersion asked) := by
  simp only [VersionKnown, not_forall] at h
  obtain ⟨asked, hversion, hasked⟩ := h
  refine ⟨asked, ?_⟩
  rw [chooseSchema, Option.mem_def.1 hversion]
  exact (Schema.Registry.get_builtin _ _).trans (if_neg (Ne.symm hasked))

section Schemas

variable (world : World m) {effective : Settings} {version : Option String} {query : Value}

-- For a query that names areas, they are loaded.
theorem schemaFor_of_asksForAreas (h : asksForAreas query = true) :
    schemaFor world effective version query = (do
      let areas ← loadRegions world effective
      attempt .query (pure (chooseSchema effective version areas))) := by
  rw [schemaFor, if_pos h]

variable [LawfulMonad m]

-- For any other query nothing is loaded.
theorem schemaFor_of_not_asksForAreas (h : asksForAreas query = false) :
    schemaFor world effective version query =
      attempt .query (pure (chooseSchema effective version .empty)) := by
  rw [schemaFor, if_neg (Bool.not_eq_true _ ▸ h), pure_bind]

-- Whatever schema is chosen, it is the first one.
theorem attempt_choose_bind_congr {α : Type} {areas : Lookup}
    {f g : Schema → ExceptT Failure m α}
    (h : f (Schema.first ⟨areas, effective.fields⟩) = g (Schema.first ⟨areas, effective.fields⟩)) :
    (attempt .query (pure (chooseSchema effective version areas)) >>= f) =
      (attempt .query (pure (chooseSchema effective version areas)) >>= g) := by
  cases hchoice : chooseSchema effective version areas with
  | error error => rw [attempt_error, ExceptT.bind_throw, ExceptT.bind_throw]
  | ok schema =>
    have hfirst : schema = Schema.first ⟨areas, effective.fields⟩ := by
      have hmap := chooseSchema_eq_map effective version areas areas
      rw [hchoice] at hmap
      exact Except.ok.inj hmap
    subst hfirst
    rw [attempt_ok, pure_bind, pure_bind]
    exact h

theorem schemaFor_bind_congr {α : Type} {f g : Schema → ExceptT Failure m α}
    (h : ∀ areas, f (Schema.first ⟨areas, effective.fields⟩) =
      g (Schema.first ⟨areas, effective.fields⟩)) :
    (schemaFor world effective version query >>= f) =
      (schemaFor world effective version query >>= g) := by
  cases hasks : asksForAreas query with
  | true =>
    rw [schemaFor_of_asksForAreas world hasks, bind_assoc, bind_assoc]
    congr 1
    funext areas
    exact attempt_choose_bind_congr (h areas)
  | false =>
    rw [schemaFor_of_not_asksForAreas world hasks]
    exact attempt_choose_bind_congr (h .empty)

end Schemas

section Verdict

variable [LawfulMonad m]

/-- What is left of an outcome when its output is not looked at. -/
def Outcome.verdict (outcome : Outcome) : UInt8 × String := (outcome.exitCode, outcome.errors)

-- The verdict does not depend on the text a command ends with.
theorem Outcome.verdict_of_map {α : Type} (complaint : Path → Option String) (f g : α → String)
    (result : Except Failure α) :
    (Outcome.of complaint (result.map f)).verdict =
      (Outcome.of complaint (result.map g)).verdict := by
  cases result <;> rfl

theorem Outcome.exitCode_of_eq_zero_iff {complaint : Path → Option String}
    {result : Except Failure String} :
    (Outcome.of complaint result).exitCode = 0 ↔ ∃ text, result = .ok text := by
  cases result with
  | error failure =>
    have hcode : (1 : UInt8) ≠ 0 := by decide
    exact ⟨fun h => absurd h hcode, fun ⟨_, h⟩ => nomatch h⟩
  | ok text => exact ⟨fun _ => ⟨text, rfl⟩, fun _ => rfl⟩

theorem verdict_run (world : World m) (invocation : Invocation) :
    Outcome.verdict <$> run world invocation =
      (Outcome.verdict ∘ Outcome.of world.complaint) <$>
        ((fun _ => "") <$> output world invocation).run := by
  have hverdict : ∀ result : Except Failure String,
      Outcome.verdict (Outcome.of world.complaint (result.map fun _ => "")) =
        Outcome.verdict (Outcome.of world.complaint result) := by
    intro result
    cases result <;> rfl
  simp [run, Function.comp_def, hverdict]

theorem verdict_validate_eq_translate (world : World m) (settingsFile file : Option Path)
    (version : Option String) (layout : Layout) :
    Outcome.verdict <$> run world ⟨settingsFile, version, .validate file⟩ =
      Outcome.verdict <$> run world ⟨settingsFile, version, .translate file layout⟩ := by
  rw [verdict_run, verdict_run, output_validate, output_translate]
  simp only [map_bind, map_pure]
  -- The settings, the query and the schema are the same; so is what the last step fails with.
  congr 3
  funext ⟨effective, query⟩
  refine schemaFor_bind_congr world fun areas => ?_
  apply attempt_bind_eq
  change failure? (Schema.validateWith _ query) = failure? (Schema.compileWith _ query)
  rw [Schema.validateWith_eq_map_compileWith, failure?_map]

end Verdict

/-- Checking and compiling accept the same queries and fail alike, with the first fault of the
query. A command line that asks for checking asks for compiling once its command is replaced, and
the two end with the same exit code and the same errors. -/
theorem validate_agrees_with_compile :
    (∀ (compiler : Query.Compiler) (query : Value),
      ((Schema.first compiler).validate query = .ok () ↔
        ∃ clause, (Schema.first compiler).compile query = .ok clause) ∧
      ∀ error,
        ((Schema.first compiler).validate query = .error error ↔
          Schema.Fault compiler query error) ∧
        ((Schema.first compiler).compile query = .error error ↔
          Schema.Fault compiler query error)) ∧
    (∀ (arguments : List String) (settingsFile file : Option Path) (version : Option String),
      parse arguments = .ok ⟨settingsFile, version, .validate file⟩ →
        ∃ before after, arguments = before ++ Name.validate.text :: after ∧
          parse (before ++ Name.translate.text :: after) =
            .ok ⟨settingsFile, version, .translate file .wide⟩) ∧
    ∀ (m : Type → Type) [Monad m] [LawfulMonad m] (world : World m)
      (settingsFile file : Option Path) (version : Option String) (layout : Layout),
      Outcome.verdict <$> run world ⟨settingsFile, version, .validate file⟩ =
        Outcome.verdict <$> run world ⟨settingsFile, version, .translate file layout⟩ := by
  refine ⟨fun compiler query => ?_, fun _ _ _ _ h => parse_translate h,
    fun m _ _ world settingsFile file version layout =>
      verdict_validate_eq_translate world settingsFile file version layout⟩
  have hvalidate : (Schema.first compiler).validate query =
      (Schema.compileWith compiler query).map fun _ => () :=
    Schema.validateWith_eq_map_compileWith compiler query
  have herror : ∀ error, Schema.compileWith compiler query = .error error ↔
      Schema.Fault compiler query error := fun _ => Schema.compileWith_eq_error_iff
  have hcompile : (Schema.first compiler).compile query = Schema.compileWith compiler query := rfl
  rw [hvalidate, hcompile]
  cases hquery : Schema.compileWith compiler query with
  | error cause =>
    refine ⟨⟨fun h => (nomatch h), fun ⟨_, h⟩ => (nomatch h)⟩, fun error => ?_⟩
    rw [← herror, hquery, Except.map, Except.error.injEq, Except.error.injEq]
    exact ⟨Iff.rfl, Iff.rfl⟩
  | ok clause =>
    refine ⟨⟨fun _ => ⟨clause, rfl⟩, fun _ => rfl⟩, fun error => ?_⟩
    rw [← herror, hquery]
    exact ⟨⟨fun h => (nomatch h), fun h => (nomatch h)⟩, Iff.rfl⟩

/-- A query of three areas, of which the lagoon is the only one that is known. -/
def lostAreas : Value :=
  let area (name : String) : Value :=
    .object [("geo_named_area", .object [("marine", .string name)])]
  .object [("filters", .object [("and", .array
    [area "Lagoon", .object [("not", .array [area "Atlantis"])], area "Lemuria"])])]

/-- A machine without areas, where a query of Atlantis comes in. -/
def emptySea : World Id where
  files := ⟨fun _ => false, fun _ => .ok "\x7b\"features\":[]\x7d".toUTF8.toList⟩
  home := none
  workingDirectory := .ok ⟨"/"⟩
  standardInput :=
    .ok "\x7b\"filters\":\x7b\"geo_named_area\":\x7b\"marine\":\"Atlantis\"\x7d\x7d\x7d"

/-- Of two areas that are not known, the one that stands first is complained of. -/
theorem lostAreas_validated_as_compiled :
    (Schema.Fault Query.lagoonCompiler lostAreas (.unknownRegion "marine" "Atlantis") ∧
      (Schema.first Query.lagoonCompiler).validate lostAreas =
        .error (.unknownRegion "marine" "Atlantis") ∧
      (Schema.first Query.lagoonCompiler).compile lostAreas =
        .error (.unknownRegion "marine" "Atlantis")) ∧
    (parse ["--config", "validate", "validate", "-v"] =
        .ok ⟨some ⟨"validate"⟩, none, .validate none⟩ ∧
      ∃ before after,
        ["--config", "validate", "validate", "-v"] = before ++ Name.validate.text :: after ∧
        parse (before ++ Name.translate.text :: after) =
          .ok ⟨some ⟨"validate"⟩, none, .translate none .wide⟩) ∧
    Outcome.verdict (Id.run (run emptySea ⟨none, none, .validate none⟩)) =
        (1, "error: unknown region 'Atlantis' in category 'marine'\n") ∧
      Outcome.verdict (Id.run (run emptySea ⟨none, none, .validate none⟩)) =
        Outcome.verdict (Id.run (run emptySea ⟨none, none, .translate none .outline⟩)) := by
  have hfault : Schema.Fault Query.lagoonCompiler lostAreas
      (.unknownRegion "marine" "Atlantis") := by
    have hknown : ∀ other ∈ [NamedArea.mk "marine" "Lagoon"],
        Query.lagoonCompiler.Knows other := by
      rw [List.forall_mem_singleton]
      exact ⟨_, rfl⟩
    have hunknown : ¬ Query.lagoonCompiler.Knows ⟨"marine", "Atlantis"⟩ := by
      rintro ⟨_, h⟩
      exact nomatch h
    have hareas : Document.namedAreas ⟨none, some (.group .all
        [.term (.namedArea ⟨"marine", "Lagoon"⟩),
          .group .none [.term (.namedArea ⟨"marine", "Atlantis"⟩)],
          .term (.namedArea ⟨"marine", "Lemuria"⟩)])⟩ =
        [⟨"marine", "Lagoon"⟩] ++ ⟨"marine", "Atlantis"⟩ :: [⟨"marine", "Lemuria"⟩] := rfl
    exact .unknown rfl hareas hknown hunknown
  have hparse : parse ["--config", "validate", "validate", "-v"] =
      .ok ⟨some ⟨"validate"⟩, none, .validate none⟩ := rfl
  obtain ⟨_, herrors⟩ := validate_agrees_with_compile.1 Query.lagoonCompiler lostAreas
  obtain ⟨hvalidate, hcompile⟩ := herrors (.unknownRegion "marine" "Atlantis")
  exact ⟨⟨hfault, hvalidate.2 hfault, hcompile.2 hfault⟩,
    ⟨hparse, validate_agrees_with_compile.2.1 _ _ _ _ hparse⟩, by decide +kernel,
    validate_agrees_with_compile.2.2 Id emptySea none none none .outline⟩

end RecordQuery.Command
