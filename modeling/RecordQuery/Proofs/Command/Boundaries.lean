import RecordQuery.Proofs.Command.Answer
import RecordQuery.Proofs.Settings.Discovery

/-!
# What a query needs of boundaries

Boundaries are loaded only for queries that ask for named areas. Main statement: of the areas at
hand only those that a query names have a say in what becomes of it, so that boundary files have
none where a query names no area.
-/

namespace RecordQuery

/-- What a schema says about one query. -/
structure Schema.Answers where
  version : String
  validated : Except Query.Error Unit
  compiled : Except Query.Error Clause
  cacheKey : Except Query.Error String

def Schema.answers (schema : Schema) (query : Json.Value) : Schema.Answers :=
  ⟨schema.version, schema.validate query, schema.compile query, schema.cacheKey query⟩

namespace Command

open Json (Value)
open Query (AgreeOn Compiler Document)
open Region (Lookup)

theorem namedAreas_eq_nil_of_not_asksForAreas {query : Value} (h : asksForAreas query = false)
    {document : Document} (hread : Document.ofValue query = .ok document) :
    document.namedAreas = [] := by
  rw [asksForAreas, hread] at h
  exact List.isEmpty_iff.1 (Bool.not_eq_eq_eq_not.1 h)

-- For a query that names no area, all areas are as good as none.
theorem answers_first_congr {query : Value} (h : asksForAreas query = false)
    (lookup other : Lookup) (names : FieldNames) :
    (Schema.first ⟨lookup, names⟩).answers query = (Schema.first ⟨other, names⟩).answers query := by
  have hagree : ∀ document, Document.ofValue query = .ok document →
      AgreeOn document.namedAreas lookup other := by
    intro document hread
    rw [namedAreas_eq_nil_of_not_asksForAreas h hread]
    exact fun area harea => absurd harea List.not_mem_nil
  have hvalidate : (Schema.first ⟨lookup, names⟩).validate query =
      (Schema.first ⟨other, names⟩).validate query := Schema.validateWith_congr hagree
  have hcompile : (Schema.first ⟨lookup, names⟩).compile query =
      (Schema.first ⟨other, names⟩).compile query := Schema.compileWith_congr hagree
  rw [Schema.answers, Schema.answers, hvalidate, hcompile]
  rfl

section Steps

variable {m : Type → Type} [Monad m] [LawfulMonad m]

theorem attempt_map {ε α β : Type} (meaning : ε → Failure) (f : α → β) (x : Except ε α) :
    f <$> attempt meaning (pure x : m (Except ε α)) = attempt meaning (pure (x.map f)) := by
  cases x with
  | error e =>
    rw [Except.map, attempt_error, attempt_error, ← bind_pure_comp, ExceptT.bind_throw]
  | ok a => rw [Except.map, attempt_ok, attempt_ok, map_pure]

/-- The schema for a query without areas answers as over any areas that may have been loaded. -/
theorem answers_schemaFor (world : World m) (effective : Settings) (version : Option String)
    {query : Value} (h : asksForAreas query = false) (lookup : Lookup) :
    (fun schema => schema.answers query) <$> schemaFor world effective version query =
      (fun schema => schema.answers query) <$>
        attempt .query (pure (chooseSchema effective version lookup)) := by
  -- Which schema is chosen depends on the version; over which areas it is does not matter.
  have hanswers : (chooseSchema effective version .empty).map (·.answers query) =
      (chooseSchema effective version lookup).map (·.answers query) := by
    rw [chooseSchema_eq_map effective version .empty lookup]
    conv_rhs => rw [chooseSchema_eq_map effective version lookup lookup]
    cases chooseSchema effective version lookup with
    | error error => rfl
    | ok schema => exact congrArg Except.ok (answers_first_congr h .empty lookup effective.fields)
  rw [schemaFor_of_not_asksForAreas world h, attempt_map, attempt_map, hanswers]

end Steps

/-! ## Two machines -/

/-- What a command looks into before it needs a schema: the query file, and the settings files or
the places where they are looked for. -/
inductive Consulted (world : World Id) (settingsFile file : Option Path) : Path → Prop
  | query {path : Path} : file = some path → Consulted world settingsFile file path
  | chosen {path : Path} : settingsFile = some path → Consulted world settingsFile file path
  | candidate {directory path : Path} : settingsFile = none →
      Id.run world.workingDirectory = .ok directory →
      Settings.Candidate world.home directory path → Consulted world settingsFile file path

/-- The machines are the same but for the files at other paths and what is said of those. -/
structure World.AgreesOn (paths : Path → Prop) (world other : World Id) : Prop where
  home : world.home = other.home
  workingDirectory : world.workingDirectory = other.workingDirectory
  standardInput : world.standardInput = other.standardInput
  files : ∀ path, paths path → world.files.SameAt other.files path
  complaint : ∀ path, paths path → world.complaint path = other.complaint path

section Machines

variable {world other : World Id} {settingsFile file : Option Path}

theorem run_attempt {ε α : Type} {meaning : ε → Failure} {action : Id (Except ε α)} {a : α} :
    Id.run (attempt meaning action).run = .ok a ↔ Id.run action = .ok a := by
  have hrun : Id.run (attempt meaning action).run = (Id.run action).mapError meaning := rfl
  rw [hrun]
  cases Id.run action with
  | error e => exact ⟨fun h => (nomatch h), fun h => (nomatch h)⟩
  | ok b => rw [Except.mapError, Except.ok.injEq, Except.ok.injEq]

theorem run_attempt_eq_error_iff {ε α : Type} {meaning : ε → Failure} {action : Id (Except ε α)}
    {failure : Failure} :
    Id.run (attempt meaning action).run = .error failure ↔
      ∃ e, Id.run action = .error e ∧ meaning e = failure := by
  have hrun : Id.run (attempt meaning action).run = (Id.run action).mapError meaning := rfl
  rw [hrun]
  cases Id.run action with
  | error e => simp [Except.mapError]
  | ok a => simp [Except.mapError]

theorem settingsFiles_consulted {paths : List Path}
    (h : Id.run (settingsFiles world settingsFile).run = .ok paths) :
    ∀ path ∈ paths, Consulted world settingsFile file path := by
  cases settingsFile with
  | some chosen =>
    obtain rfl := Except.ok.inj h
    exact List.forall_mem_singleton.2 (.chosen rfl)
  | none =>
    obtain ⟨directory, hdirectory, hfound⟩ := run_bind_eq_ok_iff.1 h
    obtain rfl := Except.ok.inj hfound
    intro path hpath
    exact .candidate rfl (run_attempt.1 hdirectory) (Settings.candidate_of_mem_discover hpath)

variable (h : World.AgreesOn (Consulted world settingsFile file) world other)
include h

theorem settingsFiles_congr :
    settingsFiles world settingsFile = settingsFiles other settingsFile := by
  cases settingsFile with
  | some path => rfl
  | none =>
    rw [settingsFiles, settingsFiles, ← h.workingDirectory, ← h.home]
    refine bind_congr_of_run fun directory hdirectory => ?_
    have hcandidates : ∀ path, Settings.Candidate world.home directory path →
        world.files.SameAt other.files path := fun path hpath =>
      h.files path (.candidate rfl (run_attempt.1 hdirectory) hpath)
    rw [Settings.discover_congr hcandidates]

theorem readQuery_congr : readQuery world file = readQuery other file := by
  cases file with
  | none => rw [readQuery, readQuery, h.standardInput]
  | some path => rw [readQuery, readQuery, (h.files path (.query rfl)).readText]

theorem prepare_congr : prepare world settingsFile file = prepare other settingsFile file := by
  rw [prepare, prepare, ← settingsFiles_congr h, ← readQuery_congr h]
  refine bind_congr_of_run fun paths hpaths => ?_
  -- The files to load are among those that were looked for.
  have hload : loadSettings world paths = loadSettings other paths := by
    rw [loadSettings, loadSettings, ← h.home, Settings.loadFrom_congr fun path hpath =>
      h.files path (settingsFiles_consulted hpaths path hpath)]
  rw [hload]

end Machines

/-! ## Files that are refused -/

section Refusals

variable {world : World Id} {settingsFile file : Option Path} {path : Path} {α β : Type}

/-- The computation does not end because the file at the path is refused. -/
def Tolerates (path : Path) (x : ExceptT Failure Id α) : Prop :=
  Id.run x.run ≠ .error (.settings (.malformed path))

theorem Tolerates.bind {x : ExceptT Failure Id α} {f : α → ExceptT Failure Id β}
    (hx : Tolerates path x) (hf : ∀ a, Tolerates path (f a)) : Tolerates path (x >>= f) := by
  intro h
  rcases run_bind_eq_error_iff.1 h with h | ⟨a, _, h⟩
  · exact hx h
  · exact hf a h

theorem tolerates_pure (a : α) : Tolerates path (pure a) := nofun

theorem tolerates_attempt {ε : Type} {meaning : ε → Failure}
    {action : Id (Except ε α)} (h : ∀ e, meaning e ≠ .settings (.malformed path)) :
    Tolerates path (attempt meaning action) := by
  intro heq
  obtain ⟨e, _, he⟩ := run_attempt_eq_error_iff.1 heq
  exact h e he

theorem tolerates_settingsFiles : Tolerates path (settingsFiles world settingsFile) := by
  cases settingsFile with
  | some chosen => exact tolerates_pure [chosen]
  | none => exact (tolerates_attempt (by simp)).bind fun _ => nofun

theorem tolerates_readQuery : Tolerates path (readQuery world file) := by
  cases file with
  | some chosen =>
    exact (tolerates_attempt (by simp)).bind fun _ => tolerates_attempt (by simp)
  | none =>
    exact (tolerates_attempt (by simp)).bind fun _ => tolerates_attempt (by simp)

theorem tolerates_schemaFor (effective : Settings) (version : Option String) (query : Value) :
    Tolerates path (schemaFor world effective version query) := by
  cases hasks : asksForAreas query with
  | true =>
    rw [schemaFor_of_asksForAreas world hasks]
    exact (tolerates_attempt (by simp)).bind fun _ => tolerates_attempt (by simp)
  | false =>
    rw [schemaFor_of_not_asksForAreas world hasks]
    exact tolerates_attempt (by simp)

-- Only settings files are refused, and those were looked into.
theorem consulted_of_prepare_malformed
    (h : Id.run (prepare world settingsFile file).run = .error (.settings (.malformed path))) :
    Consulted world settingsFile file path := by
  rcases run_bind_eq_error_iff.1 h with h | ⟨paths, hpaths, h⟩
  · exact absurd h tolerates_settingsFiles
  · rcases run_bind_eq_error_iff.1 h with h | ⟨effective, _, h⟩
    · obtain ⟨error, herror, hmeaning⟩ := run_attempt_eq_error_iff.1 h
      obtain rfl := Failure.settings.inj hmeaning
      exact settingsFiles_consulted hpaths path (Settings.mem_of_loadFrom_malformed herror)
    · exact absurd h (tolerates_readQuery.bind fun query => tolerates_pure (effective, query))

end Refusals

/-! ## Commands that judge a query -/

theorem readQuery_of_prepare {world : World Id} {settingsFile file : Option Path}
    {effective : Settings} {query : Value}
    (h : Id.run (prepare world settingsFile file).run = .ok (effective, query)) :
    Id.run (readQuery world file).run = .ok query := by
  obtain ⟨_, _, h⟩ := run_bind_eq_ok_iff.1 h
  obtain ⟨_, _, h⟩ := run_bind_eq_ok_iff.1 h
  obtain ⟨read, hread, h⟩ := run_bind_eq_ok_iff.1 h
  obtain ⟨_, rfl⟩ := Prod.mk.inj (Except.ok.inj h)
  exact hread

/-- A command that compiles or checks the query in a file or in the standard input. -/
inductive Judges (file : Option Path) : Command → Prop
  | translate (layout : Layout) : Judges file (.translate file layout)
  | validate : Judges file (.validate file)

theorem consulted_of_output_malformed {world : World Id} {settingsFile file : Option Path}
    {version : Option String} {command : Command} {path : Path} (hcommand : Judges file command)
    (h : Id.run (output world ⟨settingsFile, version, command⟩).run =
      .error (.settings (.malformed path))) : Consulted world settingsFile file path := by
  cases hcommand with
  | translate layout =>
    rw [output_translate] at h
    rcases run_bind_eq_error_iff.1 h with h | ⟨⟨effective, query⟩, _, h⟩
    · exact consulted_of_prepare_malformed h
    · exact absurd h ((tolerates_schemaFor effective version query).bind fun _ =>
        (tolerates_attempt (by simp)).bind fun _ => tolerates_pure _)
  | validate =>
    rw [output_validate] at h
    rcases run_bind_eq_error_iff.1 h with h | ⟨⟨effective, query⟩, _, h⟩
    · exact consulted_of_prepare_malformed h
    · exact absurd h ((tolerates_schemaFor effective version query).bind fun _ =>
        (tolerates_attempt (by simp)).bind fun _ => tolerates_pure _)

theorem Outcome.of_congr {complaint other : Path → Option String} {result : Except Failure String}
    (h : ∀ path, result = .error (.settings (.malformed path)) → complaint path = other path) :
    Outcome.of complaint result = Outcome.of other result := by
  cases result with
  | ok text => rfl
  | error failure =>
    have hmessage : failure.message complaint = failure.message other :=
      Failure.message_congr fun path hpath => h path (congrArg Except.error hpath)
    change Outcome.mk 1 "" s!"error: {failure.message complaint}\n" =
      ⟨1, "", s!"error: {failure.message other}\n"⟩
    rw [hmessage]

theorem run_congr {world other : World Id} {settingsFile file : Option Path}
    {version : Option String} {command : Command} (hcommand : Judges file command)
    (h : World.AgreesOn (Consulted world settingsFile file) world other)
    (hquery : ∀ query, Id.run (readQuery world file).run = .ok query →
      asksForAreas query = false) :
    run world ⟨settingsFile, version, command⟩ = run other ⟨settingsFile, version, command⟩ := by
  have hschema : ∀ effective query,
      Id.run (prepare world settingsFile file).run = .ok (effective, query) →
      schemaFor world effective version query = schemaFor other effective version query := by
    intro effective query hprepare
    have hasks := hquery query (readQuery_of_prepare hprepare)
    rw [schemaFor_of_not_asksForAreas world hasks, schemaFor_of_not_asksForAreas other hasks]
  have houtput : output world ⟨settingsFile, version, command⟩ =
      output other ⟨settingsFile, version, command⟩ := by
    cases hcommand with
    | translate layout =>
      rw [output_translate, output_translate, ← prepare_congr h]
      refine bind_congr_of_run fun ⟨effective, query⟩ hprepare => ?_
      simp only [hschema effective query hprepare]
    | validate =>
      rw [output_validate, output_validate, ← prepare_congr h]
      refine bind_congr_of_run fun ⟨effective, query⟩ hprepare => ?_
      simp only [hschema effective query hprepare]
  rw [run, run, ← houtput]
  -- The machines may differ in what they say of other files, but of those nothing is said.
  apply Outcome.of_congr
  exact fun path hpath => h.complaint path (consulted_of_output_malformed hcommand hpath)

/-- Areas that a query does not name have no say in what becomes of it. A query that names none is
answered as over any areas although none are loaded, and a command that compiles or checks it
ends alike on machines that are the same but for files which are not looked into before. -/
theorem boundaries_matter_by_name :
    (∀ (lookup other : Lookup) (names : FieldNames) (query : Value),
      (∀ document, Document.ofValue query = .ok document →
        AgreeOn document.namedAreas lookup other) →
      (Schema.first ⟨lookup, names⟩).validate query =
          (Schema.first ⟨other, names⟩).validate query ∧
        (Schema.first ⟨lookup, names⟩).compile query =
          (Schema.first ⟨other, names⟩).compile query) ∧
    (∀ (m : Type → Type) [Monad m] [LawfulMonad m] (world : World m) (effective : Settings)
      (version : Option String) (query : Value), asksForAreas query = false →
      ∀ lookup : Lookup,
        (fun schema => schema.answers query) <$> schemaFor world effective version query =
          (fun schema => schema.answers query) <$>
            attempt .query (pure (chooseSchema effective version lookup))) ∧
    ∀ (world other : World Id) (settingsFile file : Option Path) (version : Option String)
      (command : Command), Judges file command →
      World.AgreesOn (Consulted world settingsFile file) world other →
      (∀ query, Id.run (readQuery world file).run = .ok query → asksForAreas query = false) →
      run world ⟨settingsFile, version, command⟩ = run other ⟨settingsFile, version, command⟩ :=
  ⟨fun _ _ _ _ h => ⟨Schema.validateWith_congr h, Schema.compileWith_congr h⟩,
    fun _ _ _ world effective version _ h lookup =>
      answers_schemaFor world effective version h lookup,
    fun _ _ _ _ _ _ hcommand h hquery => run_congr hcommand h hquery⟩

/-- A machine with settings that say nothing, where a search for ferns comes in. What is read at
other paths is left open. -/
def fernMachine (elsewhere : Path → Except ReadFault (List UInt8)) : World Id where
  files := ⟨fun _ => false, fun path => if path = ⟨"vds.toml"⟩ then .ok [] else elsewhere path⟩
  home := none
  workingDirectory := .ok ⟨"/"⟩
  standardInput := .ok "\x7b\"search\":\"fern\"\x7d"

/-- Seas are looked up among seas, whatever countries there are. For a search for ferns, boundary
files that are no JSON do no more harm than files that are not there. -/
theorem fernMachine_boundaries_matter_by_name :
    let seas := Query.lagoonCompiler.lookup
    let more := seas.insert .country (Region.RegionSet.empty.add "Lagoon" [])
    let fern : Value := .object [("search", .string "fern")]
    let corrupt := fernMachine fun _ => .ok [0]
    let missing := fernMachine fun _ => .error (.opening "gone")
    let file : Option Path := some ⟨"vds.toml"⟩
    (seas.get? "country" "Lagoon" ≠ more.get? "country" "Lagoon" ∧
      (∀ document, Document.ofValue lostAreas = .ok document →
        AgreeOn document.namedAreas seas more) ∧
      (Schema.first ⟨seas, .standard⟩).compile lostAreas =
        (Schema.first ⟨more, .standard⟩).compile lostAreas) ∧
    (asksForAreas fern = false ∧
      (fun schema => schema.answers fern) <$> schemaFor corrupt .standard none fern =
        (fun schema => schema.answers fern) <$>
          attempt .query (pure (chooseSchema .standard none seas))) ∧
    (Id.run (loadRegions corrupt .standard).run).toOption.isNone = true ∧
      World.AgreesOn (Consulted corrupt file none) corrupt missing ∧
      (∀ query, Id.run (readQuery corrupt none).run = .ok query → asksForAreas query = false) ∧
      run corrupt ⟨file, none, .validate none⟩ = run missing ⟨file, none, .validate none⟩ ∧
      Id.run (run corrupt ⟨file, none, .validate none⟩) = ⟨0, "ok (v1.0.0)\n", ""⟩ := by
  intro seas more fern corrupt missing file
  have hseas : ∀ document, Document.ofValue lostAreas = .ok document →
      AgreeOn document.namedAreas seas more := by
    intro document hread
    obtain rfl := Except.ok.inj hread
    -- Each of the three areas is a sea.
    exact List.forall_mem_cons.2 ⟨rfl, List.forall_mem_cons.2 ⟨rfl,
      List.forall_mem_singleton.2 rfl⟩⟩
  have hagrees : World.AgreesOn (Consulted corrupt file none) corrupt missing := by
    refine ⟨rfl, rfl, rfl, fun path hpath => ?_, fun _ _ => rfl⟩
    cases hpath with
    | query h => exact nomatch h
    | chosen h =>
      obtain rfl := Option.some.inj h
      exact ⟨rfl, rfl⟩
    | candidate h => exact nomatch h
  have hasks : (match Id.run (readQuery corrupt none).run with
      | .ok query => asksForAreas query
      | .error _ => false) = false := by
    decide +kernel
  have hquery : ∀ query, Id.run (readQuery corrupt none).run = .ok query →
      asksForAreas query = false := by
    intro query h
    rw [h] at hasks
    exact hasks
  refine ⟨⟨by decide, hseas, (boundaries_matter_by_name.1 seas more .standard lostAreas hseas).2⟩,
    ⟨rfl, boundaries_matter_by_name.2.1 Id corrupt .standard none fern rfl seas⟩, ?_⟩
  exact ⟨by decide +kernel, hagrees, hquery,
    boundaries_matter_by_name.2.2 corrupt missing file none none (.validate none) .validate hagrees
      hquery, by decide +kernel⟩

end Command

end RecordQuery
