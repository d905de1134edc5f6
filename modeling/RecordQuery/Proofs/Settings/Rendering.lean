import RecordQuery.Proofs.Toml.Document
import RecordQuery.Settings.Layer
import RecordQuery.Settings.Rendering

/-!
# Reading rendered settings

Main statement: the text of settings is read as a settings file that defines every key, and says of
each what is in effect.
-/

namespace RecordQuery.Settings

open Region (Category)
open Toml (Value)
open Toml.Table (foldlM_tableStatements leads_nil)

/-! ## Sources -/

/-- The source of a category. -/
def sourceOf (settings : Settings) (category : Category) : Region.Source :=
  settings.overridden
    ⟨category, settings.directory.join ⟨category.defaultFile⟩, category.defaultNameKeys⟩

theorem sources_eq_map_sourceOf (settings : Settings) :
    settings.sources = Category.all.map settings.sourceOf := by
  rw [sources, Region.Source.defaultsIn, List.map_map]
  rfl

theorem category_sourceOf (settings : Settings) (category : Category) :
    (settings.sourceOf category).category = category := by
  unfold sourceOf overridden
  split <;> rfl

-- Each category is found among the sources of all.
theorem filterMap_find?_sources (settings : Settings) :
    (categoriesByName.filterMap fun category =>
      settings.sources.find? (·.category == category)) =
      categoriesByName.map settings.sourceOf := by
  have hfind : ∀ category, settings.sources.find? (·.category == category) =
      some (settings.sourceOf category) := by
    intro category
    rw [sources_eq_map_sourceOf, List.find?_map]
    have hsame : ((fun source : Region.Source => source.category == category) ∘
        settings.sourceOf) = (· == category) := by
      funext other
      rw [Function.comp_apply, category_sourceOf]
    rw [hsame]
    cases category <;> rfl
  simp only [hfind, List.filterMap_eq_map']

/-! ## What is written -/

-- The entry of the default version, if there is one.
def versionEntries (settings : Settings) : List (String × Value) :=
  (settings.defaultVersion.map fun version => ("default_version", .string version)).toList

def fieldEntries (fields : FieldNames) : List (String × Value) :=
  [("prefix", .string fields.base), ("all_text", .string fields.allText),
    ("geo", .string fields.geo)]

def sourceEntries (source : Region.Source) : List (String × Value) :=
  [("file", .string source.path.text), ("name_keys", .array (source.nameKeys.map .string))]

/-- The statements that settings are written as, table by table. -/
def statementsOf (settings : Settings) : List (List Toml.Statement) :=
  [Toml.tableStatements [] "schema" settings.versionEntries,
    Toml.tableStatements [] "fields" (fieldEntries settings.fields),
    Toml.tableStatements [] "regions" [("dir", .string settings.directory.text)]] ++
    categoriesByName.map fun category =>
      Toml.tableStatements ["regions"] category.name (sourceEntries (settings.sourceOf category))

theorem shows_string {key : String} (hkey : Toml.Bare key.toList) (text : String) :
    Toml.Shows (key, Toml.quote text) (key, .string text) :=
  ⟨rfl, hkey, Toml.means_quote text⟩

theorem shows_list {key : String} (hkey : Toml.Bare key.toList) (texts : List String) :
    Toml.Shows (key, Toml.quoteList texts) (key, .array (texts.map .string)) :=
  ⟨rfl, hkey, Toml.means_quoteList texts⟩

theorem spells_sourceTable (settings : Settings) (category : Category) :
    Toml.Spells (sourceTable (settings.sourceOf category)).toList
      (Toml.tableStatements ["regions"] category.name
        (sourceEntries (settings.sourceOf category))) := by
  rw [sourceTable, category_sourceOf]
  apply Toml.spells_tableText
  · cases category <;> decide
  · decide
  · cases category <;> decide
  · decide
  · exact .cons (shows_string (by decide) _)
      (.cons (shows_list (by decide) _) .nil)

theorem spells_render (settings : Settings) :
    Toml.Spells settings.render.toList settings.statementsOf.flatten := by
  have hversion : List.Forall₂ Toml.Shows
      (settings.defaultVersion.map fun v => ("default_version", Toml.quote v)).toList
      settings.versionEntries := by
    unfold versionEntries
    cases settings.defaultVersion with
    | none => exact .nil
    | some version => exact .cons (shows_string (by decide) version) .nil
  unfold render
  rw [String.toList_intercalate, filterMap_find?_sources]
  apply Toml.spells_intercalate
  refine .cons ?_ (.cons ?_ (.cons ?_ (.cons ?_ (.cons ?_ (.cons ?_ .nil)))))
  · exact Toml.spells_tableText (by decide) (by decide) (by decide) (by decide) hversion
  · exact Toml.spells_tableText (by decide) (by decide) (by decide) (by decide)
      (.cons (shows_string (by decide) _) (.cons (shows_string (by decide) _)
        (.cons (shows_string (by decide) _) .nil)))
  · exact Toml.spells_tableText (by decide) (by decide) (by decide) (by decide)
      (.cons (shows_string (by decide) _) .nil)
  · exact spells_sourceTable settings .country
  · exact spells_sourceTable settings .geography
  · exact spells_sourceTable settings .marine

/-! ## What is read -/

/-- The table for regions of the text of settings. -/
def regionEntries (settings : Settings) : List (String × Value) :=
  [("country", .table (Entries.ofList (sourceEntries (settings.sourceOf .country)))),
    ("dir", .string settings.directory.text),
    ("geography", .table (Entries.ofList (sourceEntries (settings.sourceOf .geography)))),
    ("marine", .table (Entries.ofList (sourceEntries (settings.sourceOf .marine))))]

/-- The table of the text of settings. -/
def rendered (settings : Settings) : List (String × Value) :=
  [("fields", .table (Entries.ofList (fieldEntries settings.fields))),
    ("regions", .table settings.regionEntries),
    ("schema", .table (Entries.ofList settings.versionEntries))]

theorem nodup_versionEntries (settings : Settings) :
    (settings.versionEntries.map (·.1)).Nodup := by
  unfold versionEntries
  cases settings.defaultVersion with
  | none => exact List.nodup_nil
  | some version => exact List.pairwise_singleton _ _

theorem nodup_fieldEntries (fields : FieldNames) : ((fieldEntries fields).map (·.1)).Nodup := by
  show ["prefix", "all_text", "geo"].Nodup
  decide

theorem nodup_sourceEntries (source : Region.Source) :
    ((sourceEntries source).map (·.1)).Nodup := by
  show ["file", "name_keys"].Nodup
  decide

-- The tables go in one by one, those of categories into the one of regions.
theorem ofStatements_statementsOf (settings : Settings) :
    Toml.Table.ofStatements settings.statementsOf.flatten = some settings.rendered := by
  have hsplit : settings.statementsOf.flatten =
      Toml.tableStatements [] "schema" settings.versionEntries ++
      (Toml.tableStatements [] "fields" (fieldEntries settings.fields) ++
      (Toml.tableStatements [] "regions" [("dir", .string settings.directory.text)] ++
      (Toml.tableStatements ["regions"] "country" (sourceEntries (settings.sourceOf .country)) ++
      (Toml.tableStatements ["regions"] "geography"
        (sourceEntries (settings.sourceOf .geography)) ++
      (Toml.tableStatements ["regions"] "marine" (sourceEntries (settings.sourceOf .marine)) ++
        []))))) := rfl
  -- The document with certain entries in its table for regions.
  let fill (inner : List (String × Toml.Node)) : List (String × Toml.Node) :=
    Entries.insert "regions" (.table .header inner)
      (Entries.insert "fields" (.table .header (Toml.Table.nodes (fieldEntries settings.fields)))
        (Entries.insert "schema" (.table .header (Toml.Table.nodes settings.versionEntries)) []))
  have hfill : Toml.Table.Leads ["regions"] fill := leads_nil.below "regions" _
  have hfold : settings.statementsOf.flatten.foldlM Toml.Table.Progress.add ⟨[], []⟩ =
      some ⟨fill (Entries.insert "marine" (.table .header
        (Toml.Table.nodes (sourceEntries (settings.sourceOf .marine))))
        (Entries.insert "geography" (.table .header
          (Toml.Table.nodes (sourceEntries (settings.sourceOf .geography))))
          (Entries.insert "country" (.table .header
            (Toml.Table.nodes (sourceEntries (settings.sourceOf .country))))
            (Toml.Table.nodes [("dir", .string settings.directory.text)])))),
        ["regions", "marine"]⟩ := by
    rw [hsplit]
    refine (foldlM_tableStatements leads_nil rfl settings.nodup_versionEntries _ _).trans ?_
    refine (foldlM_tableStatements leads_nil ?_ (nodup_fieldEntries _) _ _).trans ?_
    · simp [Entries.find?_insert, Entries.find?]
    refine (foldlM_tableStatements leads_nil ?_ (by simp) _ _).trans ?_
    · simp [Entries.find?_insert, Entries.find?]
    refine (foldlM_tableStatements hfill ?_ (nodup_sourceEntries _) _ _).trans ?_
    · simp [Entries.find?_insert, Entries.find?, Toml.Table.nodes, Entries.ofList]
    refine (foldlM_tableStatements hfill ?_ (nodup_sourceEntries _) _ _).trans ?_
    · simp [Entries.find?_insert, Entries.find?, Toml.Table.nodes, Entries.ofList]
    refine (foldlM_tableStatements hfill ?_ (nodup_sourceEntries _) _ _).trans ?_
    · simp [Entries.find?_insert, Entries.find?, Toml.Table.nodes, Entries.ofList]
    rfl
  rw [Toml.Table.ofStatements, hfold]
  show some (Toml.Node.toEntries (fill _)) = _
  simp only [fill, Toml.Node.toEntries_insert, Toml.Node.toValue, Toml.Node.toEntries_nodes,
    Toml.Node.toEntries, rendered, regionEntries]
  simp (disch := decide) only [Entries.ofList, List.foldl_cons, List.foldl_nil,
    Entries.insert_nil, Entries.insert_cons_of_lt, Entries.insert_cons_of_gt]

/-- What the text of settings says of a category. -/
def categoryEntry (settings : Settings) (category : Category) : String × BoundariesLayer :=
  (category.name, ⟨some (settings.sourceOf category).path.text,
    some (settings.sourceOf category).nameKeys⟩)

/-- The file that settings are written as: it says everything that is in effect. -/
def layerOf (settings : Settings) : Layer where
  root := none
  schema := some settings.defaultVersion
  fields := some ⟨some settings.fields.base, some settings.fields.allText, some settings.fields.geo⟩
  regions := some
    { directory := some settings.directory.text
      categories := .ofList (categoriesByName.map settings.categoryEntry) }

section Sections

variable (settings : Settings)

theorem schemaLayer?_versionEntries :
    schemaLayer? (.table (Entries.ofList settings.versionEntries)) =
      some settings.defaultVersion := by
  unfold versionEntries
  cases settings.defaultVersion with
  | none => rfl
  | some version =>
    simp [schemaLayer?, entryText?, text?, skips, Entries.ofList, Entries.insert_nil,
      Entries.find?]

theorem fieldsLayer?_fieldEntries (fields : FieldNames) :
    fieldsLayer? (.table (Entries.ofList (fieldEntries fields))) =
      some ⟨some fields.base, some fields.allText, some fields.geo⟩ := by
  have htable : Entries.ofList (fieldEntries fields) =
      [("all_text", .string fields.allText), ("geo", .string fields.geo),
        ("prefix", .string fields.base)] := by
    simp (disch := decide) only [fieldEntries, Entries.ofList, List.foldl_cons, List.foldl_nil,
      Entries.insert_nil, Entries.insert_cons_of_lt, Entries.insert_cons_of_gt]
  simp [htable, fieldsLayer?, entryText?, text?, skips, Entries.find?]

theorem holdsItems_strings (least greatest : Int) (texts : List String) :
    Value.holdsItems least greatest (texts.map .string) = true := by
  induction texts with
  | nil => rfl
  | cons text texts ih => exact ih

theorem mapM_text?_strings (texts : List String) :
    (texts.map Value.string).mapM text? = some texts := by
  induction texts with
  | nil => rfl
  | cons text texts ih =>
    rw [List.map_cons, List.mapM_cons, ih]
    rfl

theorem boundariesLayer?_sourceEntries (source : Region.Source) :
    boundariesLayer? (.table (Entries.ofList (sourceEntries source))) =
      some ⟨some source.path.text, some source.nameKeys⟩ := by
  have htable : Entries.ofList (sourceEntries source) = sourceEntries source := by
    simp (disch := decide) only [sourceEntries, Entries.ofList, List.foldl_cons, List.foldl_nil,
      Entries.insert_nil, Entries.insert_cons_of_gt]
  have hnarrow : (Value.table (sourceEntries source)).isNarrow = true := by
    simp [Value.isNarrow, sourceEntries, Value.holds, Value.holdsEntries, holdsItems_strings]
  have hfile : entryText? (sourceEntries source) "file" = some (some source.path.text) := by
    simp [entryText?, sourceEntries, Entries.find?, text?]
  have hnameKeys : Entries.find? "name_keys" (sourceEntries source) =
      some (.array (source.nameKeys.map .string)) := by
    simp [sourceEntries, Entries.find?]
  have hnames : nameKeys? (.array (source.nameKeys.map .string)) = some source.nameKeys :=
    mapM_text?_strings source.nameKeys
  rw [htable, boundariesLayer?, hnarrow]
  simp only [Bool.not_true, Bool.false_eq_true, if_false, hfile, hnameKeys, hnames,
    Option.bind_eq_bind, Option.bind_some]
  rfl

theorem regionsLayer?_regionEntries :
    regionsLayer? (.table settings.regionEntries) = settings.layerOf.regions := by
  have hdirectory : entryText? settings.regionEntries "dir" =
      some (some settings.directory.text) := by
    simp [entryText?, regionEntries, Entries.find?, text?]
  have hcategories : settings.regionEntries.filter (·.1 != "dir") =
      categoriesByName.map fun category => (category.name,
        .table (Entries.ofList (sourceEntries (settings.sourceOf category)))) := by
    simp [regionEntries, categoriesByName, Category.name]
  rw [regionsLayer?, hdirectory, hcategories]
  simp only [List.mapM_map, Function.comp_def, boundariesLayer?_sourceEntries,
    Option.bind_eq_bind, Option.bind_some]
  rfl

theorem ofTable?_rendered : Layer.ofTable? settings.rendered = some settings.layerOf := by
  have hroot : section? flag? settings.rendered "root" = some none := by
    simp [section?, rendered, Entries.find?]
  have hschema : section? schemaLayer? settings.rendered "schema" =
      some (some settings.defaultVersion) := by
    simp [section?, rendered, Entries.find?, schemaLayer?_versionEntries]
  have hfields : section? fieldsLayer? settings.rendered "fields" =
      some settings.layerOf.fields := by
    simp [section?, rendered, Entries.find?, fieldsLayer?_fieldEntries, layerOf]
  have hregions : section? regionsLayer? settings.rendered "regions" =
      some settings.layerOf.regions := by
    have hfind : Entries.find? "regions" settings.rendered =
        some (.table settings.regionEntries) := by
      simp [rendered, Entries.find?]
    rw [section?, hfind]
    show (regionsLayer? (.table settings.regionEntries)).map some = _
    rw [regionsLayer?_regionEntries]
    rfl
  have hskips : skips ["root", "schema", "fields", "regions"] settings.rendered = true := by
    simp [skips, rendered]
  rw [Layer.ofTable?, hroot, hschema, hfields, hregions]
  simp only [Option.bind_eq_bind, Option.bind_some, hskips, if_true]
  rfl

end Sections

/-- The text of settings is read as a file that says what is in effect. -/
theorem parse?_render (settings : Settings) :
    Layer.parse? settings.render = some settings.layerOf := by
  -- The text begins with the bracket of a header, not with a mark of byte order.
  have hmark : settings.render.toList.head? ≠ some '\uFEFF' := by
    have hline : "\n".toList = ['\n'] := rfl
    unfold render
    rw [String.toList_intercalate, hline, List.cons_append, List.map_cons,
      Text.intercalate_cons_eq_append_flatMap, Toml.tableText, String.append_assoc,
      String.append_assoc, String.toList_append]
    exact fun h => absurd (Option.some.inj h) (by decide)
  rw [Layer.parse?, Toml.parse_of_spells settings.spells_render hmark, ofStatements_statementsOf,
    Option.bind_some, ofTable?_rendered]

end RecordQuery.Settings
