import RecordQuery.Proofs.Settings.Reloading

/-!
# Paths in the home directory

A tilde in front of a path, alone or before a slash, stands for the home directory. Main statement:
what comes behind the tilde is looked for below the home directory, unless it starts with one more
slash; then it is a path of its own, which leads to the home directory only by chance.
-/

namespace RecordQuery

/-- The path is the directory or below it, and none of the components that lead there goes up. -/
def Path.Within (path directory : Path) : Prop :=
  ∃ names, path.components = directory.components ++ names ∧ .up ∉ names

namespace Settings

/-- The text is a tilde, alone or before a slash. -/
def OfHome (text : String) : Prop := text = "~" ∨ ∃ rest, text = "~/" ++ rest

/-- Behind the tilde come two slashes. -/
def StartsOver (text : String) : Prop := ∃ rest, text = "~//" ++ rest

/-- The path has the components of the home directory, and behind them those of the text behind the
tilde. -/
def BelowHome (home : Path) (text : String) (path : Path) : Prop :=
  ∃ names, (⟨text⟩ : Path).components = .name ['~'] :: names ∧
    path.components = home.components ++ names

/-- The text is a path that starts at the home directory and never goes up. -/
structure Homebound (text : String) : Prop where
  ofHome : OfHome text
  not_startsOver : ¬ StartsOver text
  not_up : .up ∉ (⟨text⟩ : Path).components

/-! ## One text -/

theorem exists_eq_append_iff {front text : String} :
    (∃ rest, text = front ++ rest) ↔ front.toList <+: text.toList := by
  constructor
  · rintro ⟨rest, rfl⟩
    exact ⟨rest.toList, String.toList_append.symm⟩
  · rintro ⟨rest, hrest⟩
    refine ⟨String.ofList rest, String.toList_inj.1 ?_⟩
    rw [String.toList_append, ← hrest, String.toList_ofList]

section OneText

variable {home : Path} {text : String}

theorem toList_slash (rest : String) : ("~/" ++ rest).toList = '~' :: '/' :: rest.toList :=
  String.toList_append

theorem underHome_slash (home : Path) (rest : String) :
    underHome home ("~/" ++ rest) = home.join ⟨rest⟩ := by
  rw [underHome, toList_slash]
  simp only [String.ofList_toList]

theorem underHome_of_not_ofHome (h : ¬ OfHome text) : underHome home text = ⟨text⟩ := by
  obtain ⟨hne, hslash⟩ := not_or.1 h
  unfold underHome
  split
  · rename_i htext
    exact absurd (String.toList_inj.1 htext) hne
  · rename_i rest htext
    have hfront : "~/".toList <+: text.toList := ⟨rest, htext.symm⟩
    exact absurd (exists_eq_append_iff.2 hfront) hslash
  · rfl

theorem components_slash (rest : String) : (⟨"~/" ++ rest⟩ : Path).components =
    .name ['~'] :: Path.named (Text.pieces '/' rest.toList) := by
  have hne : (⟨"~"⟩ : Path).text.toList ≠ [] := by decide
  exact Path.components_append_slash hne (toList_slash rest)

theorem not_startsOver_tilde : ¬ StartsOver "~" := by
  rw [StartsOver, exists_eq_append_iff]
  decide

-- The path behind the tilde and its slash is absolute just if it starts with one more slash.
theorem startsOver_slash_iff {rest : String} :
    StartsOver ("~/" ++ rest) ↔ (⟨rest⟩ : Path).isAbsolute = true := by
  have hfront : "~//".toList = ['~', '/', '/'] := rfl
  have hhead : ['/'] <+: rest.toList ↔ rest.toList.head? = some '/' := by
    cases rest.toList with
    | nil => decide
    | cons c chars => simp [List.cons_prefix_cons, eq_comm]
  rw [StartsOver, exists_eq_append_iff, toList_slash, hfront, List.cons_prefix_cons,
    List.cons_prefix_cons, and_iff_right rfl, and_iff_right rfl, hhead, Path.isAbsolute, beq_iff_eq]

theorem slash_slash_append (rest : String) : "~//" ++ rest = "~/" ++ ("/" ++ rest) := by
  rw [← String.append_assoc]
  rfl

theorem underHome_slash_slash (home : Path) (rest : String) :
    underHome home ("~//" ++ rest) = ⟨"/" ++ rest⟩ := by
  have hrest : (⟨"/" ++ rest⟩ : Path).isAbsolute = true := by
    rw [Path.isAbsolute, String.toList_append]
    rfl
  rw [slash_slash_append, underHome_slash, Path.join_of_isAbsolute hrest]

theorem isAbsolute_underHome (hhome : home.isAbsolute = true) (h : OfHome text) :
    (underHome home text).isAbsolute = true := by
  rcases h with rfl | ⟨rest, rfl⟩
  · exact hhome
  · rw [underHome_slash]
    exact Path.isAbsolute_join hhome _

theorem resolvePath_of_ofHome (hhome : home.isAbsolute = true) (h : OfHome text)
    (directory : Path) : resolvePath (some home) text directory = .ok (underHome home text) := by
  rw [resolvePath_some, placed, if_pos (isAbsolute_underHome hhome h)]

theorem resolvePath_of_not_ofHome (h : ¬ OfHome text) (htext : (⟨text⟩ : Path).isAbsolute = false)
    (directory : Path) : resolvePath (some home) text directory = .ok (directory.join ⟨text⟩) := by
  rw [resolvePath_some, placed, underHome_of_not_ofHome h, if_neg (Bool.eq_false_iff.1 htext)]

/-- What comes behind the tilde leads below the home directory just if it does not start over, or
if the home directory is the root. -/
theorem belowHome_underHome_iff (hhome : home.isAbsolute = true) (h : OfHome text) :
    BelowHome home text (underHome home text) ↔ ¬ StartsOver text ∨ home.components = [.root] := by
  rcases h with rfl | ⟨rest, rfl⟩
  · have hbelow : BelowHome home "~" (underHome home "~") :=
      ⟨[], by decide, (List.append_nil _).symm⟩
    exact iff_of_true hbelow (.inl not_startsOver_tilde)
  simp only [BelowHome, components_slash, underHome_slash, List.cons.injEq, true_and,
    exists_eq_left', startsOver_slash_iff]
  by_cases hrest : (⟨rest⟩ : Path).isAbsolute = true
  · -- The names behind the tilde are all that is left, and the root is in front of them.
    obtain ⟨chars, hchars⟩ := List.head?_eq_some_iff.1 (beq_iff_eq.1 hrest)
    have hnamed : Path.named (Text.pieces '/' rest.toList) =
        Path.named (Text.pieces '/' chars) := by
      rw [hchars]
      exact Path.named_cons_of_idle rfl
    have hroot : (⟨rest⟩ : Path).components =
        [.root] ++ Path.named (Text.pieces '/' chars) := Path.components_of_root hchars
    rw [Path.join_of_isAbsolute hrest, hnamed, hroot, List.append_cancel_right_eq,
      or_iff_right (not_not_intro hrest), eq_comm]
  · have hne : home.text ≠ "" := by
      intro hempty
      rw [Path.isAbsolute, hempty] at hhome
      exact Bool.noConfusion hhome
    exact iff_of_true (Path.components_join (Bool.eq_false_iff.2 hrest) hne) (.inl hrest)

theorem Homebound.within_underHome (hhome : home.isAbsolute = true) (h : Homebound text) :
    (underHome home text).Within home := by
  obtain ⟨names, hnames, hpath⟩ :=
    (belowHome_underHome_iff hhome h.ofHome).2 (.inl h.not_startsOver)
  refine ⟨names, hpath, fun hup => h.not_up ?_⟩
  rw [hnames]
  exact List.mem_cons_of_mem _ hup

end OneText

/-! ## Merged settings -/

section Merged

variable {home : Path} {files : List Source} {settings : Settings} {text : String}

theorem exists_resolvePath_of_merge (h : merge (some home) files = .ok settings)
    (htext : files.findSome? (·.layer.directory?) = some text) :
    ∃ directory, .ok settings.directory = resolvePath (some home) text directory := by
  obtain ⟨above, file, below, rfl, hfile, habove⟩ := List.findSome?_eq_some_iff.1 htext
  have hsaid : ((above ++ file :: below).findSome? fun source =>
      source.layer.directory?.map fun text => resolvePath (some home) text source.directory) =
        some (resolvePath (some home) text file.directory) := by
    refine List.findSome?_eq_some_iff.2 ⟨above, file, below, rfl, ?_, fun other hother => ?_⟩
    · rw [hfile, Option.map_some]
    · rw [habove other hother, Option.map_none]
  refine ⟨file.directory, (firstDefined_of_merge h).directory.trans ?_⟩
  rw [hsaid, Option.getD_some]

theorem within_directory_of_merge (hhome : home.isAbsolute = true)
    (h : merge (some home) files = .ok settings)
    (htext : files.findSome? (·.layer.directory?) = some text) (hbound : Homebound text) :
    settings.directory.Within home := by
  obtain ⟨directory, hdirectory⟩ := exists_resolvePath_of_merge h htext
  rw [resolvePath_of_ofHome hhome hbound.ofHome] at hdirectory
  rw [Except.ok.inj hdirectory]
  exact hbound.within_underHome hhome

-- A file under the home directory is absolute, so the directory for boundaries does not count.
theorem within_path_of_merge (hhome : home.isAbsolute = true)
    (h : merge (some home) files = .ok settings) {source : Region.Source}
    (hsource : source ∈ settings.sources)
    (htext : files.findSome? (·.layer.file? source.category) = some text)
    (hbound : Homebound text) : source.path.Within home := by
  have hfirst := firstDefined_of_merge h
  rw [hfirst.sources] at hsource
  obtain ⟨category, _, rfl⟩ := List.mem_map.1 hsource
  have hfile : fileIn? settings.overrides category = some (underHome home text) := by
    have hsaid := hfirst.file category
    rw [htext, Option.map_some, expandHome_some] at hsaid
    obtain ⟨file, hfile, heq⟩ := Option.map_eq_some_iff.1 hsaid
    rw [hfile, Except.ok.inj heq]
  rw [hfile, Option.getD_some,
    Path.join_of_isAbsolute (isAbsolute_underHome hhome hbound.ofHome)]
  exact hbound.within_underHome hhome

end Merged

/-- Below a known absolute home directory is what follows a tilde, as long as it does not start
over; a text that does is a path of its own, and other texts are seen from the directory of their
file. So no directory for boundaries and no boundary file leaves the home directory unless its text
starts over or goes up. -/
theorem resolvePath_below_home_iff {home : Path} (hhome : home.isAbsolute = true) :
    (∀ text directory, OfHome text → ∃ path,
      resolvePath (some home) text directory = .ok path ∧
        (BelowHome home text path ↔ ¬ StartsOver text ∨ home.components = [.root])) ∧
    (∀ rest directory,
      resolvePath (some home) ("~//" ++ rest) directory = .ok ⟨"/" ++ rest⟩) ∧
    (∀ path : Path, path.isAbsolute = true → ∀ directory,
      resolvePath (some home) path.text directory = .ok path) ∧
    (∀ path : Path, path.isAbsolute = false → ¬ OfHome path.text → ∀ directory,
      resolvePath (some home) path.text directory = .ok (directory.join path)) ∧
    ∀ files settings, merge (some home) files = .ok settings →
      (∀ text, files.findSome? (·.layer.directory?) = some text → Homebound text →
        settings.directory.Within home) ∧
      ∀ source ∈ settings.sources, ∀ text,
        files.findSome? (·.layer.file? source.category) = some text → Homebound text →
          source.path.Within home := by
  refine ⟨fun text directory h => ?_, fun rest directory => ?_,
    fun path h directory => resolvePath_of_isAbsolute h _ directory,
    fun path h htext directory => resolvePath_of_not_ofHome htext h directory,
    fun files settings h => ⟨fun text => within_directory_of_merge hhome h,
      fun source hsource text => within_path_of_merge hhome h hsource⟩⟩
  · exact ⟨_, resolvePath_of_ofHome hhome h directory, belowHome_underHome_iff hhome h⟩
  · rw [resolvePath_of_ofHome hhome (.inr ⟨_, slash_slash_append rest⟩), underHome_slash_slash]

/-- A file that looks for boundaries in the home directory. -/
def atlasFile : Source where
  path := ⟨"/work/.vds.toml"⟩
  layer :=
    { root := none
      schema := none
      fields := none
      regions := some
        ⟨some "~/./atlas//north/", .ofList [("marine", ⟨some "~/seas/./sea.json", none⟩)]⟩ }

def atlasSettings : Settings where
  defaultVersion := none
  fields := FieldNames.standard
  directory := ⟨"/home/fern/./atlas//north/"⟩
  overrides := ⟨none, some ⟨some ⟨"/home/fern/seas/./sea.json"⟩, none⟩, none⟩
  origin := some ⟨"/work"⟩

/-- The directory and the file of a home directory that the settings above it name. -/
theorem atlasFile_below_home :
    let home : Path := ⟨"/home/fern"⟩
    home.isAbsolute = true ∧
    (OfHome "~/./atlas//north/" ∧ ∃ path,
      resolvePath (some home) "~/./atlas//north/" ⟨"/work"⟩ = .ok path ∧
        BelowHome home "~/./atlas//north/" path) ∧
    (merge (some home) [atlasFile] = .ok atlasSettings ∧ Homebound "~/./atlas//north/" ∧
      atlasSettings.directory.Within home) ∧
    (Homebound "~/seas/./sea.json" ∧
      (⟨"/home/fern/seas/./sea.json"⟩ : Path).Within home) ∧
    ((⟨"seas"⟩ : Path).isAbsolute = false ∧ ¬ OfHome "seas" ∧
      resolvePath (some home) "seas" ⟨"/work"⟩ = .ok ⟨"/work/seas"⟩) := by
  intro home
  have hhome : home.isAbsolute = true := by decide
  have hnorth : Homebound "~/./atlas//north/" := by
    refine ⟨.inr ⟨"./atlas//north/", rfl⟩, ?_, by decide⟩
    rw [StartsOver, exists_eq_append_iff]
    decide
  have hsea : Homebound "~/seas/./sea.json" := by
    refine ⟨.inr ⟨"seas/./sea.json", rfl⟩, ?_, by decide⟩
    rw [StartsOver, exists_eq_append_iff]
    decide
  have hother : ¬ OfHome "seas" := by
    rw [OfHome, exists_eq_append_iff]
    decide
  have hmerge : merge (some home) [atlasFile] = .ok atlasSettings := by decide +kernel
  obtain ⟨hofHome, _, _, hseen, hmerged⟩ := resolvePath_below_home_iff hhome
  obtain ⟨hdirectory, hsource⟩ := hmerged _ _ hmerge
  obtain ⟨path, hpath, hbelow⟩ := hofHome _ ⟨"/work"⟩ hnorth.ofHome
  exact ⟨hhome, ⟨hnorth.ofHome, path, hpath, hbelow.2 (.inl hnorth.not_startsOver)⟩,
    ⟨hmerge, hnorth, hdirectory _ rfl hnorth⟩,
    ⟨hsea, hsource ⟨.marine, ⟨"/home/fern/seas/./sea.json"⟩, ["name"]⟩ (by decide) _ rfl hsea⟩,
    rfl, hother, hseen ⟨"seas"⟩ rfl hother ⟨"/work"⟩⟩

/-- A file whose directory for boundaries starts over behind the tilde. -/
def spilledFile : Source where
  path := ⟨"/etc/vds/.vds.toml"⟩
  layer :=
    { root := none
      schema := none
      fields := none
      regions := some ⟨some "~//srv/regions", .empty⟩ }

/-- A tilde before two slashes leads out of the home directory without going up. -/
theorem spilledFile_not_below_home :
    let home : Path := ⟨"/home/fern"⟩
    let path : Path := ⟨"/srv/regions"⟩
    home.isAbsolute = true ∧ OfHome "~//srv/regions" ∧
    .up ∉ (⟨"~//srv/regions"⟩ : Path).components ∧
    resolvePath (some home) "~//srv/regions" spilledFile.directory = .ok path ∧
    (merge (some home) [spilledFile]).map directory = .ok path ∧
    ¬ home.components <+: path.components := by
  exact ⟨by decide, .inr ⟨"/srv/regions", rfl⟩, by decide, by decide, by decide +kernel, by decide⟩

end Settings

end RecordQuery
