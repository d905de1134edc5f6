import RecordQuery.Command.Arguments
import RecordQuery.Proofs.Outcome

/-!
# Command lines that differ in the command

Compiling can be asked for with everything that checking can be asked for with, and with a layout
besides. Main statement: a command line that asks for checking asks for compiling, of the same
query under the same settings, once the name of the command is replaced.
-/

namespace RecordQuery.Command

/-- No layout has been chosen. -/
structure Choices.Wide (choices : Choices) : Prop where
  outline : choices.outline = false
  compact : choices.compact = false

/-- What a command can be given that has no layout. -/
def Parameter.Layoutless (parameter : Parameter) : Prop :=
  parameter ≠ .outline ∧ parameter ≠ .compact

theorem Choices.Wide.add {choices added : Choices} {parameter : Parameter}
    {value : Option String} (h : choices.Wide) (hparameter : parameter.Layoutless)
    (hadd : choices.add parameter value = .ok added) : added.Wide := by
  obtain ⟨hnotOutline, hnotCompact⟩ := hparameter
  cases parameter with
  | outline => exact absurd rfl hnotOutline
  | compact => exact absurd rfl hnotCompact
  | help => exact nomatch hadd
  | version => exact nomatch hadd
  | verbose =>
    obtain rfl := Except.ok.inj hadd
    exact ⟨h.outline, h.compact⟩
  | canonical | json =>
    -- A switch is a place of its own.
    obtain ⟨_, _, hadd⟩ := bind_eq_ok_iff.1 hadd
    obtain rfl := Except.ok.inj hadd
    exact ⟨h.outline, h.compact⟩
  | settingsFile | schemaVersion | query | category =>
    cases value with
    | none => exact nomatch hadd
    | some text =>
      obtain ⟨_, _, hadd⟩ := bind_eq_ok_iff.1 hadd
      obtain rfl := Except.ok.inj hadd
      exact ⟨h.outline, h.compact⟩

namespace Progress

/-- No layout has been given, nor is one about to be. -/
structure Wide (progress : Progress) : Prop where
  choices : progress.choices.Wide
  pending : ∀ parameter value, progress.pending = some (parameter, value) → parameter.Layoutless

theorem wide_start : start.Wide :=
  ⟨⟨rfl, rfl⟩, fun _ _ h => nomatch h⟩

section Steps

variable {progress next : Progress} {parameter : Parameter} {value : Option String}

theorem Wide.settled (h : progress.Wide) {choices : Choices}
    (hsettled : progress.settled = .ok choices) : choices.Wide := by
  rw [Progress.settled] at hsettled
  split at hsettled
  · obtain rfl := Except.ok.inj hsettled
    exact h.choices
  · rename_i parameter value hpending
    exact h.choices.add (h.pending parameter value hpending) hsettled

theorem Wide.give (h : progress.Wide) (hparameter : parameter.Layoutless)
    (hgive : progress.give parameter value = .ok next) : next.Wide := by
  obtain ⟨settled, hsettled, hgive⟩ := bind_eq_ok_iff.1 hgive
  obtain ⟨choices, hadd, hgive⟩ := bind_eq_ok_iff.1 hgive
  obtain rfl := Except.ok.inj hgive
  exact ⟨(h.settled hsettled).add hparameter hadd, fun _ _ h => nomatch h⟩

theorem Wide.hold (h : progress.Wide) (hparameter : parameter.Layoutless)
    (hhold : progress.hold parameter value = .ok next) : next.Wide := by
  obtain ⟨settled, hsettled, hhold⟩ := bind_eq_ok_iff.1 hhold
  obtain rfl := Except.ok.inj hhold
  refine ⟨h.settled hsettled, fun parameter value hpending => ?_⟩
  obtain ⟨rfl, rfl⟩ := Prod.mk.inj (Option.some.inj hpending)
  exact hparameter

theorem Wide.option (h : progress.Wide) (hparameter : parameter.Layoutless)
    (hoption : progress.option parameter value = .ok next) : next.Wide := by
  unfold Progress.option at hoption
  split at hoption
  · exact h.give hparameter hoption
  · exact h.hold hparameter hoption
  · exact nomatch hoption
  · exact h.give hparameter hoption

end Steps

end Progress

/-! ## From checking to compiling -/

/-- What can be given anywhere and is named by a long option has one of these names. -/
theorem Parameter.long?_of_mem_shared {parameter : Parameter} {name : String}
    (hmem : parameter ∈ Scope.shared) (hname : parameter.long? = some name) :
    name ∈ ["help", "verbose", "config", "version-schema"] := by
  simp only [Scope.shared, List.mem_cons, List.not_mem_nil, or_false] at hmem
  obtain rfl | rfl | rfl | rfl := hmem <;> simp_all [Parameter.long?]

namespace Scope

theorem layoutless_of_mem_shared {parameter : Parameter} (h : parameter ∈ shared) :
    parameter.Layoutless := by
  constructor
  · rintro rfl
    exact absurd h (by decide)
  · rintro rfl
    exact absurd h (by decide)

-- The options of compiling are its layouts and what can be given anywhere.
theorem find?_options_translate {given : Parameter → Bool} {parameter : Parameter}
    (houtline : given .outline = false) (hcompact : given .compact = false)
    (h : (Scope.command .validate).options.find? given = some parameter) :
    (Scope.command .translate).options.find? given = some parameter := by
  rw [options, List.find?_cons_of_neg (by rw [houtline]; exact Bool.false_ne_true),
    List.find?_cons_of_neg (by rw [hcompact]; exact Bool.false_ne_true)]
  exact h

theorem long?_translate {name : String} {parameter : Parameter}
    (h : (Scope.command .validate).long? name = some parameter) :
    (Scope.command .translate).long? name = some parameter ∧ parameter.Layoutless := by
  have hmem : parameter ∈ shared := List.mem_of_find?_eq_some h
  have hfound : shared.find? (fun given => given.long? == some name) = some parameter := h
  have hlong := List.find?_some hfound
  have hname := Parameter.long?_of_mem_shared hmem (beq_iff_eq.1 hlong)
  refine ⟨find?_options_translate ?_ ?_ h, layoutless_of_mem_shared hmem⟩
  · rw [beq_eq_false_iff_ne]
    intro houtline
    rw [← Option.some.inj houtline] at hname
    exact absurd hname (by decide)
  · rw [beq_eq_false_iff_ne]
    intro hcompact
    rw [← Option.some.inj hcompact] at hname
    exact absurd hname (by decide)

-- Layouts have no letters.
theorem short?_translate {letter : Char} {parameter : Parameter}
    (h : (Scope.command .validate).short? letter = some parameter) :
    (Scope.command .translate).short? letter = some parameter ∧ parameter.Layoutless :=
  ⟨find?_options_translate rfl rfl h, layoutless_of_mem_shared (List.mem_of_find?_eq_some h)⟩

end Scope

namespace Progress

theorem pending_of_awaited? {progress : Progress} {parameter : Parameter}
    (h : progress.awaited? = some parameter) : progress.pending = some (parameter, none) := by
  rw [awaited?] at h
  split at h
  · rename_i hpending
    rw [hpending, Option.some.inj h]
  · exact nomatch h

section Simulation

variable {progress next : Progress}

theorem Wide.letters (h : progress.Wide) {letters : List Char}
    (hletters : progress.letters (.command .validate) letters = .ok next) :
    progress.letters (.command .translate) letters = .ok next ∧ next.Wide := by
  induction letters generalizing progress with
  | nil =>
    obtain rfl := Except.ok.inj hletters
    exact ⟨rfl, h⟩
  | cons letter rest ih =>
    rw [Progress.letters] at hletters ⊢
    split at hletters
    · exact nomatch hletters
    · rename_i parameter hshort
      obtain ⟨htranslate, hparameter⟩ := Scope.short?_translate hshort
      split at hletters
      · exact nomatch hletters
      · rename_i given hoption
        simp only [htranslate, hoption]
        exact ih (h.option hparameter hoption) hletters

theorem Wide.plain (h : progress.Wide) {text : String}
    (hplain : progress.plain (.command .validate) text = .ok next) :
    progress.plain (.command .translate) text = .ok next ∧ next.Wide := by
  unfold Progress.plain at hplain ⊢
  have hscope : (Scope.command .translate).plain? = (Scope.command .validate).plain? := rfl
  rw [hscope]
  split at hplain
  · rename_i parameter hplace hgiven
    refine ⟨hplain, ?_⟩
    obtain ⟨held, hhold, hplain⟩ := bind_eq_ok_iff.1 hplain
    obtain rfl := Except.ok.inj hplain
    obtain rfl := Option.some.inj hplace
    have hwide := h.hold ⟨by decide, by decide⟩ hhold
    exact ⟨hwide.choices, hwide.pending⟩
  · exact nomatch hplain

-- One argument after the other is read as for checking, and none of them asks for a layout.
theorem Wide.step (h : progress.Wide) {argument : String}
    (hstep : progress.step (.command .validate) argument = .ok next) :
    progress.step (.command .translate) argument = .ok next ∧ next.Wide := by
  rw [Progress.step] at hstep ⊢
  by_cases hvalues : progress.valuesOnly = true
  · rw [if_pos hvalues] at hstep ⊢
    exact h.plain hstep
  · rw [if_neg hvalues] at hstep ⊢
    cases hshape : Shape.of argument with
    | separator =>
      simp only [hshape] at hstep ⊢
      obtain rfl := Except.ok.inj hstep
      exact ⟨rfl, h.choices, h.pending⟩
    | long name value =>
      simp only [hshape] at hstep ⊢
      split at hstep
      · rename_i parameter hlong
        obtain ⟨htranslate, hparameter⟩ := Scope.long?_translate hlong
        simp only [htranslate]
        exact ⟨hstep, h.option hparameter hstep⟩
      · exact nomatch hstep
    | short letters =>
      simp only [hshape] at hstep ⊢
      exact h.letters hstep
    | plain =>
      simp only [hshape] at hstep ⊢
      cases hawaited : progress.awaited? with
      | none =>
        simp only [hawaited] at hstep ⊢
        exact h.plain hstep
      | some parameter =>
        -- The argument is the value of an option that was given before.
        simp only [hawaited] at hstep ⊢
        obtain rfl := Except.ok.inj hstep
        refine ⟨rfl, h.choices, fun given value hpending => ?_⟩
        obtain ⟨rfl, rfl⟩ := Prod.mk.inj (Option.some.inj hpending)
        exact h.pending _ none (pending_of_awaited? hawaited)

theorem Wide.run (h : progress.Wide) {arguments left : List String}
    (hrun : progress.run (.command .validate) arguments = .ok (next, left)) :
    progress.run (.command .translate) arguments = .ok (next, left) ∧ next.Wide := by
  induction arguments generalizing progress with
  | nil =>
    obtain ⟨rfl, rfl⟩ := Prod.mk.inj (Except.ok.inj hrun)
    exact ⟨rfl, h⟩
  | cons argument rest ih =>
    have hgoes : ∀ name, progress.stopsAt (.command name) argument = false := by
      intro name
      rw [stopsAt]
      exact Bool.and_false _
    rw [Progress.run, hgoes, if_neg Bool.false_ne_true] at hrun ⊢
    split at hrun
    · exact nomatch hrun
    · rename_i given hstep
      obtain ⟨htranslate, hwide⟩ := h.step hstep
      simp only [htranslate]
      exact ih hwide hrun

end Simulation

-- The word that ends a scope is not looked at any further, so that another may stand in its place.
theorem run_eq_ok_cons {progress final : Progress} {scope : Scope} {word : String}
    {arguments rest : List String}
    (h : progress.run scope arguments = .ok (final, word :: rest)) :
    ∃ before, arguments = before ++ word :: rest ∧ final.stopsAt scope word = true ∧
      ∀ other, final.stopsAt scope other = true →
        progress.run scope (before ++ other :: rest) = .ok (final, other :: rest) := by
  induction arguments generalizing progress with
  | nil => exact nomatch (Prod.mk.inj (Except.ok.inj h)).2
  | cons argument arguments ih =>
    rw [run] at h
    by_cases hstops : progress.stopsAt scope argument = true
    · rw [if_pos hstops] at h
      obtain ⟨rfl, hwords⟩ := Prod.mk.inj (Except.ok.inj h)
      obtain ⟨rfl, rfl⟩ := List.cons.inj hwords
      refine ⟨[], rfl, hstops, fun other hother => ?_⟩
      rw [List.nil_append, run, if_pos hother]
    · rw [if_neg hstops] at h
      split at h
      · exact nomatch h
      · rename_i given hstep
        obtain ⟨before, rfl, hword, hreplace⟩ := ih h
        refine ⟨argument :: before, rfl, hword, fun other hother => ?_⟩
        rw [List.cons_append, run, if_neg hstops]
        simp only [hstep]
        exact hreplace other hother

end Progress

theorem choicesAfter_translate {arguments : List String} {own : Choices}
    (h : choicesAfter .validate arguments = .ok own) :
    choicesAfter .translate arguments = .ok own ∧ own.Wide := by
  obtain ⟨⟨progress, left⟩, hrun, hsettled⟩ := bind_eq_ok_iff.1 h
  obtain ⟨htranslate, hwide⟩ := Progress.wide_start.run hrun
  exact ⟨bind_eq_ok_iff.2 ⟨_, htranslate, hsettled⟩, hwide.settled hsettled⟩

/-- A command line is the arguments of the program, the name of a command and the arguments of the
command. -/
theorem parse_eq_ok_iff {arguments : List String} {invocation : Invocation} :
    parse arguments = .ok invocation ↔
      ∃ progress word rest name own outer,
        Progress.start.run .program arguments = .ok (progress, word :: rest) ∧
        Name.ofText? word = some name ∧ choicesAfter name rest = .ok own ∧
        own.command name = .ok invocation.command ∧ progress.settled = .ok outer ∧
        invocation.settingsFile = own.settingsFile.or outer.settingsFile ∧
        invocation.schemaVersion = own.schemaVersion.or outer.schemaVersion := by
  constructor
  · intro h
    obtain ⟨⟨progress, left⟩, hrun, h⟩ := bind_eq_ok_iff.1 h
    cases left with
    | nil =>
      obtain ⟨choices, hsettled, h⟩ := bind_eq_ok_iff.1 h
      split at h
      · exact nomatch h
      · exact nomatch h
    | cons word rest =>
      cases hname : Name.ofText? word with
      | none =>
        simp only [hname] at h
        exact nomatch h
      | some name =>
        simp only [hname] at h
        obtain ⟨own, hown, h⟩ := bind_eq_ok_iff.1 h
        obtain ⟨command, hcommand, h⟩ := bind_eq_ok_iff.1 h
        obtain ⟨outer, houter, h⟩ := bind_eq_ok_iff.1 h
        obtain rfl := Except.ok.inj h
        exact ⟨progress, word, rest, name, own, outer, hrun, hname, hown, hcommand, houter, rfl,
          rfl⟩
  · rintro ⟨progress, word, rest, name, own, outer, hrun, hname, hown, hcommand, houter, hfile,
      hversion⟩
    obtain ⟨settingsFile, schemaVersion, command⟩ := invocation
    obtain rfl := hfile
    obtain rfl := hversion
    refine bind_eq_ok_iff.2 ⟨_, hrun, ?_⟩
    simp only [hname]
    exact bind_eq_ok_iff.2 ⟨own, hown, bind_eq_ok_iff.2 ⟨command, hcommand,
      bind_eq_ok_iff.2 ⟨outer, houter, rfl⟩⟩⟩

theorem Name.text_of_ofText? {word : String} {name : Name} (h : ofText? word = some name) :
    name.text = word := by
  have hfound : all.find? (fun name => name.text == word) = some name := h
  have htext := List.find?_some hfound
  exact beq_iff_eq.1 htext

namespace Choices

theorem command_eq_validate {choices : Choices} {name : Name} {file : Option Path}
    (h : choices.command name = .ok (.validate file)) :
    name = .validate ∧ choices.query = file := by
  cases name with
  | validate => exact ⟨rfl, Command.validate.inj (Except.ok.inj h)⟩
  | translate =>
    rw [command] at h
    split at h <;> exact nomatch h
  | hash | regions | config => exact nomatch h

theorem Wide.command_translate {choices : Choices} (h : choices.Wide) :
    choices.command .translate = .ok (.translate choices.query .wide) := by
  rw [command, h.outline, h.compact]

end Choices

/-- The word that asks for checking can give way to the word that asks for compiling. -/
theorem parse_translate {arguments : List String} {settingsFile file : Option Path}
    {version : Option String}
    (h : parse arguments = .ok ⟨settingsFile, version, .validate file⟩) :
    ∃ before after, arguments = before ++ Name.validate.text :: after ∧
      parse (before ++ Name.translate.text :: after) =
        .ok ⟨settingsFile, version, .translate file .wide⟩ := by
  obtain ⟨progress, word, after, name, own, outer, hrun, hname, hown, hcommand, houter, hfile,
    hversion⟩ := parse_eq_ok_iff.1 h
  obtain ⟨rfl, rfl⟩ := Choices.command_eq_validate hcommand
  obtain rfl := Name.text_of_ofText? hname
  obtain ⟨before, rfl, hstops, hreplace⟩ := Progress.run_eq_ok_cons hrun
  obtain ⟨htranslate, hwide⟩ := choicesAfter_translate hown
  -- Both words end the arguments of the program wherever one of them does.
  refine ⟨before, after, rfl, parse_eq_ok_iff.2 ⟨progress, _, after, .translate, own, outer,
    hreplace Name.translate.text hstops, Name.ofText?_text .translate, htranslate,
    hwide.command_translate, houter, hfile, hversion⟩⟩

end RecordQuery.Command
