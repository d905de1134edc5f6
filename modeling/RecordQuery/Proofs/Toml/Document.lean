import Mathlib.Data.List.Forall2
import RecordQuery.Proofs.Toml.Tables
import RecordQuery.Proofs.Toml.Values

/-!
# Reading documents back

What the writer puts together from tables of strings and lists of strings is read as the statements
it stands for. Main statement: the text of tables, each behind the one before with an empty line in
between, is read as their headers and entries in order.
-/

namespace RecordQuery.Toml

/-! ## Lines -/

/-- A text that is read as a value at the end of a line. -/
structure Means (text : String) (v : Value) : Prop where
  solid : ∀ rest, Solid (text.toList ++ rest)
  takes : ∀ rest, Takes (value depthLimit (text.toList ++ '\n' :: rest)) v ('\n' :: rest)

theorem means_quote (text : String) : Means (quote text) (.string text) := by
  refine ⟨fun rest => ?_, fun rest => ?_⟩
  · rw [toList_quote]
    exact solid_quoteChars _ _
  · have hvalue := takes_value_quoteChars depthLimit text.toList
      (unquoted_cons (c := '\n') (by decide) rest)
    rwa [toList_quote, String.ofList_toList] at *

theorem means_quoteList (texts : List String) :
    Means (quoteList texts) (.array (texts.map .string)) := by
  refine ⟨fun rest => ?_, fun rest => takes_value_quoteList 79 texts ('\n' :: rest)⟩
  obtain ⟨more, hmore⟩ := exists_cons_quoteList texts
  rw [hmore]
  exact solid_cons (by decide) _

section Lines

variable {key text : String} {v : Value} {next : Statement} {read : List Statement}
  {rest s : List Char}

theorem takes_pair (hkey : Bare key.toList) (htext : Means text v) (rest : List Char) :
    Takes (pair behindBlanks (value depthLimit)
      (key.toList ++ ([' ', '=', ' '] ++ (text.toList ++ '\n' :: rest)))) ([], key, v)
      ('\n' :: rest) := by
  have hends : EndsKeys ([' ', '=', ' '] ++ (text.toList ++ '\n' :: rest)) :=
    ⟨Text.forall_head?_cons.2 rfl, fun h => absurd (Option.some.inj h) (by decide)⟩
  have hdotted :
      Takes (dottedKey (key.toList ++ ([' ', '=', ' '] ++ (text.toList ++ '\n' :: rest))))
        ([], key) ([' ', '=', ' '] ++ (text.toList ++ '\n' :: rest)) := by
    have hpath : ∀ name ∈ ([] : List (List Char)), Bare name := List.forall_mem_nil _
    have hkeys := takes_dottedKey hpath hkey (Nat.zero_le _) hends
    rwa [List.nil_append, List.intercalate_singleton, String.ofList_toList] at hkeys
  have hvalue : Takes (value depthLimit (skipBlanks (' ' :: (text.toList ++ '\n' :: rest)))) v
      ('\n' :: rest) := by
    rw [skipBlanks_cons (by decide), (htext.solid _).skipBlanks]
    exact htext.takes rest
  obtain ⟨_, hdotted⟩ := hdotted
  obtain ⟨_, hvalue⟩ := hvalue
  unfold pair
  rw [hdotted]
  show Takes (Option.map _ (value depthLimit
    (skipBlanks (' ' :: (text.toList ++ '\n' :: rest))))) _ _
  rw [hvalue]
  exact ⟨_, rfl⟩

theorem takes_statementLine (h : Takes (statement s) next ('\n' :: rest)) :
    Takes (statementLine s) next rest := by
  obtain ⟨_, h⟩ := h
  rw [statementLine, h]
  exact ⟨_, rfl⟩

theorem takes_statement_assign (hkey : Bare key.toList) (htext : Means text v) (rest : List Char) :
    Takes (statement (key.toList ++ ([' ', '=', ' '] ++ (text.toList ++ '\n' :: rest))))
      (.assign [] key v) ('\n' :: rest) := by
  have hpair := takes_pair hkey htext rest
  have hhead := hkey.head? ([' ', '=', ' '] ++ (text.toList ++ '\n' :: rest))
  generalize key.toList ++ ([' ', '=', ' '] ++ (text.toList ++ '\n' :: rest)) = s at hpair hhead ⊢
  obtain ⟨_, hpair⟩ := hpair
  rw [statement, hpair]
  · exact ⟨_, rfl⟩
  · rintro more rfl
    exact absurd (hhead '[' rfl) (by decide)

theorem takes_statement_header {path : List (List Char)} {key : List Char}
    (hpath : ∀ key ∈ path, Bare key) (hkey : Bare key) (hlength : path.length ≤ depthLimit)
    (rest : List Char) :
    Takes (statement ('[' :: (['.'].intercalate (path ++ [key]) ++ ']' :: '\n' :: rest)))
      (.header (path.map String.ofList) (String.ofList key)) ('\n' :: rest) := by
  have hends : EndsKeys (']' :: '\n' :: rest) :=
    ⟨Text.forall_head?_cons.2 rfl, fun h => absurd (Option.some.inj h) (by decide)⟩
  have hdotted := takes_dottedKey hpath hkey hlength hends
  have hhead := head?_keys hpath hkey (']' :: '\n' :: rest)
  generalize ['.'].intercalate (path ++ [key]) ++ ']' :: '\n' :: rest = s at hdotted hhead ⊢
  have hblanks : skipBlanks s = s :=
    skipBlanks_of_head? fun c hc => isBlank_of_isBareKey (hhead c hc)
  have hdotted : Takes (dottedKey (behindBlanks s).1) (path.map String.ofList, String.ofList key)
      (']' :: '\n' :: rest) := by
    show Takes (dottedKey (skipBlanks s)) _ _
    rwa [hblanks]
  obtain ⟨_, hdotted⟩ := hdotted
  have hclose : Takes (headerKey 1 s) (path.map String.ofList, String.ofList key)
      ('\n' :: rest) := by
    unfold headerKey
    dsimp only
    rw [hdotted]
    exact ⟨_, rfl⟩
  obtain ⟨_, hclose⟩ := hclose
  show Takes (header ('[' :: s)) _ _
  rw [header, hclose]
  · exact ⟨_, rfl⟩
  · rintro more rfl
    exact absurd (hhead '[' rfl) (by decide)

end Lines

/-! ## Documents -/

/-- A text that adds statements to those that have been read. -/
def Spells (text : List Char) (added : List Statement) : Prop :=
  ∀ read rest, statements read (text ++ rest) = statements (added.reverse ++ read) rest

section Documents

variable {text : List Char} {added : List Statement} {next : Statement} {read : List Statement}
  {rest s : List Char}

theorem statements_of_isEmpty (h : (skipTrivia s).isEmpty = true) :
    statements read s = some read.reverse := by
  rw [statements, if_pos h]

theorem statements_of_none (hs : (skipTrivia s).isEmpty = false)
    (h : statementLine (skipTrivia s) = none) : statements read s = none := by
  rw [statements, if_neg (by rw [hs]; decide), h]

theorem statements_of_takes (hs : (skipTrivia s).isEmpty = false)
    (h : Takes (statementLine (skipTrivia s)) next rest) :
    statements read s = statements (next :: read) rest := by
  obtain ⟨_, h⟩ := h
  rw [statements, if_neg (by rw [hs]; decide), h]

theorem spells_line (hne : text ≠ []) (hsolid : ∀ rest, Solid (text ++ rest))
    (h : ∀ rest, Takes (statementLine (text ++ rest)) next rest) : Spells text [next] := by
  intro read rest
  apply statements_of_takes
  · rw [(hsolid rest).skipTrivia, List.isEmpty_eq_false_iff]
    exact List.append_ne_nil_of_left_ne_nil hne rest
  · rw [(hsolid rest).skipTrivia]
    exact h rest

theorem spells_newline : Spells ['\n'] [] := by
  intro read rest
  show statements read ('\n' :: rest) = statements read rest
  have hskip := skipTrivia_newline rest
  cases hempty : (skipTrivia rest).isEmpty with
  | true => rw [statements_of_isEmpty hempty, statements_of_isEmpty (by rwa [hskip])]
  | false =>
    cases hline : statementLine (skipTrivia rest) with
    | none =>
      rw [statements_of_none hempty hline]
      rw [← hskip] at hempty hline
      rw [statements_of_none hempty hline]
    | some result =>
      obtain ⟨next, left, hleft⟩ := result
      have htakes : Takes (statementLine (skipTrivia rest)) next left := ⟨hleft, hline⟩
      rw [statements_of_takes hempty htakes]
      rw [← hskip] at hempty htakes
      rw [statements_of_takes hempty htakes]

theorem Spells.append {others : List Char} {more : List Statement} (h : Spells text added)
    (hothers : Spells others more) : Spells (text ++ others) (added ++ more) := by
  intro read rest
  rw [List.append_assoc, h, hothers, List.reverse_append, List.append_assoc]

theorem spells_nil : Spells [] [] := fun _ _ => rfl

theorem spells_entry {key text : String} {v : Value} (hkey : Bare key.toList)
    (htext : Means text v) :
    Spells (key ++ " = " ++ text ++ "\n").toList [.assign [] key v] := by
  have hline : ∀ rest, (key ++ " = " ++ text ++ "\n").toList ++ rest =
      key.toList ++ ([' ', '=', ' '] ++ (text.toList ++ '\n' :: rest)) := by
    intro rest
    rw [String.toList_append, String.toList_append, String.toList_append, List.append_assoc,
      List.append_assoc, List.append_assoc]
    rfl
  apply spells_line
  · intro hnil
    have hlength := congrArg List.length (hline [])
    rw [hnil] at hlength
    simp at hlength
  · intro rest
    rw [hline]
    exact hkey.solid _
  · intro rest
    rw [hline]
    exact takes_statementLine (takes_statement_assign hkey htext rest)

theorem spells_header {path : List (List Char)} {key : List Char} (hpath : ∀ key ∈ path, Bare key)
    (hkey : Bare key) (hlength : path.length ≤ depthLimit) :
    Spells ('[' :: (['.'].intercalate (path ++ [key]) ++ [']', '\n']))
      [.header (path.map String.ofList) (String.ofList key)] := by
  apply spells_line
  · exact List.cons_ne_nil _ _
  · exact fun rest => solid_cons (by decide) _
  · intro rest
    rw [List.cons_append, List.append_assoc]
    exact takes_statementLine (takes_statement_header hpath hkey hlength rest)

/-- What is written for an entry of a table is read as that entry. -/
structure Shows (written : String × String) (entry : String × Value) : Prop where
  key : written.1 = entry.1
  bare : Bare entry.1.toList
  means : Means written.2 entry.2

theorem spells_entries {written : List (String × String)} {entries : List (String × Value)}
    (h : List.Forall₂ Shows written entries) :
    Spells (String.join (written.map fun (key, value) => key ++ " = " ++ value ++ "\n")).toList
      (entries.map fun entry => .assign [] entry.1 entry.2) := by
  rw [String.toList_join, List.flatMap_map]
  induction h with
  | nil => exact spells_nil
  | @cons first entry _ _ hentry _ ih =>
    have hfirst := spells_entry hentry.bare hentry.means
    rw [← hentry.key] at hfirst
    rw [List.flatMap_cons, List.map_cons, ← hentry.key]
    exact hfirst.append ih

/-- The text of a table is read as its header and its entries. -/
theorem spells_tableText {path : List String} {key header : String}
    {written : List (String × String)} {entries : List (String × Value)}
    (hheader : header.toList = ['.'].intercalate ((path ++ [key]).map String.toList))
    (hpath : ∀ key ∈ path, Bare key.toList) (hkey : Bare key.toList)
    (hlength : path.length ≤ depthLimit) (hentries : List.Forall₂ Shows written entries) :
    Spells (tableText header written).toList (tableStatements path key entries) := by
  rw [List.map_append, List.map_singleton] at hheader
  have hline : ("[" ++ header ++ "]\n").toList =
      '[' :: (['.'].intercalate (path.map String.toList ++ [key.toList]) ++ [']', '\n']) := by
    rw [String.toList_append, String.toList_append, hheader]
    rfl
  have hnames : (path.map String.toList).map String.ofList = path := by
    rw [List.map_map]
    exact List.map_id'' (fun key => String.ofList_toList) path
  have hfirst := spells_header (List.forall_mem_map.2 hpath) hkey
    (by rwa [List.length_map] : (path.map String.toList).length ≤ depthLimit)
  rw [hnames, String.ofList_toList] at hfirst
  rw [tableText, String.toList_append, hline]
  exact hfirst.append (spells_entries hentries)

-- Empty lines between texts add nothing.
theorem spells_intercalate {texts : List (List Char)} {parts : List (List Statement)}
    (h : List.Forall₂ Spells texts parts) : Spells (['\n'].intercalate texts) parts.flatten := by
  induction h with
  | nil => exact spells_nil
  | @cons text part texts parts htext hrest ih =>
    cases hrest with
    | nil =>
      rw [List.intercalate_singleton, List.flatten_singleton]
      exact htext
    | cons =>
      rw [List.intercalate_cons_cons, List.flatten_cons, List.append_assoc]
      exact htext.append (spells_newline.append ih)

/-- A document is the table of the statements it spells. -/
theorem parse_of_spells {text : String} (h : Spells text.toList added)
    (hmark : text.toList.head? ≠ some '\uFEFF') : parse text = Table.ofStatements added := by
  have hstatements : statements [] text.toList = some added := by
    have hread := h [] []
    have hnothing : skipTrivia [] = [] := Solid.skipTrivia fun _ hc => nomatch hc
    have hend : statements added.reverse [] = some added := by
      rw [statements_of_isEmpty, List.reverse_reverse]
      rw [hnothing]
      rfl
    rw [List.append_nil, List.append_nil] at hread
    exact hread.trans hend
  unfold parse
  split
  rename_i htext
  · rw [htext] at hmark
    exact absurd rfl hmark
  · dsimp only
    rw [hstatements, Option.bind_some]

end Documents

end RecordQuery.Toml
