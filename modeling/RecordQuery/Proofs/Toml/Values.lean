import RecordQuery.Proofs.Toml.Strings
import RecordQuery.Toml.Reader

/-!
# Reading keys and values back

Main statements: a path of bare keys with dots in between is read as its keys, and a string or a
list of strings that has been written is read as what it was written for, with what stands behind
it left.
-/

namespace RecordQuery.Toml

/-! ## Blanks and line ends -/

/-- What stands here is neither skipped between statements nor at the end of a line. -/
def Solid (s : List Char) : Prop :=
  ∀ c ∈ s.head?, isBlank c = false ∧ c ≠ '#' ∧ c ≠ '\n' ∧ c ≠ '\r'

theorem solid_cons {c : Char} (h : isBlank c = false ∧ c ≠ '#' ∧ c ≠ '\n' ∧ c ≠ '\r')
    (rest : List Char) : Solid (c :: rest) :=
  Text.forall_head?_cons.2 h

section Skipping

variable {s : List Char}

theorem skipBlanks_of_head? (h : ∀ c ∈ s.head?, isBlank c = false) : skipBlanks s = s := by
  cases s with
  | nil => rfl
  | cons c s =>
    rw [skipBlanks, List.dropWhile_cons, h c rfl]
    rfl

theorem skipBlanks_cons {c : Char} (hc : isBlank c = true) (s : List Char) :
    skipBlanks (c :: s) = skipBlanks s := by
  rw [skipBlanks, List.dropWhile_cons, if_pos hc]
  rfl

theorem Solid.skipBlanks (h : Solid s) : skipBlanks s = s :=
  skipBlanks_of_head? fun c hc => (h c hc).1

theorem skipTrivia_of_none (h : triviaRest? (skipBlanks s) = none) :
    skipTrivia s = skipBlanks s := by
  rw [skipTrivia, h]

theorem skipTrivia_of_some {left : Rest Char (skipBlanks s).length}
    (h : triviaRest? (skipBlanks s) = some left) : skipTrivia s = skipTrivia left.1 := by
  rw [skipTrivia, h]

theorem Solid.skipTrivia (h : Solid s) : skipTrivia s = s := by
  have hnone : triviaRest? s = none := by
    unfold triviaRest? newline?
    split
    · exact absurd rfl (h '#' rfl).2.1
    · split
      · exact absurd rfl (h '\n' rfl).2.2.1
      · exact absurd rfl (h '\r' rfl).2.2.2
      · rfl
  rw [skipTrivia_of_none, h.skipBlanks]
  rw [h.skipBlanks]
  exact hnone

theorem skipTrivia_newline (s : List Char) : skipTrivia ('\n' :: s) = skipTrivia s := by
  have hsome : triviaRest? (skipBlanks ('\n' :: s)) = some (.tail '\n' s) := rfl
  rw [skipTrivia_of_some hsome]
  rfl

theorem skipTrivia_blank {c : Char} (hc : isBlank c = true) (s : List Char) :
    skipTrivia (c :: s) = skipTrivia s := by
  have hblanks := skipBlanks_cons hc s
  cases h : triviaRest? (skipBlanks s) with
  | none =>
    rw [skipTrivia_of_none h]
    rw [← hblanks] at h
    rw [skipTrivia_of_none h, hblanks]
  | some left =>
    rw [skipTrivia_of_some h]
    revert left
    rw [← hblanks]
    exact fun left h => skipTrivia_of_some h

-- Blanks and line ends are skipped up to what is neither.
theorem skipTrivia_append {front : List Char}
    (hfront : front.all (fun c => isBlank c || c == '\n') = true) (h : Solid s) :
    skipTrivia (front ++ s) = s := by
  induction front with
  | nil => exact h.skipTrivia
  | cons c front ih =>
    rw [List.all_cons, Bool.and_eq_true, Bool.or_eq_true, beq_iff_eq] at hfront
    obtain ⟨hc, hmore⟩ := hfront
    rw [List.cons_append]
    rcases hc with hc | rfl
    · rw [skipTrivia_blank hc, ih hmore]
    · rw [skipTrivia_newline, ih hmore]

end Skipping

/-! ## Keys -/

/-- A key that needs no quotes. -/
def Bare (key : List Char) : Prop := key ≠ [] ∧ key.all isBareKey = true

instance (key : List Char) : Decidable (Bare key) := inferInstanceAs (Decidable (_ ∧ _))

/-- No further key follows. -/
def EndsKeys (rest : List Char) : Prop :=
  (∀ c ∈ rest.head?, isBareKey c = false) ∧ (skipBlanks rest).head? ≠ some '.'

theorem ne_of_isBareKey {c d : Char} (hc : isBareKey c = true) (hd : isBareKey d = false) :
    c ≠ d := by
  rintro rfl
  rw [hc] at hd
  exact Bool.noConfusion hd

theorem isBlank_of_isBareKey {c : Char} (h : isBareKey c = true) : isBlank c = false := by
  rw [isBlank, Bool.or_eq_false_iff, beq_eq_false_iff_ne, beq_eq_false_iff_ne]
  exact ⟨ne_of_isBareKey h (by decide), ne_of_isBareKey h (by decide)⟩

section Keys

variable {key rest s : List Char}

theorem Bare.head? (h : Bare key) (rest : List Char) :
    ∀ c ∈ (key ++ rest).head?, isBareKey c = true := by
  obtain ⟨hne, hall⟩ := h
  obtain ⟨d, key, rfl⟩ := List.exists_cons_of_ne_nil hne
  exact Text.forall_head?_cons.2 (List.all_eq_true.1 hall d List.mem_cons_self)

theorem Bare.solid (h : Bare key) (rest : List Char) : Solid (key ++ rest) := by
  intro c hc
  have hbare := h.head? rest c hc
  exact ⟨isBlank_of_isBareKey hbare, ne_of_isBareKey hbare (by decide),
    ne_of_isBareKey hbare (by decide), ne_of_isBareKey hbare (by decide)⟩

theorem takes_simpleKey (h : Bare key) (hrest : ∀ c ∈ rest.head?, isBareKey c = false) :
    Takes (simpleKey (key ++ rest)) (String.ofList key) rest := by
  obtain ⟨hne, hall⟩ := h
  obtain ⟨c, key, rfl⟩ := List.exists_cons_of_ne_nil hne
  obtain ⟨hc, hkey⟩ := List.forall_mem_cons.1 (List.all_eq_true.1 hall)
  have hdrop : (key ++ rest).dropWhile isBareKey = rest :=
    Text.dropWhile_append_of_stop hkey hrest
  have hlength : rest.length < (c :: key ++ rest).length := by
    rw [List.length_append, List.length_cons]
    omega
  rw [List.cons_append, simpleKey, if_pos hc, Text.takeWhile_append_of_stop hkey hrest]
  · exact ⟨hlength, congrArg some (Prod.ext rfl (Subtype.ext hdrop))⟩
  · exact ne_of_isBareKey hc (by decide)
  · exact ne_of_isBareKey hc (by decide)

theorem takes_nextKey (h : Bare key) (hrest : ∀ c ∈ rest.head?, isBareKey c = false) :
    Takes (nextKey ('.' :: (key ++ rest))) (String.ofList key) rest := by
  have hkey : Takes (simpleKey (skipBlanks (key ++ rest))) (String.ofList key) rest := by
    rw [(h.solid rest).skipBlanks]
    exact takes_simpleKey h hrest
  obtain ⟨_, hkey⟩ := hkey
  unfold nextKey
  split
  · rename_i behind heq
    obtain rfl := (List.cons.inj heq).2
    show Takes (Option.map _ (simpleKey (skipBlanks (key ++ rest)))) _ _
    rw [hkey]
    exact ⟨_, rfl⟩
  · rename_i hother
    exact absurd rfl (hother _)

theorem takes_moreKeys_end {bound : Nat} (read : List String) (hs : EndsKeys s)
    (h : s.length ≤ bound) : Takes (moreKeys bound read s h) read s := by
  rw [moreKeys, if_neg (by rw [beq_iff_eq]; exact hs.2)]
  exact ⟨_, rfl⟩

-- In front of more keys, a key ends as it does in front of what comes behind them.
theorem head?_flatMap_append (keys : List (List Char)) (hrest : EndsKeys rest) :
    ∀ c ∈ (keys.flatMap ('.' :: ·) ++ rest).head?, isBareKey c = false := by
  cases keys with
  | nil => exact hrest.1
  | cons key keys => exact Text.forall_head?_cons.2 rfl

-- Keys behind dots are read one by one.
theorem takes_moreKeys {keys : List (List Char)} (hkeys : ∀ key ∈ keys, Bare key)
    (hrest : EndsKeys rest) (bound : Nat) (read : List String)
    (hs : s = keys.flatMap ('.' :: ·) ++ rest) (h : s.length ≤ bound) :
    Takes (moreKeys bound read s h) ((keys.map String.ofList).reverse ++ read) rest := by
  induction keys generalizing read s with
  | nil =>
    subst hs
    exact takes_moreKeys_end read hrest h
  | cons key keys ih =>
    obtain ⟨hkey, hkeys⟩ := List.forall_mem_cons.1 hkeys
    rw [List.flatMap_cons, List.append_assoc, List.cons_append] at hs
    subst hs
    obtain ⟨_, hnext⟩ := takes_nextKey hkey (head?_flatMap_append keys hrest)
    rw [moreKeys, if_pos (by rfl), hnext, List.map_cons, List.reverse_cons, List.append_assoc]
    exact ih hkeys _ rfl _

theorem head?_keys {path : List (List Char)} (hpath : ∀ key ∈ path, Bare key) (hkey : Bare key)
    (rest : List Char) :
    ∀ c ∈ (['.'].intercalate (path ++ [key]) ++ rest).head?, isBareKey c = true := by
  cases path with
  | nil =>
    rw [List.nil_append, List.intercalate_singleton]
    exact hkey.head? rest
  | cons first path =>
    rw [List.cons_append, Text.intercalate_cons_eq_append_flatMap, List.append_assoc]
    exact (hpath first List.mem_cons_self).head? _

/-- A path of keys with a last one, dots between them. -/
theorem takes_dottedKey {path : List (List Char)} (hpath : ∀ key ∈ path, Bare key) (hkey : Bare key)
    (hlength : path.length ≤ depthLimit) (hrest : EndsKeys rest) :
    Takes (dottedKey (['.'].intercalate (path ++ [key]) ++ rest))
      (path.map String.ofList, String.ofList key) rest := by
  obtain ⟨first, others, hkeys⟩ : ∃ first others, path ++ [key] = first :: others :=
    List.exists_cons_of_ne_nil (List.append_ne_nil_of_right_ne_nil _ (List.cons_ne_nil _ _))
  have hbare : ∀ key ∈ first :: others, Bare key := by
    rw [← hkeys]
    exact List.forall_mem_append.2 ⟨hpath, List.forall_mem_singleton.2 hkey⟩
  obtain ⟨hfirst, hothers⟩ := List.forall_mem_cons.1 hbare
  obtain ⟨_, hsimple⟩ := takes_simpleKey hfirst (head?_flatMap_append others hrest)
  obtain ⟨_, hmore⟩ := takes_moreKeys hothers hrest _ [String.ofList first] rfl
    (Reading.length_le_self _)
  have hread : (others.map String.ofList).reverse ++ [String.ofList first] =
      String.ofList key :: (path.map String.ofList).reverse := by
    rw [← List.reverse_cons, ← List.map_cons, ← hkeys, List.map_append, List.reverse_append]
    rfl
  rw [hread] at hmore
  rw [hkeys, Text.intercalate_cons_eq_append_flatMap, List.append_assoc]
  unfold dottedKey
  simp only [hsimple, keysFrom, hmore, List.length_reverse, List.length_map,
    if_neg (Nat.not_lt_of_le hlength), List.reverse_reverse]
  exact ⟨_, rfl⟩

end Keys

/-! ## Values -/

theorem exists_cons_quoteChars (text : List Char) :
    ∃ c rest, quoteChars text = c :: rest ∧ (c = '"' ∨ c = '\'') := by
  unfold quoteChars
  cases chooseQuoting text with
  | basic => exact ⟨'"', _, rfl, .inl rfl⟩
  | literal => exact ⟨'\'', _, rfl, .inr rfl⟩
  | longBasic => exact ⟨'"', _, rfl, .inl rfl⟩
  | longLiteral => exact ⟨'\'', _, rfl, .inr rfl⟩

section Values

variable {rest s : List Char}

theorem takes_valueWith_quoteChars (item : Reader Value) (text : List Char) (h : Unquoted rest) :
    Takes (valueWith item (quoteChars text ++ rest)) (.string (String.ofList text)) rest := by
  have hstring := takes_string_quoteChars text h
  obtain ⟨c, more, hmore, hc⟩ := exists_cons_quoteChars text
  rw [hmore] at hstring ⊢
  obtain ⟨_, hstring⟩ := hstring
  rcases hc with rfl | rfl
  · show Takes (Option.map _ (string ('"' :: more ++ rest))) _ _
    rw [hstring]
    exact ⟨_, rfl⟩
  · show Takes (Option.map _ (string ('\'' :: more ++ rest))) _ _
    rw [hstring]
    exact ⟨_, rfl⟩

theorem takes_value_quoteChars (room : Nat) (text : List Char) (h : Unquoted rest) :
    Takes (value room (quoteChars text ++ rest)) (.string (String.ofList text)) rest := by
  cases room with
  | succ room => exact takes_valueWith_quoteChars (value room) text h
  | zero =>
    have hvalue := takes_valueWith_quoteChars (fun _ => none) text h
    obtain ⟨c, more, hmore, hc⟩ := exists_cons_quoteChars text
    rw [hmore] at hvalue ⊢
    rcases hc with rfl | rfl
    · exact hvalue
    · exact hvalue

end Values

/-! ## Lists of strings -/

section Series

variable {α : Type} {closing : Char} {item : Reader α} {s t rest : List Char}

theorem takes_part_end (rest : List Char) :
    Takes (part closing item (closing :: rest)) (none, false) rest := by
  rw [part]
  rw [if_pos rfl]
  exact ⟨_, rfl⟩

theorem takes_partEnd {mark : Char} (hmark : mark = ',' ∨ mark = closing) (hclosing : closing ≠ ',')
    (rest : List Char) : Takes (partEnd closing (mark :: rest)) (mark == ',') rest := by
  rw [partEnd]
  rcases hmark with rfl | rfl
  · rw [if_pos rfl]
    exact ⟨_, rfl⟩
  · rw [if_neg hclosing, if_pos rfl, beq_eq_false_iff_ne.2 hclosing]
    exact ⟨_, rfl⟩

theorem takes_part {x : α} {mark : Char} (hne : s ≠ []) (hs : ∀ c ∈ s.head?, c ≠ closing)
    (hitem : Takes (item s) x t) (ht : skipTrivia t = mark :: rest)
    (hmark : mark = ',' ∨ mark = closing) (hclosing : closing ≠ ',') :
    Takes (part closing item s) (some x, mark == ',') rest := by
  obtain ⟨c, s, rfl⟩ := List.exists_cons_of_ne_nil hne
  obtain ⟨_, hitem⟩ := hitem
  have hend : Takes (partEnd closing (skipTrivia t)) (mark == ',') rest := by
    rw [ht]
    exact takes_partEnd hmark hclosing rest
  obtain ⟨_, hend⟩ := hend
  rw [part]
  rw [if_neg (hs c rfl), hitem]
  show Takes (Option.map _ (partEnd closing (skipTrivia t))) _ _
  rw [hend]
  exact ⟨_, rfl⟩

theorem takes_moreParts_more {x : Option α} {bound : Nat} {read all : List α}
    (hpart : Takes (part closing item (skipTrivia s)) (x, true) t)
    (hnext : ∀ h, Takes (moreParts closing item bound (x.toList ++ read) t h) all rest)
    (h : s.length ≤ bound) : Takes (moreParts closing item bound read s h) all rest := by
  obtain ⟨_, hpart⟩ := hpart
  rw [moreParts, hpart]
  exact hnext _

theorem takes_moreParts_end {x : Option α} {bound : Nat} {read : List α}
    (hpart : Takes (part closing item (skipTrivia s)) (x, false) rest) (h : s.length ≤ bound) :
    Takes (moreParts closing item bound read s h) (x.toList ++ read) rest := by
  obtain ⟨_, hpart⟩ := hpart
  rw [moreParts, hpart]
  exact ⟨_, rfl⟩

end Series

section Lists

variable {rest s : List Char}

theorem toList_quote (text : String) : (quote text).toList = quoteChars text.toList :=
  String.toList_ofList

theorem head?_quoteChars (text rest : List Char) :
    ∀ c ∈ (quoteChars text ++ rest).head?, c = '"' ∨ c = '\'' := by
  obtain ⟨c, more, hmore, hc⟩ := exists_cons_quoteChars text
  rw [hmore]
  exact Text.forall_head?_cons.2 hc

theorem solid_quoteChars (text rest : List Char) : Solid (quoteChars text ++ rest) := by
  intro c hc
  rcases head?_quoteChars text rest c hc with rfl | rfl
  · decide
  · decide

theorem quoteChars_append_ne_nil (text rest : List Char) : quoteChars text ++ rest ≠ [] := by
  obtain ⟨c, more, hmore, _⟩ := exists_cons_quoteChars text
  rw [hmore]
  exact List.cons_ne_nil _ _

-- A string in a list, with the mark that stands behind it.
theorem takes_part_quoteChars (room : Nat) (text : List Char) {mark : Char}
    (hmark : mark = ',' ∨ mark = ']') (rest : List Char) :
    Takes (part ']' (value room) (quoteChars text ++ mark :: rest))
      (some (.string (String.ofList text)), mark == ',') rest := by
  have hhead : ∀ c ∈ (quoteChars text ++ mark :: rest).head?, c ≠ ']' := by
    intro c hc
    rcases head?_quoteChars text _ c hc with rfl | rfl
    · decide
    · decide
  have hunquoted : Unquoted (mark :: rest) := by
    apply unquoted_cons
    rcases hmark with rfl | rfl
    · decide
    · decide
  have hsolid : Solid (mark :: rest) := by
    apply solid_cons
    rcases hmark with rfl | rfl
    · decide
    · decide
  exact takes_part (quoteChars_append_ne_nil _ _) hhead (takes_value_quoteChars room text hunquoted)
    hsolid.skipTrivia hmark (by decide)

-- A string of a list on its line.
def listLine (text : String) : List Char :=
  [' ', ' ', ' ', ' '] ++ (quoteChars text.toList ++ [',', '\n'])

theorem takes_moreParts_lines (room : Nat) (texts : List String) (rest : List Char) (bound : Nat)
    (read : List Value) (hs : s = '\n' :: (texts.flatMap listLine ++ ']' :: rest))
    (h : s.length ≤ bound) :
    Takes (moreParts ']' (value room) bound read s h) ((texts.map .string).reverse ++ read)
      rest := by
  induction texts generalizing read s with
  | nil =>
    have hskip : skipTrivia s = ']' :: rest := by
      have hclosing : Solid (']' :: rest) := solid_cons (by decide) rest
      rw [hs, List.flatMap_nil, List.nil_append, skipTrivia_newline, hclosing.skipTrivia]
    have hpart : Takes (part ']' (value room) (skipTrivia s)) (none, false) rest := by
      rw [hskip]
      exact takes_part_end rest
    exact takes_moreParts_end hpart h
  | cons text texts ih =>
    have hskip : skipTrivia s = quoteChars text.toList ++ ',' ::
        '\n' :: (texts.flatMap listLine ++ ']' :: rest) := by
      have hsplit : s = ['\n', ' ', ' ', ' ', ' '] ++ (quoteChars text.toList ++ ',' ::
          '\n' :: (texts.flatMap listLine ++ ']' :: rest)) := by
        rw [hs, List.flatMap_cons, listLine, List.append_assoc, List.append_assoc,
          List.append_assoc]
        rfl
      rw [hsplit]
      exact skipTrivia_append (by decide) (solid_quoteChars _ _)
    have hpart : Takes (part ']' (value room) (skipTrivia s))
        (some (.string text), true) ('\n' :: (texts.flatMap listLine ++ ']' :: rest)) := by
      have hstring := takes_part_quoteChars room text.toList (.inl rfl)
        ('\n' :: (texts.flatMap listLine ++ ']' :: rest))
      rw [String.ofList_toList] at hstring
      rw [hskip]
      exact hstring
    apply takes_moreParts_more hpart
    intro h
    rw [List.map_cons, List.reverse_cons, List.append_assoc]
    exact ih _ rfl h

theorem exists_cons_quoteList (texts : List String) :
    ∃ more, (quoteList texts).toList = '[' :: more := by
  match texts with
  | [] => exact ⟨[']'], rfl⟩
  | [text] =>
    refine ⟨(quote text ++ "]").toList, ?_⟩
    rw [quoteList, String.append_assoc, String.toList_append]
    rfl
  | first :: second :: texts =>
    refine ⟨'\n' :: (String.join ((first :: second :: texts).map fun text =>
      "    " ++ quote text ++ ",\n") ++ "]").toList, ?_⟩
    show ("[\n" ++ _ ++ "]" : String).toList = _
    rw [String.append_assoc, String.toList_append]
    rfl

theorem takes_value_array {room : Nat} {values : List Value}
    (h : Takes (moreParts ']' (value room) s.length [] s (Reading.length_le_self s)) values.reverse
      rest) : Takes (value (room + 1) ('[' :: s)) (.array values) rest := by
  obtain ⟨_, h⟩ := h
  show Takes (Option.map _ (series ']' (value room) s)) _ _
  rw [series, h]
  simp only [Option.map_some, List.reverse_reverse]
  exact ⟨_, rfl⟩

/-- A list of strings that has been written is read as that list. -/
theorem takes_value_quoteList (room : Nat) (texts : List String) (rest : List Char) :
    Takes (value (room + 1) ((quoteList texts).toList ++ rest)) (.array (texts.map .string))
      rest := by
  match texts with
  | [] =>
    apply takes_value_array
    have hskip : skipTrivia (']' :: rest) = ']' :: rest :=
      (solid_cons (by decide) rest).skipTrivia
    have hpart : Takes (part ']' (value room) (skipTrivia (']' :: rest))) (none, false) rest := by
      rw [hskip]
      exact takes_part_end rest
    exact takes_moreParts_end hpart _
  | [text] =>
    have htext : (quoteList [text]).toList ++ rest =
        '[' :: (quoteChars text.toList ++ ']' :: rest) := by
      rw [quoteList, String.toList_append, String.toList_append, toList_quote, List.append_assoc,
        List.append_assoc]
      rfl
    rw [htext]
    apply takes_value_array
    have hpart : Takes (part ']' (value room) (skipTrivia (quoteChars text.toList ++ ']' :: rest)))
        (some (.string text), false) rest := by
      have hstring := takes_part_quoteChars room text.toList (.inr rfl) rest
      rw [String.ofList_toList] at hstring
      rw [(solid_quoteChars _ _).skipTrivia]
      exact hstring
    exact takes_moreParts_end hpart _
  | first :: second :: texts =>
    have htext : (quoteList (first :: second :: texts)).toList ++ rest =
        '[' :: '\n' :: ((first :: second :: texts).flatMap listLine ++ ']' :: rest) := by
      have hline : (fun text => ("    " ++ quote text ++ ",\n").toList) = listLine := by
        funext text
        rw [String.toList_append, String.toList_append, toList_quote, List.append_assoc]
        rfl
      have hlist : quoteList (first :: second :: texts) =
          "[\n" ++ String.join ((first :: second :: texts).map fun text =>
            "    " ++ quote text ++ ",\n") ++ "]" := rfl
      rw [hlist, String.toList_append, String.toList_append, String.toList_join,
        List.flatMap_map, hline, List.append_assoc, List.append_assoc]
      rfl
    rw [htext]
    apply takes_value_array
    have hlines := takes_moreParts_lines room (first :: second :: texts) rest _ [] rfl
      (Reading.length_le_self _)
    rw [List.append_nil] at hlines
    exact hlines

end Lists

end RecordQuery.Toml
