import RecordQuery.Proofs.Text.Splitting
import RecordQuery.Toml.Printer
import RecordQuery.Toml.Strings

/-!
# Reading strings back

A string that has been written is read as the text it was written for. Main statement: whichever of
the four kinds of string is chosen for a text, `string` reads what `quoteChars` writes and leaves
what stands behind it, unless that goes on with a quote.
-/

namespace RecordQuery.Toml

/-- Something has been read, and this is left. -/
def Takes {α : Type} {p : List Char → Prop} (result : Option (α × Subtype p)) (x : α)
    (rest : List Char) : Prop :=
  ∃ h, result = some (x, ⟨rest, h⟩)

/-! ## Escapes -/

/-- Behind a backslash the code stands for the character, and does not end the line. -/
def Escapes (code : List Char) (c : Char) : Prop :=
  ∀ rest, Takes (escape (code ++ rest)) c rest ∧ lineEnd? (code ++ rest) = none

theorem hexDigit_code : ∀ n < 128,
    natOfDigits 16 ['0', '0', hexDigit (n / 16), hexDigit (n % 16)] = n ∧
      isHexDigit (hexDigit (n / 16)) = true ∧ isHexDigit (hexDigit (n % 16)) = true := by
  decide +kernel

theorem escapes_code {c : Char} (h : c.toNat < 128) :
    Escapes ['u', '0', '0', hexDigit (c.toNat / 16), hexDigit (c.toNat % 16)] c := by
  intro rest
  obtain ⟨hvalue, hhigh, hlow⟩ := hexDigit_code c.toNat h
  have hvalid : Nat.isValidChar c.toNat := .inl (by omega)
  have hdigits :
      ['0', '0', hexDigit (c.toNat / 16), hexDigit (c.toNat % 16)].all isHexDigit = true := by
    rw [List.all_cons, List.all_cons, List.all_cons, List.all_cons, hhigh, hlow]
    decide
  have hcode : Takes (codeEscape 4
      (['0', '0', hexDigit (c.toNat / 16), hexDigit (c.toNat % 16)] ++ rest)) c rest := by
    have htake : (['0', '0', hexDigit (c.toNat / 16), hexDigit (c.toNat % 16)] ++ rest).take 4 =
        ['0', '0', hexDigit (c.toNat / 16), hexDigit (c.toNat % 16)] := rfl
    unfold codeEscape
    simp only [htake, hdigits, hvalue, hvalid]
    exact ⟨_, congrArg some (Prod.ext (Char.ofNat_toNat c) rfl)⟩
  obtain ⟨_, hcode⟩ := hcode
  refine ⟨?_, rfl⟩
  unfold escape
  simp only [List.cons_append, List.nil_append] at hcode ⊢
  rw [hcode]
  exact ⟨_, rfl⟩

/-- A character that is no quote stands for itself, or is written with a backslash. -/
theorem escapeBasic_cons {c : Char} (hc : c ≠ '"') (long : Bool) (run : Nat) (rest : List Char) :
    (escapeBasic long run (c :: rest) = c :: escapeBasic long 0 rest ∧ c ≠ '\\' ∧
        (isPlain c = true ∨ (long = true ∧ c = '\n'))) ∨
      ∃ code, escapeBasic long run (c :: rest) = '\\' :: (code ++ escapeBasic long 0 rest) ∧
        Escapes code c := by
  generalize htext : c :: rest = text
  fun_cases escapeBasic long run text with
  | case1 => exact nomatch htext
  | case2 | case3 => exact absurd (List.cons.inj htext).1 hc
  | case4 c rest =>
    obtain ⟨rfl, rfl⟩ := List.cons.inj htext
    split
    · exact .inr ⟨['b'], rfl, fun rest => ⟨⟨_, rfl⟩, rfl⟩⟩
    · exact .inr ⟨['t'], rfl, fun rest => ⟨⟨_, rfl⟩, rfl⟩⟩
    · cases long with
      | true => exact .inl ⟨rfl, by decide, .inr ⟨rfl, rfl⟩⟩
      | false => exact .inr ⟨['n'], rfl, fun rest => ⟨⟨_, rfl⟩, rfl⟩⟩
    · exact .inr ⟨['f'], rfl, fun rest => ⟨⟨_, rfl⟩, rfl⟩⟩
    · exact .inr ⟨['r'], rfl, fun rest => ⟨⟨_, rfl⟩, rfl⟩⟩
    · exact .inr ⟨['\\'], rfl, fun rest => ⟨⟨_, rfl⟩, rfl⟩⟩
    · rename_i hbackslash
      split
      · rename_i hcontrol
        rw [Bool.or_eq_true, decide_eq_true_eq, beq_iff_eq] at hcontrol
        exact .inr ⟨_, rfl, escapes_code (by omega)⟩
      · rename_i hplain
        rw [Bool.or_eq_true, decide_eq_true_eq, beq_iff_eq, not_or] at hplain
        refine .inl ⟨rfl, hbackslash, .inl ?_⟩
        rw [isPlain, Bool.or_eq_true, Bool.and_eq_true, decide_eq_true_eq, bne_iff_ne]
        exact .inr ⟨by omega, hplain.2⟩

/-! ## Basic strings on one line -/

section Basic

variable {bound : Nat} {s : List Char}

theorem basicChars_quote (read : List Char) (h : ('"' :: s).length ≤ bound) :
    basicChars bound read ('"' :: s) h = some (read, ⟨s, h⟩) := by
  unfold basicChars
  rfl

theorem basicChars_plain {c : Char} (read : List Char) (hplain : isPlain c = true)
    (hquote : c ≠ '"') (hbackslash : c ≠ '\\') (h : (c :: s).length ≤ bound) :
    basicChars bound read (c :: s) h =
      basicChars bound (c :: read) s (Reading.length_le_of_cons h) := by
  rw [basicChars]
  · exact if_pos hplain
  · exact hquote
  · exact hbackslash

theorem basicChars_backslash {c : Char} {left : List Char} (read : List Char)
    (hescape : Takes (escape s) c left)
    (h : ('\\' :: s).length ≤ bound) :
    ∃ h', basicChars bound read ('\\' :: s) h = basicChars bound (c :: read) left h' := by
  obtain ⟨hleft, hescape⟩ := hescape
  refine ⟨Reading.length_le_of_le_of_cons hleft h, ?_⟩
  rw [basicChars, hescape]

end Basic

theorem takes_escape_quote (s : List Char) : Takes (escape ('"' :: s)) '"' s := ⟨_, rfl⟩

theorem basicChars_escapeBasic (text rest : List Char) (run bound : Nat) (read : List Char)
    {s : List Char} (hs : s = escapeBasic false run text ++ '"' :: rest) (h : s.length ≤ bound) :
    Takes (basicChars bound read s h) (text.reverse ++ read) rest := by
  induction text generalizing run read s with
  | nil =>
    subst hs
    exact ⟨h, basicChars_quote read h⟩
  | cons c text ih =>
    rw [List.reverse_cons, List.append_assoc, List.singleton_append]
    by_cases hc : c = '"'
    · subst hc
      have hs : s = '\\' :: '"' :: (escapeBasic false 0 text ++ '"' :: rest) := by
        rw [hs, escapeBasic]
        rfl
      subst hs
      obtain ⟨h', hstep⟩ := basicChars_backslash read (takes_escape_quote _) h
      rw [hstep]
      exact ih 0 _ rfl h'
    · rcases escapeBasic_cons hc false run text with ⟨heq, hbackslash, hplain⟩ | ⟨code, heq, hcode⟩
      · obtain hplain := hplain.resolve_right fun hlong => Bool.noConfusion hlong.1
        rw [heq, List.cons_append] at hs
        subst hs
        rw [basicChars_plain read hplain hc hbackslash]
        exact ih 0 _ rfl _
      · rw [heq, List.cons_append, List.append_assoc] at hs
        subst hs
        obtain ⟨h', hstep⟩ := basicChars_backslash read (hcode _).1 h
        rw [hstep]
        exact ih 0 _ rfl h'

/-! ## Strings over several lines -/

/-- How many quotes a text begins with. -/
def leading (quote : Char) (text : List Char) : Nat := (text.takeWhile (· == quote)).length

/-- What a string over several lines may hold for a text: characters one by one, each with less than
three quotes in front of what is no quote, and perhaps some more quotes at the end. -/
inductive Body (quote : Char) (escapes : Bool) : (body text : List Char) → Prop
  | quotes {n : Nat} (h : n ≤ 2) :
    Body quote escapes (List.replicate n quote) (List.replicate n quote)
  | char {front body : List Char} {c : Char} {text : List Char}
    (hopen : ∀ after, leading quote (front ++ (body ++ after)) ≤ 2)
    (hfront : ∀ after, Takes (longPiece escapes (front ++ after)) [c] after)
    (h : Body quote escapes body text) : Body quote escapes (front ++ body) (c :: text)

section Long

variable {quote : Char} {escapes : Bool} {body text rest s : List Char}

theorem closing?_eq_none (h : leading quote s ≤ 2) : closing? quote s = none := by
  unfold closing?
  rw [dif_neg]
  unfold closingCount leading at *
  omega

theorem leading_replicate (n : Nat) (h : ∀ c ∈ rest.head?, c ≠ quote) :
    leading quote (List.replicate n quote ++ rest) = n := by
  unfold leading
  rw [Text.takeWhile_append_of_stop, List.length_replicate]
  · intro c hc
    rw [List.eq_of_mem_replicate hc, beq_self_eq_true]
  · intro c hc
    rw [beq_eq_false_iff_ne]
    exact h c hc

theorem takes_closing? {n : Nat} (hn : n ≤ 2) (h : ∀ c ∈ rest.head?, c ≠ quote) :
    Takes (closing? quote (List.replicate n quote ++ (List.replicate 3 quote ++ rest)))
      (List.replicate n quote) rest := by
  rw [← List.append_assoc, List.replicate_append_replicate]
  have hcount : closingCount quote (List.replicate (n + 3) quote ++ rest) = n + 3 := by
    have hleading := leading_replicate (n + 3) h
    unfold closingCount
    unfold leading at hleading
    omega
  have hdrop : (List.replicate (n + 3) quote ++ rest).drop (n + 3) = rest :=
    List.drop_left' List.length_replicate
  unfold closing?
  rw [dif_pos (by rw [hcount]; omega)]
  simp only [hcount, hdrop, Nat.add_sub_cancel]
  exact ⟨_, rfl⟩

-- The body of a string over several lines says what the string says.
theorem longChars_of_body (hbody : Body quote escapes body text)
    (hrest : ∀ c ∈ rest.head?, c ≠ quote) (bound : Nat) (read : List Char)
    (hs : s = body ++ (List.replicate 3 quote ++ rest)) (h : s.length ≤ bound) :
    Takes (longChars quote escapes bound read s h) (text.reverse ++ read) rest := by
  induction hbody generalizing read s with
  | @quotes n hn =>
    subst hs
    obtain ⟨hclosing, heq⟩ := takes_closing? hn hrest
    rw [longChars, heq, List.reverse_replicate]
    exact ⟨_, rfl⟩
  | @char front body c text hopen hfront _ ih =>
    rw [List.append_assoc] at hs
    subst hs
    obtain ⟨hlong, hpiece⟩ := hfront (body ++ (List.replicate 3 quote ++ rest))
    rw [longChars, closing?_eq_none (hopen _), hpiece, List.reverse_cons, List.append_assoc]
    exact ih _ rfl _

end Long

/-! ## What may stand between three quotes -/

section Bodies

variable {quote : Char} {text rest : List Char} {run : Nat}

theorem leading_cons_self (text : List Char) :
    leading quote (quote :: text) = leading quote text + 1 := by
  unfold leading
  rw [List.takeWhile_cons, beq_self_eq_true, if_pos rfl, List.length_cons]

theorem leading_cons_of_ne {c : Char} (h : c ≠ quote) (text : List Char) :
    leading quote (c :: text) = 0 := by
  unfold leading
  rw [List.takeWhile_cons, if_neg (mt beq_iff_eq.1 h), List.length_nil]

-- Quotes in front of what is no quote are all there are.
theorem leading_append_of_mem {c : Char} (hc : c ∈ text) (hne : c ≠ quote) (after : List Char) :
    leading quote (text ++ after) = leading quote text := by
  induction text with
  | nil => exact absurd hc List.not_mem_nil
  | cons d text ih =>
    rw [List.cons_append]
    by_cases hd : d = quote
    · subst hd
      rw [leading_cons_self, leading_cons_self, ih ((List.mem_cons.1 hc).resolve_left hne)]
    · rw [leading_cons_of_ne hd, leading_cons_of_ne hd]

theorem body_of_forall_eq (hall : ∀ c ∈ text, c = quote) (h : leading quote text ≤ 2)
    (escapes : Bool) : Body quote escapes text text := by
  have htext := List.eq_replicate_of_mem hall
  have hlength : leading quote (List.replicate text.length quote ++ []) = text.length :=
    leading_replicate text.length fun c hc => nomatch hc
  rw [List.append_nil, ← htext] at hlength
  rw [htext]
  exact .quotes (hlength ▸ h)

theorem body_cons {x c : Char} (front : List Char) {body : List Char} {escapes : Bool}
    (hleading : leading quote (x :: (front ++ body)) ≤ 2)
    (hother : ∃ d ∈ x :: (front ++ body), d ≠ quote)
    (hpiece : ∀ after, Takes (longPiece escapes (x :: (front ++ after))) [c] after)
    (h : Body quote escapes body text) : Body quote escapes (x :: (front ++ body)) (c :: text) := by
  have hbody : Body quote escapes ((x :: front) ++ body) (c :: text) := by
    refine .char (fun after => ?_) hpiece h
    obtain ⟨d, hd, hne⟩ := hother
    have happend := leading_append_of_mem hd hne after
    rw [List.cons_append, List.append_assoc] at happend
    exact happend ▸ hleading
  exact hbody

theorem takes_longPiece_plain {c : Char} {escapes : Bool} (hplain : isPlain c = true ∨ c = '\n')
    (hbackslash : escapes = true → c ≠ '\\') (after : List Char) :
    Takes (longPiece escapes (c :: after)) [c] after := by
  rcases hplain with hplain | rfl
  · have hreturn : c ≠ '\r' := by
      rintro rfl
      exact absurd hplain (by decide)
    have hline : c ≠ '\n' := by
      rintro rfl
      exact absurd hplain (by decide)
    have hescape : ¬ (escapes && c == '\\') = true := by
      rw [Bool.and_eq_true, beq_iff_eq]
      exact fun h => hbackslash h.1 h.2
    rw [longPiece, if_neg hescape, if_pos hplain]
    · exact ⟨_, rfl⟩
    · exact hline
    · exact fun _ h _ => hreturn h
  · exact ⟨_, rfl⟩

theorem takes_longPiece_escape {code : List Char} {c : Char} (h : Escapes code c)
    (after : List Char) : Takes (longPiece true ('\\' :: (code ++ after))) [c] after := by
  obtain ⟨⟨_, hescape⟩, hline⟩ := h after
  rw [longPiece, if_pos (by decide), hline, hescape]
  · exact ⟨_, rfl⟩
  · decide
  · exact fun _ h => absurd h (by decide)

-- An escaped character of a string over several lines: a quote that stays, or no quote.
theorem escapeBasic_long_cons (c : Char) (text : List Char) (run : Nat) :
    (c = '"' ∧ run < 2 ∧
        escapeBasic true run (c :: text) = '"' :: escapeBasic true (run + 1) text) ∨
      ∃ x front, x ≠ '"' ∧
        escapeBasic true run (c :: text) = x :: (front ++ escapeBasic true 0 text) ∧
        ∀ after, Takes (longPiece true (x :: (front ++ after))) [c] after := by
  by_cases hc : c = '"'
  · subst hc
    rw [escapeBasic]
    by_cases hrun : run < 2
    · rw [if_pos (by rw [Bool.true_and, decide_eq_true hrun])]
      exact .inl ⟨rfl, hrun, rfl⟩
    · rw [if_neg (by rw [Bool.true_and, decide_eq_true_eq]; exact hrun)]
      exact .inr ⟨'\\', ['"'], by decide, rfl, fun after => ⟨_, rfl⟩⟩
  · rcases escapeBasic_cons hc true run text with ⟨heq, hbackslash, hplain⟩ | ⟨code, heq, hcode⟩
    · exact .inr ⟨c, [], hc, heq,
        takes_longPiece_plain (hplain.imp_right And.right) fun _ => hbackslash⟩
    · exact .inr ⟨'\\', code, by decide, heq, takes_longPiece_escape hcode⟩

theorem leading_escapeBasic (text : List Char) (h : run ≤ 2) :
    leading '"' (escapeBasic true run text) ≤ 2 - run := by
  induction text generalizing run with
  | nil => exact Nat.zero_le _
  | cons c text ih =>
    rcases escapeBasic_long_cons c text run with ⟨_, hrun, heq⟩ | ⟨x, front, hx, heq, _⟩
    · have hnext : leading '"' (escapeBasic true (run + 1) text) ≤ 2 - (run + 1) := ih hrun
      rw [heq, leading_cons_self]
      omega
    · rw [heq, leading_cons_of_ne hx]
      exact Nat.zero_le _

-- A text that is written with quotes only is written as it is.
theorem eq_of_escapeBasic (h : ∀ c ∈ escapeBasic true run text, c = '"') :
    escapeBasic true run text = text := by
  induction text generalizing run with
  | nil => rfl
  | cons c text ih =>
    rcases escapeBasic_long_cons c text run with ⟨rfl, _, heq⟩ | ⟨x, front, hx, heq, _⟩
    · rw [heq] at h ⊢
      rw [ih fun c hc => h c (List.mem_cons_of_mem _ hc)]
    · rw [heq] at h
      exact absurd (h x List.mem_cons_self) hx

theorem forall_eq_or_exists_ne (quote : Char) (text : List Char) :
    (∀ c ∈ text, c = quote) ∨ ∃ c ∈ text, c ≠ quote := by
  by_cases h : ∃ c ∈ text, c ≠ quote
  · exact .inr h
  · exact .inl fun c hc => Decidable.byContradiction fun hne => h ⟨c, hc, hne⟩

theorem body_escapeBasic (text : List Char) (h : run ≤ 2) :
    Body '"' true (escapeBasic true run text) text := by
  induction text generalizing run with
  | nil => exact .quotes (Nat.zero_le 2)
  | cons c text ih =>
    have hleading := Nat.le_trans (leading_escapeBasic (c :: text) h) (Nat.sub_le 2 run)
    rcases forall_eq_or_exists_ne '"' (escapeBasic true run (c :: text)) with hall | hother
    · have hsame := eq_of_escapeBasic hall
      rw [hsame] at hall hleading ⊢
      exact body_of_forall_eq hall hleading true
    · rcases escapeBasic_long_cons c text run with ⟨rfl, hrun, heq⟩ | ⟨x, front, hx, heq, hpiece⟩
      · rw [heq] at hother hleading ⊢
        exact body_cons [] hleading hother (fun after => ⟨_, rfl⟩) (ih hrun)
      · rw [heq] at hother hleading ⊢
        exact body_cons front hleading hother hpiece (ih (Nat.zero_le 2))

theorem body_literal (hplain : ∀ c ∈ text, isPlain c = true ∨ c = '\n')
    (hleading : ∀ front back, text = front ++ back → leading '\'' back ≤ 2) :
    Body '\'' false text text := by
  induction text with
  | nil => exact .quotes (Nat.zero_le 2)
  | cons c text ih =>
    obtain ⟨hc, htext⟩ := List.forall_mem_cons.1 hplain
    rcases forall_eq_or_exists_ne '\'' (c :: text) with hall | hother
    · exact body_of_forall_eq hall (hleading [] _ rfl) false
    · exact body_cons [] (hleading [] _ rfl) hother
        (takes_longPiece_plain hc fun h => Bool.noConfusion h)
        (ih htext fun front back heq => hleading (c :: front) back (by rw [heq]; rfl))

end Bodies

/-! ## The choice of a kind -/

section Choice

variable {text : List Char}

-- The run that may go on and the longest run so far, with one more character.
def runStep (c : Char) (runs : Nat × Nat) (d : Char) : Nat × Nat :=
  if d = c then (runs.1 + 1, max runs.2 (runs.1 + 1)) else (0, max runs.2 0)

theorem longestRun_eq (c : Char) (text : List Char) :
    longestRun c text = (text.foldl (runStep c) (0, 0)).2 := by
  have hstep : (fun (runs : Nat × Nat) (d : Char) =>
      (if d = c then runs.1 + 1 else 0, max runs.2 (if d = c then runs.1 + 1 else 0))) =
        runStep c := by
    funext runs d
    unfold runStep
    split <;> rfl
  rw [← hstep]
  rfl

theorem le_foldl_runStep (c : Char) (text : List Char) (runs : Nat × Nat) (h : runs.1 ≤ runs.2) :
    runs.1 + leading c text ≤ (text.foldl (runStep c) runs).2 ∧
      runs.2 ≤ (text.foldl (runStep c) runs).2 := by
  induction text generalizing runs with
  | nil => exact ⟨h, Nat.le_refl _⟩
  | cons d text ih =>
    rw [List.foldl_cons, runStep]
    split
    · rename_i hd
      have hnext := ih (runs.1 + 1, max runs.2 (runs.1 + 1)) (Nat.le_max_right _ _)
      rw [hd, leading_cons_self]
      dsimp only at hnext
      omega
    · rename_i hd
      have hnext := ih (0, max runs.2 0) (Nat.zero_le _)
      rw [leading_cons_of_ne hd]
      dsimp only at hnext
      omega

theorem foldl_runStep_le (c : Char) (text : List Char) (runs : Nat × Nat) (h : runs.1 ≤ runs.2) :
    (text.foldl (runStep c) runs).1 ≤ (text.foldl (runStep c) runs).2 := by
  induction text generalizing runs with
  | nil => exact h
  | cons d text ih =>
    rw [List.foldl_cons]
    apply ih
    rw [runStep]
    split
    · exact Nat.le_max_right _ _
    · exact Nat.zero_le _

theorem leading_le_longestRun (c : Char) (front back : List Char) :
    leading c back ≤ longestRun c (front ++ back) := by
  have hfront := foldl_runStep_le c front (0, 0) (Nat.le_refl 0)
  rw [longestRun_eq, List.foldl_append]
  exact Nat.le_trans (Nat.le_add_left _ _) (le_foldl_runStep c back _ hfront).1

theorem not_mem_of_longestRun_eq_zero {c : Char} (h : longestRun c text = 0) : c ∉ text := by
  intro hc
  obtain ⟨front, back, rfl⟩ := List.append_of_mem hc
  have hle := leading_le_longestRun c front (c :: back)
  rw [h, leading_cons_self] at hle
  omega

theorem isPlain_of_needsEscape_eq_false {c : Char} (h : needsEscape c = false) :
    isPlain c = true ∨ c = '\n' := by
  rw [needsEscape, Bool.or_eq_false_iff, beq_eq_false_iff_ne, Bool.and_eq_false_iff,
    Bool.and_eq_false_iff, bne_eq_false_iff_eq, bne_eq_false_iff_eq, decide_eq_false_iff_not] at h
  rw [isPlain, Bool.or_eq_true, beq_iff_eq, Bool.and_eq_true, decide_eq_true_eq, bne_iff_ne]
  obtain ⟨(hlow | htab) | hline, hdelete⟩ := h
  · exact .inl (.inr ⟨Nat.le_of_not_lt hlow, hdelete⟩)
  · exact .inl (.inl htab)
  · exact .inr hline

/-- A text that has no escapes can be read back from a string of this kind. -/
def Quoting.Fits (text : List Char) : Quoting → Prop
  | .basic | .longBasic => True
  | .literal => ∀ c ∈ text, isPlain c = true ∧ c ≠ '\''
  | .longLiteral => (∀ c ∈ text, isPlain c = true ∨ c = '\n') ∧ longestRun '\'' text ≤ 2

theorem fits_chooseQuoting (text : List Char) : (chooseQuoting text).Fits text := by
  have hplain : text.any needsEscape = false → ∀ c ∈ text, isPlain c = true ∨ c = '\n' := by
    intro hany c hc
    exact isPlain_of_needsEscape_eq_false (Bool.eq_false_iff.2 (List.any_eq_false.1 hany c hc))
  fun_cases chooseQuoting text with
  | case1 | case3 | case5 | case6 => trivial
  | case2 controls backslashes lines doubles singles _ h =>
    rw [Bool.and_eq_true, Bool.and_eq_true, beq_iff_eq, Bool.not_eq_true', Bool.not_eq_true'] at h
    obtain ⟨⟨hcontrols, hlines⟩, hsingles⟩ := h
    intro c hc
    refine ⟨(hplain hcontrols c hc).resolve_right ?_, ?_⟩
    · rintro rfl
      have hnone : text.contains '\n' = false := hlines
      rw [List.contains_eq_mem, decide_eq_false_iff_not] at hnone
      exact hnone hc
    · rintro rfl
      exact not_mem_of_longestRun_eq_zero hsingles hc
  | case4 controls backslashes lines doubles singles _ _ _ h =>
    rw [Bool.and_eq_true, Bool.not_eq_true', decide_eq_true_eq] at h
    exact ⟨hplain h.1, h.2⟩

end Choice

/-! ## Strings of all kinds -/

/-- What stands here does not go on with a quote. -/
def Unquoted (rest : List Char) : Prop := ∀ c ∈ rest.head?, c ≠ '"' ∧ c ≠ '\''

theorem unquoted_cons {c : Char} (h : c ≠ '"' ∧ c ≠ '\'') (rest : List Char) :
    Unquoted (c :: rest) :=
  Text.forall_head?_cons.2 h

section Strings

variable {text rest s : List Char}

theorem ne_quote_of_mem_head?_escapeBasic (text : List Char) (run : Nat) :
    ∀ c ∈ (escapeBasic false run text).head?, c ≠ '"' := by
  intro d hd
  cases text with
  | nil => exact nomatch hd
  | cons c text =>
    by_cases hc : c = '"'
    · subst hc
      obtain rfl := Option.some.inj hd
      decide
    · rcases escapeBasic_cons hc false run text with ⟨heq, _⟩ | ⟨code, heq, _⟩
      · rw [heq] at hd
        obtain rfl := Option.some.inj hd
        exact hc
      · rw [heq] at hd
        obtain rfl := Option.some.inj hd
        decide

-- Unless it begins with one, a text and a quote in front of what goes on without are no two quotes.
theorem ne_two_quotes {quote : Char} (hs : ∀ c ∈ s.head?, c ≠ quote)
    (hrest : ∀ c ∈ rest.head?, c ≠ quote) (more : List Char) :
    s ++ quote :: rest ≠ quote :: quote :: more := by
  intro heq
  cases s with
  | nil =>
    have hrest' : rest = quote :: more := (List.cons.inj heq).2
    rw [hrest'] at hrest
    exact hrest quote rfl rfl
  | cons c s => exact hs c rfl (List.cons.inj heq).1

theorem takes_string_basic (text : List Char) (h : Unquoted rest) :
    Takes (string ('"' :: (escapeBasic false 0 text ++ '"' :: rest))) (String.ofList text)
      rest := by
  obtain ⟨_, hread⟩ := basicChars_escapeBasic text rest 0 _ [] rfl (Reading.length_le_self _)
  rw [List.append_nil] at hread
  rw [string, basicString, hread]
  · simp only [Option.map_some, List.reverse_reverse]
    exact ⟨_, rfl⟩
  · exact ne_two_quotes (ne_quote_of_mem_head?_escapeBasic text 0) fun c hc => (h c hc).1

theorem takes_literalString (hfits : Quoting.literal.Fits text) (rest : List Char) :
    Takes (literalString (text ++ '\'' :: rest)) (String.ofList text) rest := by
  have hall : ∀ c ∈ text, (isPlain c && c != '\'') = true := by
    intro c hc
    rw [Bool.and_eq_true, bne_iff_ne]
    exact hfits c hc
  have hstop : ∀ c ∈ ('\'' :: rest).head?, (isPlain c && c != '\'') = false :=
    Text.forall_head?_cons.2 rfl
  have hdrop : (text ++ '\'' :: rest).dropWhile (fun c => isPlain c && c != '\'') =
      '\'' :: rest := Text.dropWhile_append_of_stop hall hstop
  unfold literalString
  split
  · rename_i left heq
    rw [hdrop] at heq
    obtain rfl := (List.cons.inj heq).2
    rw [Text.takeWhile_append_of_stop hall hstop]
    exact ⟨_, rfl⟩
  · rename_i hother
    exact absurd hdrop (hother rest)

theorem takes_string_literal (hfits : Quoting.literal.Fits text) (h : Unquoted rest) :
    Takes (string ('\'' :: (text ++ '\'' :: rest))) (String.ofList text) rest := by
  obtain ⟨_, hread⟩ := takes_literalString hfits rest
  rw [string, hread]
  · exact ⟨_, rfl⟩
  · apply ne_two_quotes
    · intro c hc
      exact (hfits c (List.mem_of_mem_head? hc)).2
    · exact fun c hc => (h c hc).2

theorem newline?_eq_none (h : ∀ c ∈ s.head?, isPlain c = true) : newline? s = none := by
  unfold newline?
  split
  · exact absurd (h '\n' rfl) (by decide)
  · exact absurd (h '\r' rfl) (by decide)
  · rfl

theorem takes_longString {quote : Char} {escapes : Bool} {body : List Char}
    (hbody : Body quote escapes body text) (hquote : isPlain quote = true)
    (hhead : ∀ c ∈ body.head?, isPlain c = true ∨ c = '\n' ∧ '\n' ∈ text)
    (hrest : ∀ c ∈ rest.head?, c ≠ quote) :
    Takes (longString quote escapes ((if text.contains '\n' then ['\n'] else []) ++
      (body ++ (List.replicate 3 quote ++ rest)))) (String.ofList text) rest := by
  obtain ⟨_, hread⟩ := longChars_of_body hbody hrest _ [] rfl (Reading.length_le_self _)
  have hlong : Takes (longText quote escapes (body ++ (List.replicate 3 quote ++ rest)))
      (String.ofList text) rest := by
    rw [List.append_nil] at hread
    rw [longText, hread]
    simp only [Option.map_some, List.reverse_reverse]
    exact ⟨_, rfl⟩
  obtain ⟨_, hlong⟩ := hlong
  by_cases hline : '\n' ∈ text
  · rw [if_pos (List.contains_iff_mem.2 hline)]
    show Takes (Option.map _ (longText quote escapes
      (body ++ (List.replicate 3 quote ++ rest)))) _ _
    rw [hlong]
    exact ⟨_, rfl⟩
  · rw [if_neg (mt List.contains_iff_mem.1 hline), List.nil_append]
    have hnone : newline? (body ++ (List.replicate 3 quote ++ rest)) = none := by
      apply newline?_eq_none
      intro c hc
      rw [List.head?_append] at hc
      cases hfirst : body.head? with
      | none =>
        rw [hfirst] at hc
        obtain rfl := Option.some.inj hc
        exact hquote
      | some d =>
        rw [hfirst] at hc
        obtain rfl := Option.some.inj hc
        exact (hhead d hfirst).resolve_right fun h => hline h.2
    rw [longString, hnone]
    exact ⟨_, hlong⟩

theorem head?_escapeBasic (text : List Char) :
    ∀ c ∈ (escapeBasic true 0 text).head?, isPlain c = true ∨ c = '\n' ∧ '\n' ∈ text := by
  intro d hd
  cases text with
  | nil => exact nomatch hd
  | cons c text =>
    by_cases hc : c = '"'
    · subst hc
      obtain rfl := Option.some.inj hd
      exact .inl (by decide)
    · rcases escapeBasic_cons hc true 0 text with ⟨heq, _, hplain⟩ | ⟨code, heq, _⟩
      · rw [heq] at hd
        obtain rfl := Option.some.inj hd
        exact hplain.imp_right fun hline => ⟨hline.2, by rw [hline.2]; exact List.mem_cons_self⟩
      · rw [heq] at hd
        obtain rfl := Option.some.inj hd
        exact .inl (by decide)

/-- A string that has been written is read as the text it was written for. -/
theorem takes_string_quoteChars (text : List Char) (h : Unquoted rest) :
    Takes (string (quoteChars text ++ rest)) (String.ofList text) rest := by
  have hfits := fits_chooseQuoting text
  unfold quoteChars
  cases hquoting : chooseQuoting text with
  | basic =>
    show Takes (string ('"' :: escapeBasic false 0 text ++ ['"'] ++ rest)) _ _
    rw [List.append_assoc]
    exact takes_string_basic text h
  | literal =>
    rw [hquoting] at hfits
    show Takes (string ('\'' :: text ++ ['\''] ++ rest)) _ _
    rw [List.append_assoc]
    exact takes_string_literal hfits h
  | longBasic =>
    obtain ⟨_, hlong⟩ := takes_longString (body_escapeBasic text (Nat.zero_le 2)) (by decide)
      (head?_escapeBasic text) fun c hc => (h c hc).1
    dsimp only
    rw [List.append_assoc, List.append_assoc, List.append_assoc]
    show Takes (string ('"' :: '"' :: '"' :: (_ ++ (_ ++ (List.replicate 3 '"' ++ rest))))) _ _
    rw [string, hlong]
    exact ⟨_, rfl⟩
  | longLiteral =>
    rw [hquoting] at hfits
    have hbody : Body '\'' false text text := body_literal hfits.1 fun front back heq =>
      Nat.le_trans (heq ▸ leading_le_longestRun '\'' front back) hfits.2
    have hhead : ∀ c ∈ text.head?, isPlain c = true ∨ c = '\n' ∧ '\n' ∈ text := by
      intro c hc
      have hmem := List.mem_of_mem_head? hc
      exact (hfits.1 c hmem).imp_right fun hline => ⟨hline, hline ▸ hmem⟩
    obtain ⟨_, hlong⟩ := takes_longString hbody (by decide) hhead fun c hc => (h c hc).2
    dsimp only
    rw [List.append_assoc, List.append_assoc, List.append_assoc]
    show Takes (string ('\'' :: '\'' :: '\'' :: (_ ++ (_ ++ (List.replicate 3 '\'' ++ rest))))) _ _
    rw [string, hlong]
    exact ⟨_, rfl⟩

end Strings

end RecordQuery.Toml
