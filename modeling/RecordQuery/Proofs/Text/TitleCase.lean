import RecordQuery.Text.LetterCase

/-!
# The form of display names

No letter has a blank character in its upper or lower case, so a word stays a word when it is
capitalized. Main statement: a text with a word in it has a title case of words that are one space
apart.
-/

namespace RecordQuery.Text

/-- Some characters, none of them blank. -/
def IsWord (text : List Char) : Prop := text ≠ [] ∧ ∀ c ∈ text, isBlank c = false

/-- Words, one space apart: no blank character comes first or last, none follows another, and all
of them are spaces. -/
inductive Tidy : List Char → Prop where
  | single {c : Char} : isBlank c = false → Tidy [c]
  | cons {c : Char} {rest : List Char} : isBlank c = false → Tidy rest → Tidy (c :: rest)
  | space {c : Char} {rest : List Char} : isBlank c = false → Tidy rest → Tidy (c :: ' ' :: rest)

theorem IsWord.append_flatMap {a b : List Char} {f : Char → List Char} (ha : IsWord a)
    (hb : ∀ c ∈ b, IsWord (f c)) : IsWord (a ++ b.flatMap f) := by
  refine ⟨List.append_ne_nil_of_left_ne_nil ha.1 _, fun c hc => ?_⟩
  rcases List.mem_append.1 hc with hc | hc
  · exact ha.2 c hc
  · obtain ⟨d, hd, hc⟩ := List.mem_flatMap.1 hc
    exact (hb d hd).2 c hc

/-! ## Letter case -/

/-- The first and the last code of each run of blank characters. -/
def blankRuns : List (Nat × Nat) :=
  [(0x09, 0x0D), (0x20, 0x20), (0x85, 0x85), (0xA0, 0xA0), (0x1680, 0x1680), (0x2000, 0x200A),
    (0x2028, 0x2029), (0x202F, 0x202F), (0x205F, 0x205F), (0x3000, 0x3000)]

theorem exists_blankRun {c : Char} (h : isBlank c = true) :
    ∃ blanks ∈ blankRuns, blanks.1 ≤ c.toNat ∧ c.toNat ≤ blanks.2 := by
  simp only [isBlank, Bool.or_eq_true, Bool.and_eq_true, decide_eq_true_eq, beq_iff_eq] at h
  simp only [blankRuns, List.mem_cons, List.not_mem_nil, or_false, exists_eq_or_imp,
    exists_eq_left]
  omega

-- A code that is no character's makes the character of code 0.
theorem toNat_ofNat_eq_or (code : Nat) :
    (Char.ofNat code).toNat = code ∨ (Char.ofNat code).toNat = 0 := by
  by_cases hvalid : code.isValidChar
  · rw [Char.ofNat, dif_pos hvalid]
    exact .inl rfl
  · rw [Char.ofNat, dif_neg hvalid]
    exact .inr rfl

-- The character of code 0 is not blank.
theorem exists_blankRun_of_ofNat {code : Nat} (h : isBlank (Char.ofNat code) = true) :
    ∃ blanks ∈ blankRuns, blanks.1 ≤ code ∧ code ≤ blanks.2 := by
  have hrun := exists_blankRun h
  rcases toNat_ofNat_eq_or code with hcode | hcode
  · rwa [hcode] at hrun
  · rw [hcode] at hrun
    exact absurd hrun (by decide)

/-- No entry of these tables leads to a blank character, or to nothing. -/
structure LeadsToWords (expansions : List (Nat × List Nat)) (runs : List CaseRun) : Prop where
  expansions_ne_nil : ∀ entry ∈ expansions, entry.2 ≠ []
  expansions_not_blank : ∀ entry ∈ expansions, ∀ code ∈ entry.2, isBlank (Char.ofNat code) = false
  runs_not_blank : ∀ run ∈ runs, ∀ blanks ∈ blankRuns,
    run.last + run.shift < blanks.1 ∨ blanks.2 < run.first + run.shift

theorem upperCase_leadsToWords : LeadsToWords upperExpansions upperRuns where
  expansions_ne_nil := by decide +kernel
  expansions_not_blank := by decide +kernel
  runs_not_blank := by decide +kernel

theorem lowerCase_leadsToWords : LeadsToWords lowerExpansions lowerRuns where
  expansions_ne_nil := by decide +kernel
  expansions_not_blank := by decide +kernel
  runs_not_blank := by decide +kernel

-- A run takes what it covers to codes between those of its first and its last character.
theorem CaseRun.isBlank_eq_false_of_covers {run : CaseRun} {code : Nat}
    (hrun : ∀ blanks ∈ blankRuns,
      run.last + run.shift < blanks.1 ∨ blanks.2 < run.first + run.shift)
    (h : run.covers code = true) :
    isBlank (Char.ofNat ((code : Int) + run.shift).toNat) = false := by
  refine Bool.eq_false_iff.2 fun hblank => ?_
  obtain ⟨blanks, hblanks, hfirst, hlast⟩ := exists_blankRun_of_ofNat hblank
  have hpos : ∀ blanks ∈ blankRuns, 0 < blanks.1 := by decide
  have := hpos blanks hblanks
  have := hrun blanks hblanks
  simp only [covers, Bool.and_eq_true, decide_eq_true_eq] at h
  omega

theorem LeadsToWords.isWord_mapCase {expansions : List (Nat × List Nat)} {runs : List CaseRun}
    (h : LeadsToWords expansions runs) {c : Char} (hc : isBlank c = false) :
    IsWord (mapCase expansions runs c) := by
  unfold mapCase
  split
  · rename_i codes hfound
    have hmem := List.mem_of_find?_eq_some hfound
    refine ⟨mt List.map_eq_nil_iff.1 (h.expansions_ne_nil _ hmem), fun d hd => ?_⟩
    obtain ⟨code, hcode, rfl⟩ := List.mem_map.1 hd
    exact h.expansions_not_blank _ hmem code hcode
  · split
    · rename_i run hfound
      have hcovers := List.find?_some hfound
      refine ⟨List.cons_ne_nil _ _, fun d hd => ?_⟩
      rw [List.mem_singleton.1 hd]
      exact CaseRun.isBlank_eq_false_of_covers
        (h.runs_not_blank run (List.mem_of_find?_eq_some hfound)) hcovers
    · exact ⟨List.cons_ne_nil _ _, fun d hd => List.mem_singleton.1 hd ▸ hc⟩

/-! ## Words -/

theorem flatten_piecesAt (separates : Char → Bool) (text : List Char) :
    (piecesAt separates text).flatten = text.filter (!separates ·) := by
  induction text with
  | nil => rfl
  | cons c rest ih =>
    unfold piecesAt
    split
    · rename_i hc
      rw [List.flatten_cons, List.nil_append, ih, List.filter_cons_of_neg (by simp [hc])]
    · rename_i hc
      obtain ⟨first, others, h⟩ := List.exists_cons_of_ne_nil (piecesAt_ne_nil separates rest)
      rw [h, List.flatten_cons] at ih
      rw [h, List.modifyHead_cons, List.flatten_cons, List.cons_append, ih,
        List.filter_cons_of_pos (by simp [hc])]

theorem isWord_of_mem_words {text word : List Char} (h : word ∈ words text) : IsWord word := by
  refine ⟨fun hnil => ?_, fun c hc => isBlank_eq_false_of_mem_words h hc⟩
  have hne := (List.mem_filter.1 h).2
  rw [hnil] at hne
  exact Bool.noConfusion hne

theorem words_ne_nil {text : List Char} (h : ∃ c ∈ text, isBlank c = false) : words text ≠ [] := by
  obtain ⟨c, hmem, hc⟩ := h
  have hflat : c ∈ (piecesAt isBlank text).flatten := by
    rw [flatten_piecesAt, List.mem_filter, hc]
    exact ⟨hmem, rfl⟩
  obtain ⟨word, hword, hcword⟩ := List.mem_flatten.1 hflat
  apply List.ne_nil_of_mem (a := word)
  rw [words, List.mem_filter]
  exact ⟨hword, by cases word with | nil => exact absurd hcword List.not_mem_nil | cons => rfl⟩

theorem IsWord.capitalize {word : List Char} (h : IsWord word) : IsWord (capitalize word) := by
  obtain ⟨hne, hword⟩ := h
  cases word with
  | nil => exact absurd rfl hne
  | cons first rest =>
    obtain ⟨hfirst, hrest⟩ := List.forall_mem_cons.1 hword
    exact (upperCase_leadsToWords.isWord_mapCase hfirst).append_flatMap fun c hc =>
      lowerCase_leadsToWords.isWord_mapCase (hrest c hc)

/-! ## Tidy texts -/

namespace Tidy

theorem of_isWord {word : List Char} (h : IsWord word) : Tidy word := by
  obtain ⟨hne, hword⟩ := h
  induction word with
  | nil => exact absurd rfl hne
  | cons c rest ih =>
    obtain ⟨hc, hrest⟩ := List.forall_mem_cons.1 hword
    by_cases hnil : rest = []
    · exact hnil ▸ single hc
    · exact cons hc (ih hnil hrest)

theorem append {a b : List Char} (ha : Tidy a) (hb : Tidy b) : Tidy (a ++ ' ' :: b) := by
  induction ha with
  | single hc => exact space hc hb
  | cons hc _ ih => exact cons hc ih
  | space hc _ ih => exact space hc ih

theorem intercalate {parts : List (List Char)} (hne : parts ≠ []) (h : ∀ part ∈ parts, Tidy part) :
    Tidy (List.intercalate [' '] parts) := by
  induction parts with
  | nil => exact absurd rfl hne
  | cons part parts ih =>
    obtain ⟨hpart, hparts⟩ := List.forall_mem_cons.1 h
    cases parts with
    | nil => rwa [List.intercalate_singleton]
    | cons next parts =>
      rw [List.intercalate_cons_cons, List.append_assoc, List.singleton_append]
      exact hpart.append (ih (List.cons_ne_nil _ _) hparts)

theorem eq_space_of_mem {text : List Char} {c : Char} (h : Tidy text) (hmem : c ∈ text)
    (hc : isBlank c = true) : c = ' ' := by
  have hnot : ∀ d : Char, isBlank d = false → c ≠ d := fun d hd heq =>
    Bool.noConfusion (hd.symm.trans (heq ▸ hc))
  induction h with
  | single hd => exact absurd (List.mem_singleton.1 hmem) (hnot _ hd)
  | cons hd _ ih => exact (List.mem_cons.1 hmem).elim (fun heq => absurd heq (hnot _ hd)) ih
  | space hd _ ih =>
    rcases List.mem_cons.1 hmem with heq | hmem
    · exact absurd heq (hnot _ hd)
    · exact (List.mem_cons.1 hmem).elim id ih

end Tidy

theorem tidy_titleCase {text : String} (h : ∃ c ∈ text.toList, isBlank c = false) :
    Tidy (titleCase text).toList := by
  rw [titleCase, String.toList_ofList, titleCaseChars]
  refine .intercalate (mt List.map_eq_nil_iff.1 (words_ne_nil h)) fun part hpart => ?_
  obtain ⟨word, hword, rfl⟩ := List.mem_map.1 hpart
  exact .of_isWord (isWord_of_mem_words hword).capitalize

end RecordQuery.Text
