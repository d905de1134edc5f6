import Mathlib.Data.List.DropRight
import RecordQuery.Proofs.Text.Recapitalizing
import RecordQuery.Proofs.Text.Splitting

/-!
# The words of a text

Blank characters part words, however many and whichever they are. Main statements: a text has its
words in one way, two texts with blank characters between them have the words of the one and then
those of the other, and title case looks at the words of a text only.
-/

namespace RecordQuery.Text

/-- The text consists of these words, one after the other, and of blank characters: at least one
between two words, any number of them in front and behind. -/
inductive Worded : List Char → List (List Char) → Prop where
  | nil : Worded [] []
  | blank {c : Char} {text : List Char} {parts : List (List Char)} :
      isBlank c = true → Worded text parts → Worded (c :: text) parts
  | last {word : List Char} : IsWord word → Worded word [word]
  | next {word : List Char} {c : Char} {text : List Char} {parts : List (List Char)} :
      IsWord word → isBlank c = true → Worded text parts →
        Worded (word ++ c :: text) (word :: parts)

/-- Some character of the text is not blank. -/
def HasWord (text : List Char) : Prop := ∃ c ∈ text, isBlank c = false

instance (text : List Char) : Decidable (HasWord text) :=
  List.decidableBEx (isBlank · = false) text

theorem not_hasWord_iff {text : List Char} : ¬ HasWord text ↔ ∀ c ∈ text, isBlank c = true := by
  simp only [HasWord, not_exists, not_and, Bool.not_eq_false]

/-- The text without the blank characters in front and behind. -/
def trim (text : List Char) : List Char := (text.dropWhile isBlank).rdropWhile isBlank

/-! ## Words -/

section Words

variable {gap text word : List Char} {c : Char}

-- A blank character parts the words in front of it from those behind it.
theorem words_append_cons (hc : isBlank c = true) (a b : List Char) :
    words (a ++ c :: b) = words a ++ words b := by
  unfold words
  rw [piecesAt_append_cons hc, List.filter_append]

theorem words_cons_of_isBlank (hc : isBlank c = true) (text : List Char) :
    words (c :: text) = words text :=
  words_append_cons hc [] text

theorem words_of_isWord (h : IsWord word) : words word = [word] := by
  have hparts : ∀ part ∈ [word], IsWord part := by
    intro part hpart
    rwa [List.mem_singleton.1 hpart]
  have hwords := words_intercalate hparts
  rwa [List.intercalate_singleton] at hwords

theorem words_append_of_forall_isBlank (h : ∀ c ∈ gap, isBlank c = true) (text : List Char) :
    words (gap ++ text) = words text := by
  induction gap with
  | nil => rfl
  | cons c gap ih =>
    obtain ⟨hc, hgap⟩ := List.forall_mem_cons.1 h
    rw [List.cons_append, words_cons_of_isBlank hc, ih hgap]

/-- Blank characters part the words on either side of them. -/
theorem words_append_gap (hne : gap ≠ []) (hgap : ∀ c ∈ gap, isBlank c = true) (a b : List Char) :
    words (a ++ gap ++ b) = words a ++ words b := by
  obtain ⟨c, gap, rfl⟩ := List.exists_cons_of_ne_nil hne
  obtain ⟨hc, hgap⟩ := List.forall_mem_cons.1 hgap
  rw [List.append_assoc, List.cons_append, words_append_cons hc,
    words_append_of_forall_isBlank hgap]

theorem words_eq_nil_iff : words text = [] ↔ ¬ HasWord text := by
  constructor
  · intro h hword
    exact words_ne_nil hword h
  · intro h
    have hwords := words_append_of_forall_isBlank (not_hasWord_iff.1 h) []
    rwa [List.append_nil] at hwords

theorem trim_eq_nil_iff : trim text = [] ↔ ¬ HasWord text := by
  rw [trim, List.rdropWhile_eq_nil_iff, not_hasWord_iff]
  constructor
  · intro h
    -- What the dropping stops at would be the front of the trimmed text.
    have hnil : text.dropWhile isBlank = [] := by
      cases hrest : text.dropWhile isBlank with
      | nil => rfl
      | cons c rest =>
        rw [hrest] at h
        have hc := List.head?_dropWhile_not isBlank text
        rw [hrest] at hc
        exact absurd (h c List.mem_cons_self) (by simpa using hc)
    exact List.dropWhile_eq_nil_iff.1 hnil
  · intro h
    rw [List.dropWhile_eq_nil_iff.2 h]
    exact fun c hc => absurd hc List.not_mem_nil

end Words

/-! ## Texts as their words -/

namespace Worded

variable {text : List Char} {parts : List (List Char)}

theorem words_eq (h : Worded text parts) : words text = parts := by
  induction h with
  | nil => rfl
  | blank hc _ ih => rw [words_cons_of_isBlank hc, ih]
  | last hword => exact words_of_isWord hword
  | next hword hc _ ih =>
    rw [words_append_cons hc, words_of_isWord hword, ih]
    rfl

-- A letter in front of a text starts a new word, or it goes to the front of the first one.
theorem exists_cons {c : Char} (hc : isBlank c = false) (h : Worded text parts) :
    ∃ others, Worded (c :: text) others := by
  have hsingle : IsWord [c] := ⟨List.cons_ne_nil _ _, List.forall_mem_singleton.2 hc⟩
  have hcons : ∀ {word : List Char}, IsWord word → IsWord (c :: word) := fun hword =>
    ⟨List.cons_ne_nil _ _, List.forall_mem_cons.2 ⟨hc, hword.2⟩⟩
  cases h with
  | nil => exact ⟨_, last hsingle⟩
  | blank hblank htext => exact ⟨_, next hsingle hblank htext⟩
  | last hword => exact ⟨_, last (hcons hword)⟩
  | next hword hblank htext => exact ⟨_, next (hcons hword) hblank htext⟩

end Worded

theorem exists_worded (text : List Char) : ∃ parts, Worded text parts := by
  induction text with
  | nil => exact ⟨[], .nil⟩
  | cons c text ih =>
    obtain ⟨parts, h⟩ := ih
    cases hc : isBlank c with
    | true => exact ⟨parts, .blank hc h⟩
    | false => exact h.exists_cons hc

/-- The words that are read off a text are those of which it consists. -/
theorem worded_iff {text : List Char} {parts : List (List Char)} :
    Worded text parts ↔ words text = parts := by
  constructor
  · exact Worded.words_eq
  · intro h
    obtain ⟨others, hothers⟩ := exists_worded text
    rwa [← h, hothers.words_eq]

/-! ## Title case -/

section TitleCase

variable {a b gap text : String}

theorem titleCase_congr (h : words a.toList = words b.toList) : titleCase a = titleCase b := by
  rw [titleCase, titleCaseChars, h, ← titleCaseChars, ← titleCase]

theorem Worded.titleCase_eq {parts : List (List Char)} (ha : Worded a.toList parts)
    (hb : Worded b.toList parts) : titleCase a = titleCase b :=
  titleCase_congr (ha.words_eq.trans hb.words_eq.symm)

/-- The words of a title case are those of the text, each of them capitalized. -/
theorem Worded.map_capitalize {parts : List (List Char)} (h : Worded text.toList parts) :
    Worded (titleCase text).toList (parts.map capitalize) := by
  rw [worded_iff, toList_titleCase, words_titleCaseChars, h.words_eq]

theorem titleCase_eq_empty_iff : titleCase text = "" ↔ ¬ HasWord text.toList := by
  rw [← String.toList_inj, toList_titleCase, ← words_eq_nil_iff]
  constructor
  · intro h
    have hwords := words_titleCaseChars text.toList
    rw [h] at hwords
    exact List.map_eq_nil_iff.1 hwords.symm
  · intro h
    rw [titleCaseChars, h]
    rfl

section Gap

variable (hne : gap ≠ "") (hgap : ∀ c ∈ gap.toList, isBlank c = true)
include hne hgap

theorem words_toList_append_gap (a b : String) :
    words (a ++ gap ++ b).toList = words a.toList ++ words b.toList := by
  rw [String.toList_append, String.toList_append]
  exact words_append_gap (mt String.toList_eq_nil_iff.1 hne) hgap _ _

theorem titleCase_append_gap (ha : HasWord a.toList) (hb : HasWord b.toList) :
    titleCase (a ++ gap ++ b) = titleCase a ++ " " ++ titleCase b := by
  have hparts : ∀ {text : String}, HasWord text.toList →
      (words text.toList).map capitalize ≠ [] :=
    fun h => mt List.map_eq_nil_iff.1 (words_ne_nil h)
  apply String.toList_inj.1
  rw [String.toList_append, String.toList_append]
  simp only [toList_titleCase, titleCaseChars]
  rw [words_toList_append_gap hne hgap, List.map_append,
    intercalate_append (hparts ha) (hparts hb), List.append_assoc]
  rfl

theorem titleCase_append_gap_of_not_left (ha : ¬ HasWord a.toList) :
    titleCase (a ++ gap ++ b) = titleCase b := by
  apply titleCase_congr
  rw [words_toList_append_gap hne hgap, words_eq_nil_iff.2 ha, List.nil_append]

theorem titleCase_append_gap_of_not_right (hb : ¬ HasWord b.toList) :
    titleCase (a ++ gap ++ b) = titleCase a := by
  apply titleCase_congr
  rw [words_toList_append_gap hne hgap, words_eq_nil_iff.2 hb, List.append_nil]

end Gap

end TitleCase

end RecordQuery.Text
