import RecordQuery.Proofs.Text.TitleCase

/-!
# Title case of a title case

Letters that have been mapped stay as they are when they are mapped again, with one exception: the
upper case of some letters has more than one character, and those after the first may have a lower
case of their own. Main statement: the title case of a text is its own title case just if none of
its words starts with such a letter; the title case of the title case always is.
-/

namespace RecordQuery.Text

/-- The character is its own lower case. -/
def IsSmall (c : Char) : Prop := lowerCase c = [c]

instance (c : Char) : Decidable (IsSmall c) := inferInstanceAs (Decidable (lowerCase c = [c]))

/-- The characters behind the first are small. -/
def SmallBehindFirst (text : List Char) : Prop := ∀ c ∈ text.tail, IsSmall c

instance (text : List Char) : Decidable (SmallBehindFirst text) :=
  List.decidableBAll IsSmall text.tail

/-- The upper case of the first character of the word brings no characters that are not small, apart
from its own first. -/
def PlainStart (word : List Char) : Prop :=
  ∀ first ∈ word.head?, SmallBehindFirst (upperCase first)

instance (word : List Char) : Decidable (PlainStart word) :=
  match word with
  | [] => .isTrue nofun
  | first :: _ => decidable_of_iff (SmallBehindFirst (upperCase first)) (by simp [PlainStart])

/-- All words of the text have a plain start. -/
def StartsPlain (text : String) : Prop := ∀ word ∈ words text.toList, PlainStart word

instance (text : String) : Decidable (StartsPlain text) :=
  inferInstanceAs (Decidable (∀ word ∈ words text.toList, PlainStart word))

/-! ## Sets of codes -/

/-- Codes as the bits of one number, which the kernel compares at once. -/
def bits (codes : List Nat) : Nat := codes.foldr (fun code bits => 1 <<< code ||| bits) 0

theorem testBit_bits {codes : List Nat} {code : Nat} :
    (bits codes).testBit code = true ↔ code ∈ codes := by
  induction codes with
  | nil => simp [bits]
  | cons first codes ih =>
    have hcons : bits (first :: codes) = 1 <<< first ||| bits codes := rfl
    rw [hcons, Nat.one_shiftLeft, Nat.testBit_or, Bool.or_eq_true, ih, List.mem_cons,
      Nat.testBit_two_pow, decide_eq_true_eq, eq_comm]

theorem not_mem_of_bits {a b : List Nat} (h : bits a &&& bits b = 0) : ∀ code ∈ a, code ∉ b := by
  intro code ha hb
  have hand : (bits a &&& bits b).testBit code = true := by
    rw [Nat.testBit_and, testBit_bits.2 ha, testBit_bits.2 hb]
    rfl
  rw [h, Nat.zero_testBit] at hand
  exact Bool.noConfusion hand

/-! ## Letters mapped again -/

namespace CaseRun

/-- The codes that a run covers. -/
def codes (run : CaseRun) : List Nat :=
  List.range' run.first ((run.last - run.first) / run.step + 1) run.step

theorem mem_codes_of_covers {run : CaseRun} {code : Nat} (h : run.covers code = true) :
    code ∈ run.codes := by
  simp only [covers, Bool.and_eq_true, decide_eq_true_eq, beq_iff_eq] at h
  obtain ⟨⟨hfirst, hlast⟩, hstep⟩ := h
  refine List.mem_range'.2 ⟨(code - run.first) / run.step, ?_, ?_⟩
  · exact Nat.lt_succ_of_le (Nat.div_le_div_right (Nat.sub_le_sub_right hlast _))
  · rw [Nat.mul_div_cancel' (Nat.dvd_of_mod_eq_zero hstep), Nat.add_sub_cancel' hfirst]

end CaseRun

/-- The codes that a mapping moves. -/
def movedCodes (expansions : List (Nat × List Nat)) (runs : List CaseRun) : List Nat :=
  expansions.map (·.1) ++ runs.flatMap CaseRun.codes

/-- The codes that expansions start with and those that runs lead to. -/
def reachedCodes (expansions : List (Nat × List Nat)) (runs : List CaseRun) : List Nat :=
  expansions.filterMap (·.2.head?) ++
    runs.flatMap fun run => run.codes.map fun code : Nat => ((code : Int) + run.shift).toNat

/-- No code that is reached is moved itself. Code 0 stands in for codes that are no character's. -/
def Settles (expansions : List (Nat × List Nat)) (runs : List CaseRun) : Prop :=
  ∀ code ∈ 0 :: reachedCodes expansions runs, code ∉ movedCodes expansions runs

theorem upperCase_settles : Settles upperExpansions upperRuns :=
  not_mem_of_bits (by decide +kernel)

theorem lowerCase_settles : Settles lowerExpansions lowerRuns :=
  not_mem_of_bits (by decide +kernel)

section Mapping

variable {expansions : List (Nat × List Nat)} {runs : List CaseRun}

theorem mapCase_of_not_mem {c : Char} (h : c.toNat ∉ movedCodes expansions runs) :
    mapCase expansions runs c = [c] := by
  rw [movedCodes, List.mem_append, not_or, List.mem_map, List.mem_flatMap] at h
  obtain ⟨hexpansions, hruns⟩ := h
  have hexpansion : expansions.find? (·.1 == c.toNat) = none :=
    List.find?_eq_none.2 fun entry hentry heq => hexpansions ⟨entry, hentry, beq_iff_eq.1 heq⟩
  have hrun : runs.find? (·.covers c.toNat) = none :=
    List.find?_eq_none.2 fun run hrun hcovers =>
      hruns ⟨run, hrun, CaseRun.mem_codes_of_covers hcovers⟩
  rw [mapCase, hexpansion, hrun]

theorem Settles.mapCase_ofNat (h : Settles expansions runs) {code : Nat}
    (hcode : code ∈ reachedCodes expansions runs) :
    mapCase expansions runs (Char.ofNat code) = [Char.ofNat code] := by
  refine mapCase_of_not_mem (h _ ?_)
  rcases toNat_ofNat_eq_or code with heq | heq
  · rw [heq]
    exact List.mem_cons_of_mem _ hcode
  · rw [heq]
    exact List.mem_cons_self

/-- A character has an expansion, or it becomes one that stays as it is. -/
theorem Settles.expands_or_stays (h : Settles expansions runs) (c : Char) :
    (∃ entry ∈ expansions, mapCase expansions runs c = entry.2.map Char.ofNat) ∨
      ∃ d, mapCase expansions runs c = [d] ∧ mapCase expansions runs d = [d] := by
  cases hexpansion : expansions.find? (·.1 == c.toNat) with
  | some entry =>
    refine .inl ⟨entry, List.mem_of_find?_eq_some hexpansion, ?_⟩
    rw [mapCase, hexpansion]
  | none =>
    right
    cases hfound : runs.find? (·.covers c.toNat) with
    | none =>
      have hstays : mapCase expansions runs c = [c] := by
        rw [mapCase, hexpansion, hfound]
      exact ⟨c, hstays, hstays⟩
    | some run =>
      have hcovers := List.find?_some hfound
      refine ⟨Char.ofNat ((c.toNat : Int) + run.shift).toNat, ?_, h.mapCase_ofNat ?_⟩
      · rw [mapCase, hexpansion, hfound]
      · exact List.mem_append_right _ (List.mem_flatMap.2 ⟨run, List.mem_of_find?_eq_some hfound,
          List.mem_map_of_mem (CaseRun.mem_codes_of_covers hcovers)⟩)

end Mapping

theorem isSmall_of_mem_lowerCase {c d : Char} (h : d ∈ lowerCase c) : IsSmall d := by
  have hexpansions : ∀ entry ∈ lowerExpansions, ∀ code ∈ entry.2, IsSmall (Char.ofNat code) := by
    decide +kernel
  rcases lowerCase_settles.expands_or_stays c with ⟨entry, hentry, heq⟩ | ⟨e, heq, he⟩
  · rw [lowerCase, heq] at h
    obtain ⟨code, hcode, rfl⟩ := List.mem_map.1 h
    exact hexpansions entry hentry code hcode
  · rw [lowerCase, heq, List.mem_singleton] at h
    rw [h]
    exact he

/-- The first character of an upper case is its own upper case. -/
theorem exists_upperCase_eq_cons (c : Char) :
    ∃ first more, upperCase c = first :: more ∧ upperCase first = [first] := by
  rcases upperCase_settles.expands_or_stays c with ⟨entry, hentry, heq⟩ | ⟨first, heq, hfirst⟩
  · obtain ⟨code, codes, hcodes⟩ :=
      List.exists_cons_of_ne_nil (upperCase_leadsToWords.expansions_ne_nil entry hentry)
    have hreached : code ∈ reachedCodes upperExpansions upperRuns :=
      List.mem_append_left _ (List.mem_filterMap.2 ⟨entry, hentry, by rw [hcodes]; rfl⟩)
    rw [hcodes] at heq
    exact ⟨Char.ofNat code, codes.map Char.ofNat, heq, upperCase_settles.mapCase_ofNat hreached⟩
  · exact ⟨first, [], heq, hfirst⟩

/-! ## Words capitalized again -/

theorem isSmall_of_mem_flatMap {text : List Char} :
    ∀ c ∈ text.flatMap lowerCase, IsSmall c := by
  intro c hc
  obtain ⟨_, _, hc⟩ := List.mem_flatMap.1 hc
  exact isSmall_of_mem_lowerCase hc

theorem flatMap_lowerCase_eq_self_iff {text : List Char} :
    text.flatMap lowerCase = text ↔ ∀ c ∈ text, IsSmall c := by
  constructor
  · intro h
    rw [← h]
    exact isSmall_of_mem_flatMap
  · intro h
    induction text with
    | nil => rfl
    | cons c text ih =>
      obtain ⟨hc, htext⟩ := List.forall_mem_cons.1 h
      rw [List.flatMap_cons, hc, ih htext, List.singleton_append]

section Word

variable (word : List Char)

theorem smallBehindFirst_capitalize_iff :
    SmallBehindFirst (capitalize word) ↔ PlainStart word := by
  cases word with
  | nil => exact iff_of_true nofun nofun
  | cons first rest =>
    obtain ⟨upper, more, hupper, _⟩ := exists_upperCase_eq_cons first
    have hplain : PlainStart (first :: rest) ↔ ∀ c ∈ more, IsSmall c := by
      simp [PlainStart, SmallBehindFirst, hupper]
    rw [hplain, SmallBehindFirst, capitalize, hupper, List.cons_append, List.tail_cons,
      List.forall_mem_append]
    exact and_iff_left isSmall_of_mem_flatMap

theorem plainStart_capitalize : PlainStart (capitalize word) := by
  cases word with
  | nil => exact nofun
  | cons first rest =>
    obtain ⟨upper, more, hupper, hstays⟩ := exists_upperCase_eq_cons first
    simp [PlainStart, SmallBehindFirst, capitalize, hupper, hstays]

-- The first character stays, so the others decide.
theorem capitalize_capitalize_eq_iff :
    capitalize (capitalize word) = capitalize word ↔ PlainStart word := by
  rw [← smallBehindFirst_capitalize_iff]
  cases word with
  | nil => exact iff_of_true rfl nofun
  | cons first rest =>
    obtain ⟨upper, more, hupper, hstays⟩ := exists_upperCase_eq_cons first
    rw [capitalize, hupper, List.cons_append, capitalize, hstays, List.singleton_append,
      List.cons_eq_cons, and_iff_right rfl, flatMap_lowerCase_eq_self_iff]
    rfl

end Word

/-! ## Texts -/

theorem words_intercalate {parts : List (List Char)} (h : ∀ part ∈ parts, IsWord part) :
    words (List.intercalate [' '] parts) = parts := by
  by_cases hne : parts = []
  · rw [hne]
    rfl
  rw [words, piecesAt_intercalate (by decide) hne fun part hpart => (h part hpart).2,
    List.filter_eq_self]
  intro part hpart
  rw [Bool.not_eq_true', List.isEmpty_eq_false_iff]
  exact (h part hpart).1

/-- The words of a title case are the words of the text, each of them capitalized. -/
theorem words_titleCaseChars (text : List Char) :
    words (titleCaseChars text) = (words text).map capitalize := by
  refine words_intercalate fun part hpart => ?_
  obtain ⟨word, hword, rfl⟩ := List.mem_map.1 hpart
  exact (isWord_of_mem_words hword).capitalize

theorem titleCaseChars_eq_iff {a b : List Char} :
    titleCaseChars a = titleCaseChars b ↔ (words a).map capitalize = (words b).map capitalize := by
  constructor
  · intro h
    rw [← words_titleCaseChars, h, words_titleCaseChars]
  · intro h
    rw [titleCaseChars, h, ← titleCaseChars]

section Texts

variable (text : String)

theorem toList_titleCase : (titleCase text).toList = titleCaseChars text.toList :=
  String.toList_ofList

theorem titleCase_titleCase_eq_iff :
    titleCase (titleCase text) = titleCase text ↔ StartsPlain text := by
  simp only [← String.toList_inj, toList_titleCase, titleCaseChars_eq_iff, words_titleCaseChars,
    List.map_map, List.map_inj_left, Function.comp_apply, capitalize_capitalize_eq_iff, StartsPlain]

theorem smallBehindFirst_words_titleCase_iff :
    (∀ word ∈ words (titleCase text).toList, SmallBehindFirst word) ↔ StartsPlain text := by
  simp only [toList_titleCase, words_titleCaseChars, List.forall_mem_map,
    smallBehindFirst_capitalize_iff, StartsPlain]

/-- Whatever the text, its title case has taken its last form when it is put in title case once
more. -/
theorem titleCase_titleCase_titleCase :
    titleCase (titleCase (titleCase text)) = titleCase (titleCase text) := by
  rw [titleCase_titleCase_eq_iff, StartsPlain, toList_titleCase, words_titleCaseChars,
    List.forall_mem_map]
  exact fun word _ => plainStart_capitalize word

end Texts

end RecordQuery.Text
