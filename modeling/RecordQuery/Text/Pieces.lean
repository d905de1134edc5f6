/-!
# Pieces of a text

The parts between the characters that separate them. There is always at least one; put together
again with the separators between them, they are the text.
-/

namespace RecordQuery.Text

def piecesAt (separates : Char → Bool) : List Char → List (List Char)
  | [] => [[]]
  | c :: rest =>
    if separates c then [] :: piecesAt separates rest
    else (piecesAt separates rest).modifyHead (c :: ·)

def pieces (separator : Char) (text : List Char) : List (List Char) :=
  piecesAt (· == separator) text

theorem piecesAt_ne_nil (separates : Char → Bool) (text : List Char) :
    piecesAt separates text ≠ [] := by
  induction text with
  | nil => exact List.cons_ne_nil _ _
  | cons c rest ih =>
    unfold piecesAt
    split
    · exact List.cons_ne_nil _ _
    · rwa [ne_eq, List.modifyHead_eq_nil_iff]

theorem eq_false_of_mem_piecesAt {separates : Char → Bool} {text piece : List Char} {c : Char}
    (hpiece : piece ∈ piecesAt separates text) (hc : c ∈ piece) : separates c = false := by
  induction text generalizing piece with
  | nil =>
    rw [piecesAt, List.mem_singleton] at hpiece
    rw [hpiece] at hc
    exact absurd hc List.not_mem_nil
  | cons d rest ih =>
    unfold piecesAt at hpiece
    split at hpiece
    · rcases List.mem_cons.1 hpiece with rfl | hpiece
      · exact absurd hc List.not_mem_nil
      · exact ih hpiece hc
    · -- A character that separates nothing goes to the front of the first piece.
      rename_i hd
      cases h : piecesAt separates rest with
      | nil => exact absurd h (piecesAt_ne_nil _ _)
      | cons first others =>
        rw [h] at hpiece ih
        rcases List.mem_cons.1 hpiece with rfl | hpiece
        · rcases List.mem_cons.1 hc with rfl | hc
          · exact Bool.eq_false_iff.2 hd
          · exact ih List.mem_cons_self hc
        · exact ih (List.mem_cons_of_mem _ hpiece) hc

theorem intercalate_pieces (separator : Char) (text : List Char) :
    List.intercalate [separator] (pieces separator text) = text := by
  unfold pieces
  induction text with
  | nil => rfl
  | cons c rest ih =>
    have hne := piecesAt_ne_nil (· == separator) rest
    unfold piecesAt
    cases h : piecesAt (· == separator) rest with
    | nil => exact absurd h hne
    | cons first others =>
      rw [h] at ih
      split
      · rename_i hc
        rw [beq_iff_eq.1 hc]
        simp only [List.intercalate, List.intersperse, List.flatten_cons] at ih ⊢
        rw [← ih]
        rfl
      · rw [List.modifyHead_cons, ← ih]
        cases others <;> simp [List.intercalate, List.intersperse]

theorem piecesAt_append_cons {separates : Char → Bool} {c : Char} (hc : separates c = true)
    (a b : List Char) :
    piecesAt separates (a ++ c :: b) = piecesAt separates a ++ piecesAt separates b := by
  induction a with
  | nil =>
    have hcons : piecesAt separates (c :: b) = [] :: piecesAt separates b := by
      rw [piecesAt, if_pos hc]
    exact hcons
  | cons d a ih =>
    rw [List.cons_append, piecesAt, piecesAt, ih]
    split
    · rfl
    · obtain ⟨first, others, h⟩ := List.exists_cons_of_ne_nil (piecesAt_ne_nil separates a)
      rw [h]
      rfl

theorem pieces_append_cons (separator : Char) (a b : List Char) :
    pieces separator (a ++ separator :: b) = pieces separator a ++ pieces separator b := by
  unfold pieces
  apply piecesAt_append_cons
  exact beq_self_eq_true separator

theorem head?_intercalate_cons (separator c : Char) (text : List Char)
    (parts : List (List Char)) :
    (List.intercalate [separator] ((c :: text) :: parts)).head? = some c := by
  cases parts with
  | nil => rw [List.intercalate_singleton, List.head?_cons]
  | cons next parts =>
    rw [List.intercalate_cons_cons]
    rfl

theorem piecesAt_of_forall {separates : Char → Bool} {text : List Char}
    (h : ∀ c ∈ text, separates c = false) : piecesAt separates text = [text] := by
  induction text with
  | nil => rfl
  | cons c text ih =>
    obtain ⟨hc, htext⟩ := List.forall_mem_cons.1 h
    rw [piecesAt, if_neg (Bool.eq_false_iff.1 hc), ih htext]
    rfl

theorem piecesAt_intercalate {separates : Char → Bool} {separator : Char}
    (hseparator : separates separator = true) {parts : List (List Char)} (hne : parts ≠ [])
    (h : ∀ part ∈ parts, ∀ c ∈ part, separates c = false) :
    piecesAt separates (List.intercalate [separator] parts) = parts := by
  induction parts with
  | nil => exact absurd rfl hne
  | cons part parts ih =>
    obtain ⟨hpart, hparts⟩ := List.forall_mem_cons.1 h
    cases parts with
    | nil => rw [List.intercalate_singleton, piecesAt_of_forall hpart]
    | cons next parts =>
      rw [List.intercalate_cons_cons, List.append_assoc, List.singleton_append,
        piecesAt_append_cons hseparator, piecesAt_of_forall hpart, ih (List.cons_ne_nil _ _) hparts]
      rfl

theorem beq_eq_false_of_not_mem {separator : Char} {text : List Char} (h : separator ∉ text) :
    ∀ c ∈ text, (c == separator) = false :=
  fun _ hc => beq_false_of_ne fun heq => h (heq ▸ hc)

theorem pieces_of_not_mem {separator : Char} {text : List Char} (h : separator ∉ text) :
    pieces separator text = [text] :=
  piecesAt_of_forall (beq_eq_false_of_not_mem h)

theorem not_mem_of_mem_pieces {separator : Char} {text piece : List Char}
    (h : piece ∈ pieces separator text) : separator ∉ piece := by
  intro hmem
  have hfalse := eq_false_of_mem_piecesAt h hmem
  rw [beq_self_eq_true] at hfalse
  exact Bool.noConfusion hfalse

theorem pieces_intercalate {separator : Char} {parts : List (List Char)} (hne : parts ≠ [])
    (h : ∀ part ∈ parts, separator ∉ part) :
    pieces separator (List.intercalate [separator] parts) = parts := by
  unfold pieces
  apply piecesAt_intercalate
  · exact beq_self_eq_true separator
  · exact hne
  · exact fun part hpart => beq_eq_false_of_not_mem (h part hpart)

/-!
## Blank characters and words

The characters with the Unicode property White_Space, and the words they separate.
-/

def isBlank (c : Char) : Bool :=
  let code := c.toNat
  (0x09 ≤ code && code ≤ 0x0D) || code == 0x20 || code == 0x85 || code == 0xA0 || code == 0x1680 ||
    (0x2000 ≤ code && code ≤ 0x200A) || code == 0x2028 || code == 0x2029 || code == 0x202F ||
    code == 0x205F || code == 0x3000

/-- The runs of characters that are not blank, in order. -/
def words (text : List Char) : List (List Char) :=
  (piecesAt isBlank text).filter (!·.isEmpty)

theorem isBlank_eq_false_of_mem_words {text word : List Char} {c : Char} (hword : word ∈ words text)
    (hc : c ∈ word) : isBlank c = false :=
  eq_false_of_mem_piecesAt (List.mem_filter.1 hword).1 hc

end RecordQuery.Text
