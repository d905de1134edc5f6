/-!
# Taking joined texts apart

When pieces can be told from what stands behind them, a text that joins them with separators
determines them. Two ways to tell them are given: pieces that are free of the separator, and
pieces in which brackets are closed and the separator stands between brackets only.
-/

namespace RecordQuery.Text

section Stops

variable {α : Type} {p : α → Bool}

theorem takeWhile_append_of_stop {a x : List α} (ha : ∀ c ∈ a, p c = true)
    (hx : ∀ c ∈ x.head?, p c = false) : (a ++ x).takeWhile p = a := by
  rw [List.takeWhile_append_of_pos ha]
  cases x with
  | nil => rw [List.takeWhile_nil, List.append_nil]
  | cons c x =>
    have hc : ¬ p c = true := by
      rw [hx c rfl]
      decide
    rw [List.takeWhile_cons_of_neg hc, List.append_nil]

theorem dropWhile_append_of_stop {a x : List α} (ha : ∀ c ∈ a, p c = true)
    (hx : ∀ c ∈ x.head?, p c = false) : (a ++ x).dropWhile p = x := by
  rw [List.dropWhile_append_of_pos ha]
  cases x with
  | nil => rfl
  | cons c x => rw [List.dropWhile_cons, hx c rfl, if_neg Bool.false_ne_true]

theorem append_inj_of_stop {a b x y : List α} (ha : ∀ c ∈ a, p c = true)
    (hb : ∀ c ∈ b, p c = true) (hx : ∀ c ∈ x.head?, p c = false)
    (hy : ∀ c ∈ y.head?, p c = false) (h : a ++ x = b ++ y) : a = b ∧ x = y := by
  have hab : a = b := by
    rw [← takeWhile_append_of_stop ha hx, h, takeWhile_append_of_stop hb hy]
  subst hab
  exact ⟨rfl, List.append_cancel_left h⟩

end Stops

theorem forall_head?_cons {α : Type} {p : α → Prop} {c : α} {rest : List α} :
    (∀ d ∈ (c :: rest).head?, p d) ↔ p c := by
  rw [List.head?_cons]
  exact ⟨fun h => h c rfl, fun h d hd => Option.some.inj hd ▸ h⟩

/-- Nothing is left, or a separator comes next. -/
def Behind (separator : Char) (rest : List Char) : Prop := ∀ c ∈ rest.head?, c = separator

theorem behind_nil (separator : Char) : Behind separator [] := by
  intro c hc
  exact absurd hc (by simp)

theorem behind_cons (separator : Char) (rest : List Char) :
    Behind separator (separator :: rest) := by
  intro c hc
  exact (Option.some.inj hc).symm

/-- A piece of this kind is told from what stands behind it. -/
def Delimited (separator : Char) (piece : List Char → Prop) : Prop :=
  ∀ ⦃a b x y : List Char⦄, piece a → piece b → Behind separator x → Behind separator y →
    a ++ x = b ++ y → a = b ∧ x = y

theorem delimited_not_mem (separator : Char) : Delimited separator (separator ∉ ·) := by
  intro a b x y ha hb hx hy h
  -- A piece goes on as long as there is no separator, and what is behind it stops at once.
  have hfree : ∀ {a : List Char}, separator ∉ a → ∀ c ∈ a, (c != separator) = true := by
    intro a ha c hc
    rw [bne_iff_ne]
    rintro rfl
    exact ha hc
  have hstop : ∀ {x : List Char}, Behind separator x → ∀ c ∈ x.head?,
      (c != separator) = false := by
    intro x hx c hc
    rw [hx c hc, bne_self_eq_false]
  exact append_inj_of_stop (hfree ha) (hfree hb) (hstop hx) (hstop hy) h

theorem intercalate_cons (separator a : List Char) (pieces : List (List Char)) :
    separator.intercalate (a :: pieces) = a ++ pieces.flatMap (separator ++ ·) := by
  induction pieces generalizing a with
  | nil => rw [List.intercalate_singleton, List.flatMap_nil, List.append_nil]
  | cons b pieces ih =>
    rw [List.intercalate_cons_cons, ih b, List.flatMap_cons, List.append_assoc, List.append_assoc]

section Joining

variable {separator : Char} {piece : List Char → Prop}

theorem behind_flatMap (pieces : List (List Char)) :
    Behind separator (pieces.flatMap (separator :: ·)) := by
  cases pieces with
  | nil => exact behind_nil separator
  | cons a pieces =>
    rw [List.flatMap_cons]
    exact behind_cons separator _

-- With a separator before each of them, pieces can be read off one by one.
theorem Delimited.flatMap_inj (h : Delimited separator piece) {pieces others : List (List Char)}
    (hpieces : ∀ a ∈ pieces, piece a) (hothers : ∀ b ∈ others, piece b)
    (heq : pieces.flatMap (separator :: ·) = others.flatMap (separator :: ·)) :
    pieces = others := by
  induction pieces generalizing others with
  | nil =>
    cases others with
    | nil => rfl
    | cons b others => exact absurd heq (by simp)
  | cons a pieces ih =>
    cases others with
    | nil => exact absurd heq (by simp)
    | cons b others =>
      rw [List.flatMap_cons, List.flatMap_cons, List.cons_append, List.cons_append] at heq
      obtain ⟨ha, hpieces⟩ := List.forall_mem_cons.1 hpieces
      obtain ⟨hb, hothers⟩ := List.forall_mem_cons.1 hothers
      obtain ⟨hab, hrest⟩ := h ha hb (behind_flatMap pieces) (behind_flatMap others)
        (List.cons.inj heq).2
      rw [hab, ih hpieces hothers hrest]

theorem intercalate_cons_eq_append_flatMap (a : List Char) (pieces : List (List Char)) :
    [separator].intercalate (a :: pieces) = a ++ pieces.flatMap (separator :: ·) :=
  intercalate_cons [separator] a pieces

theorem intercalate_append {pieces others : List (List Char)} (hne : pieces ≠ [])
    (hne' : others ≠ []) :
    [separator].intercalate (pieces ++ others) =
      [separator].intercalate pieces ++ separator :: [separator].intercalate others := by
  obtain ⟨a, pieces, rfl⟩ := List.exists_cons_of_ne_nil hne
  obtain ⟨b, others, rfl⟩ := List.exists_cons_of_ne_nil hne'
  rw [List.cons_append]
  simp only [intercalate_cons_eq_append_flatMap, List.flatMap_append, List.flatMap_cons,
    List.append_assoc, List.cons_append]

-- Joined pieces consist of separators and of what the pieces consist of.
theorem mem_intercalate {c : Char} {pieces : List (List Char)}
    (h : c ∈ [separator].intercalate pieces) : c = separator ∨ ∃ a ∈ pieces, c ∈ a := by
  cases pieces with
  | nil => exact absurd h List.not_mem_nil
  | cons a pieces =>
    rw [intercalate_cons_eq_append_flatMap, List.mem_append, List.mem_flatMap] at h
    rcases h with hc | ⟨b, hb, hc⟩
    · exact .inr ⟨a, List.mem_cons_self, hc⟩
    · rcases List.mem_cons.1 hc with rfl | hc
      · exact .inl rfl
      · exact .inr ⟨b, List.mem_cons_of_mem a hb, hc⟩

theorem eq_nil_of_intercalate_eq_nil {pieces : List (List Char)} (hne : ∀ a ∈ pieces, a ≠ [])
    (h : [separator].intercalate pieces = []) : pieces = [] := by
  cases pieces with
  | nil => rfl
  | cons a pieces =>
    rw [intercalate_cons_eq_append_flatMap] at h
    exact absurd (List.append_eq_nil_iff.1 h).1 (hne a List.mem_cons_self)

theorem Delimited.intercalate_inj (h : Delimited separator piece)
    {pieces others : List (List Char)} (hpieces : ∀ a ∈ pieces, piece a)
    (hothers : ∀ b ∈ others, piece b) (hne : pieces ≠ []) (hne' : others ≠ [])
    (heq : [separator].intercalate pieces = [separator].intercalate others) :
    pieces = others := by
  -- A separator in front makes the first piece like all the others.
  have hmark : ∀ {pieces : List (List Char)}, pieces ≠ [] →
      pieces.flatMap (separator :: ·) = separator :: [separator].intercalate pieces := by
    intro pieces hne
    obtain ⟨a, pieces, rfl⟩ := List.exists_cons_of_ne_nil hne
    rw [intercalate_cons_eq_append_flatMap, List.flatMap_cons, List.cons_append]
  apply h.flatMap_inj hpieces hothers
  rw [hmark hne, hmark hne', heq]

end Joining

/-! ## Brackets -/

/-- How many brackets are open behind a character before which `depth` are. There is no number if
it closes a bracket that was not opened, or if it is a bar outside of all brackets. -/
def depthStep (depth : Nat) (c : Char) : Option Nat :=
  if c = '[' then some (depth + 1)
  else if c = ']' then (if depth = 0 then none else some (depth - 1))
  else if c = '|' ∧ depth = 0 then none
  else some depth

def depthAfter (depth : Nat) (text : List Char) : Option Nat := text.foldlM depthStep depth

/-- Brackets are closed, and bars stand in brackets only. -/
def Enclosed (text : List Char) : Prop := depthAfter 0 text = some 0

instance (text : List Char) : Decidable (Enclosed text) :=
  inferInstanceAs (Decidable (depthAfter 0 text = some 0))

theorem depthAfter_nil (depth : Nat) : depthAfter depth [] = some depth := rfl

theorem depthAfter_cons (depth : Nat) (c : Char) (text : List Char) :
    depthAfter depth (c :: text) = (depthStep depth c).bind (depthAfter · text) := by
  rw [depthAfter, List.foldlM_cons]
  rfl

theorem depthAfter_append (depth : Nat) (a b : List Char) :
    depthAfter depth (a ++ b) = (depthAfter depth a).bind (depthAfter · b) := by
  rw [depthAfter, List.foldlM_append]
  rfl

theorem depthStep_add {depth final : Nat} {c : Char} (more : Nat)
    (h : depthStep depth c = some final) : depthStep (depth + more) c = some (final + more) := by
  unfold depthStep at h ⊢
  by_cases hopen : c = '['
  · rw [if_pos hopen, Option.some.injEq] at h ⊢
    omega
  · rw [if_neg hopen] at h ⊢
    by_cases hclose : c = ']'
    · rw [if_pos hclose] at h ⊢
      by_cases hdepth : depth = 0
      · rw [if_pos hdepth] at h
        exact absurd h (by simp)
      · rw [if_neg hdepth, Option.some.injEq] at h
        rw [if_neg (by omega), Option.some.injEq]
        omega
    · rw [if_neg hclose] at h ⊢
      by_cases hbar : c = '|' ∧ depth = 0
      · rw [if_pos hbar] at h
        exact absurd h (by simp)
      · rw [if_neg hbar, Option.some.injEq] at h
        -- A bar that was within brackets still is.
        rw [if_neg fun hc => hbar ⟨hc.1, Nat.eq_zero_of_add_eq_zero_right hc.2⟩,
          Option.some.injEq]
        omega

-- What is true of a text stays so between more brackets.
theorem depthAfter_add {depth final : Nat} {text : List Char} (more : Nat)
    (h : depthAfter depth text = some final) :
    depthAfter (depth + more) text = some (final + more) := by
  induction text generalizing depth with
  | nil =>
    rw [depthAfter_nil, Option.some.injEq] at h ⊢
    omega
  | cons c text ih =>
    rw [depthAfter_cons, Option.bind_eq_some_iff] at h ⊢
    obtain ⟨next, hstep, hrest⟩ := h
    exact ⟨next + more, depthStep_add more hstep, ih hrest⟩

namespace Enclosed

variable {a b : List Char}

theorem depthAfter_eq (h : Enclosed a) (depth : Nat) : depthAfter depth a = some depth := by
  have hmore := depthAfter_add depth h
  rwa [Nat.zero_add] at hmore

theorem append (ha : Enclosed a) (hb : Enclosed b) : Enclosed (a ++ b) := by
  rw [Enclosed, depthAfter_append, ha, Option.bind_some]
  exact hb

theorem of_forall (h : ∀ c ∈ a, c ≠ '[' ∧ c ≠ ']' ∧ c ≠ '|') : Enclosed a := by
  induction a with
  | nil => rfl
  | cons c a ih =>
    obtain ⟨⟨hopen, hclose, hbar⟩, ha⟩ := List.forall_mem_cons.1 h
    have hstep : depthStep 0 c = some 0 := by
      rw [depthStep, if_neg hopen, if_neg hclose, if_neg fun hc => hbar hc.1]
    rw [Enclosed, depthAfter_cons, hstep, Option.bind_some]
    exact ih ha

-- Within brackets a text may hold bars.
theorem bracketed (h : depthAfter 1 a = some 1) : Enclosed ('[' :: (a ++ [']'])) := by
  show depthAfter 1 (a ++ [']']) = some 0
  rw [depthAfter_append, h]
  rfl

end Enclosed

-- Where the separator itself may stand, it may stand between enclosed pieces.
theorem depthAfter_intercalate {separator : Char} {depth : Nat} {pieces : List (List Char)}
    (hseparator : depthStep depth separator = some depth) (h : ∀ a ∈ pieces, Enclosed a) :
    depthAfter depth ([separator].intercalate pieces) = some depth := by
  cases pieces with
  | nil => rfl
  | cons a pieces =>
    obtain ⟨ha, hpieces⟩ := List.forall_mem_cons.1 h
    rw [intercalate_cons_eq_append_flatMap, depthAfter_append, ha.depthAfter_eq,
      Option.bind_some]
    -- The induction is on the pieces behind the first one, each with its separator.
    clear h ha a
    induction pieces with
    | nil => rfl
    | cons b pieces ih =>
      obtain ⟨hb, hpieces⟩ := List.forall_mem_cons.1 hpieces
      rw [List.flatMap_cons, List.cons_append, depthAfter_cons, hseparator, Option.bind_some,
        depthAfter_append, hb.depthAfter_eq, Option.bind_some]
      exact ih hpieces

-- Bars between enclosed pieces are the only ones outside of brackets.
theorem delimited_enclosed : Delimited '|' Enclosed := by
  -- Behind an enclosed piece a bar would be outside of brackets.
  have hshort : ∀ {a rest : List Char}, Enclosed a → Behind '|' rest →
      Enclosed (a ++ rest) → rest = [] := by
    intro a rest ha hrest h
    cases rest with
    | nil => rfl
    | cons c rest =>
      rw [hrest c rfl, Enclosed, depthAfter_append, ha, Option.bind_some] at h
      exact absurd h (by rw [depthAfter_cons]; simp [depthStep])
  intro a b x y ha hb hx hy h
  -- One piece is the beginning of the other, and what goes on behind it begins with a bar.
  rcases List.append_eq_append_iff.1 h with ⟨rest, rfl, rfl⟩ | ⟨rest, rfl, rfl⟩
  · have hrest : Behind '|' rest := by
      intro c hc
      cases rest with
      | nil => exact absurd hc (by simp)
      | cons d rest => exact hx c hc
    rw [hshort ha hrest hb, List.append_nil]
    exact ⟨rfl, rfl⟩
  · have hrest : Behind '|' rest := by
      intro c hc
      cases rest with
      | nil => exact absurd hc (by simp)
      | cons d rest => exact hy c hc
    rw [hshort hb hrest ha, List.append_nil]
    exact ⟨rfl, rfl⟩

end RecordQuery.Text
