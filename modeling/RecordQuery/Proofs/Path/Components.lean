import Mathlib.Data.List.Infix
import Mathlib.Data.List.Nodup
import RecordQuery.Path

/-!
# The components of paths

What joining paths and going up from a path do to components. Main statements: a relative path that
is joined to a path puts its names behind the components, and the directories that lead to a path
have the beginnings of its components, each of them once.
-/

namespace RecordQuery.Path

-- The components that pieces stand for.
def named (pieces : List (List Char)) : List Component :=
  (pieces.filter (!isIdle ·)).map componentOf

theorem components_eq (path : Path) :
    path.components = path.parts.1.components ++ named path.parts.2 := rfl

section Named

variable {piece : List Char} {pieces : List (List Char)}

theorem named_append (pieces others : List (List Char)) :
    named (pieces ++ others) = named pieces ++ named others := by
  rw [named, List.filter_append, List.map_append]
  rfl

theorem named_reverse (pieces : List (List Char)) :
    named pieces.reverse = (named pieces).reverse := by
  rw [named, List.filter_reverse, List.map_reverse]
  rfl

theorem named_cons_of_idle (h : isIdle piece = true) : named (piece :: pieces) = named pieces := by
  rw [named, List.filter_cons_of_neg (by rw [h]; decide)]
  rfl

theorem named_cons_of_not_idle (h : isIdle piece = false) :
    named (piece :: pieces) = componentOf piece :: named pieces := by
  rw [named, List.filter_cons_of_pos (by rw [h]; decide)]
  rfl

theorem named_dropWhile (pieces : List (List Char)) :
    named (pieces.dropWhile isIdle) = named pieces := by
  induction pieces with
  | nil => rfl
  | cons piece pieces ih =>
    rw [List.dropWhile_cons]
    split
    · rename_i hidle
      rw [ih, named_cons_of_idle hidle]
    · rfl

end Named

/-! ## How a path is taken apart -/

-- The components that the first piece of a path without a slash in front stands for.
def leading (piece : List Char) : List Component :=
  if piece = ['.'] then [.here] else named [piece]

section Parts

variable {path : Path}

theorem components_of_root {rest : List Char} (h : path.text.toList = '/' :: rest) :
    path.components = .root :: named (Text.pieces '/' rest) := by
  have hparts : path.parts = (.root, Text.pieces '/' rest) := by
    rw [parts, h]
    rfl
  rw [components_eq, hparts]
  rfl

theorem components_of_pieces {piece : List Char} {pieces : List (List Char)}
    (hpath : path.isAbsolute = false)
    (h : Text.pieces '/' path.text.toList = piece :: pieces) :
    path.components = leading piece ++ named pieces := by
  have hparts : path.parts =
      if piece = ['.'] then (.here, pieces) else (.bare, piece :: pieces) := by
    unfold parts
    split
    · rename_i htext
      rw [isAbsolute, htext] at hpath
      exact Bool.noConfusion hpath
    · rw [h]
      split
      · rename_i heq
        obtain ⟨rfl, rfl⟩ := List.cons.inj heq
        rfl
      · rename_i hother
        rw [if_neg fun hpiece => hother pieces (by rw [hpiece])]
  rw [components_eq, hparts, leading]
  by_cases hpiece : piece = ['.']
  · rw [if_pos hpiece, if_pos hpiece]
    rfl
  · rw [if_neg hpiece, if_neg hpiece]
    exact named_append [piece] pieces

-- Behind a slash that is put after a text come pieces of their own.
theorem components_append_slash {joined : Path} {rest : List Char}
    (hne : path.text.toList ≠ []) (h : joined.text.toList = path.text.toList ++ '/' :: rest) :
    joined.components = path.components ++ named (Text.pieces '/' rest) := by
  obtain ⟨c, text, htext⟩ := List.exists_cons_of_ne_nil hne
  by_cases hc : c = '/'
  · rw [hc] at htext
    rw [htext, List.cons_append] at h
    rw [components_of_root h, components_of_root htext, Text.pieces_append_cons, named_append]
    rfl
  · have hrelative : ∀ {other : Path} {text : List Char}, other.text.toList = c :: text →
        other.isAbsolute = false := by
      intro other text hother
      rw [isAbsolute, hother, List.head?_cons, Option.some_beq_some, beq_eq_false_iff_ne]
      exact hc
    have hpieces : ∃ piece pieces, Text.pieces '/' path.text.toList = piece :: pieces :=
      List.exists_cons_of_ne_nil (Text.piecesAt_ne_nil _ _)
    obtain ⟨piece, pieces, hpieces⟩ := hpieces
    have hjoined : Text.pieces '/' joined.text.toList =
        piece :: (pieces ++ Text.pieces '/' rest) := by
      rw [h, Text.pieces_append_cons, hpieces]
      rfl
    rw [htext, List.cons_append] at h
    rw [components_of_pieces (hrelative h) hjoined, components_of_pieces (hrelative htext) hpieces,
      named_append, List.append_assoc]

-- A slash that is there already does as well.
theorem components_append_of_slash {joined : Path} {first rest : List Char}
    (hpath : path.text.toList = first ++ ['/']) (h : joined.text.toList = first ++ '/' :: rest) :
    joined.components = path.components ++ named (Text.pieces '/' rest) := by
  by_cases hfirst : first = []
  · subst hfirst
    rw [components_of_root h, components_of_root hpath]
    rfl
  · have hclipped : (⟨String.ofList first⟩ : Path).text.toList = first := String.toList_ofList
    have hne : (⟨String.ofList first⟩ : Path).text.toList ≠ [] := by
      rwa [hclipped]
    rw [← hclipped] at h hpath
    rw [components_append_slash hne h, components_append_slash hne hpath, List.append_assoc]
    rfl

end Parts

/-! ## Joining -/

theorem join_of_isAbsolute {path : Path} (h : path.isAbsolute = true) (base : Path) :
    base.join path = path := by
  rw [join, if_pos h]

theorem isAbsolute_join {base : Path} (h : base.isAbsolute = true) (path : Path) :
    (base.join path).isAbsolute = true := by
  have happend : ∀ more, isAbsolute ⟨base.text ++ more⟩ = true := by
    intro more
    rw [isAbsolute, beq_iff_eq] at h ⊢
    rw [String.toList_append, List.head?_append, h]
    rfl
  unfold join
  split
  · rename_i hpath
    exact hpath
  · split
    · exact happend _
    · rw [String.append_assoc]
      exact happend _

-- A relative path puts its names behind the components of the path it is joined to.
theorem components_join {base path : Path} (hpath : path.isAbsolute = false)
    (hbase : base.text ≠ "") :
    (base.join path).components =
      base.components ++ named (Text.pieces '/' path.text.toList) := by
  have hempty : base.text.isEmpty = false := by
    rw [Bool.eq_false_iff, ne_eq, String.isEmpty_iff]
    exact hbase
  unfold join
  rw [if_neg (by rw [hpath]; decide), hempty, Bool.false_or]
  by_cases hslash : base.text.toList.getLast? = some '/'
  · -- The slash at the end of the base is the one in between.
    obtain ⟨first, hfirst⟩ := List.getLast?_eq_some_iff.1 hslash
    rw [if_pos (by rw [hslash]; rfl)]
    apply components_append_of_slash hfirst
    rw [String.toList_append, hfirst, List.append_assoc]
    rfl
  · rw [if_neg (by rw [beq_iff_eq]; exact hslash)]
    apply components_append_slash
    · rw [ne_eq, String.toList_eq_nil_iff]
      exact hbase
    · rw [String.toList_append, String.toList_append, List.append_assoc]
      rfl

/-! ## Going up -/

/-- A start and pieces that a path is taken apart into. -/
structure Apart (start : Start) (pieces : List (List Char)) : Prop where
  split : ∀ piece ∈ pieces, '/' ∉ piece
  bare : start = .bare → ∀ piece ∈ pieces.head?, isIdle piece = false

namespace Apart

variable {start : Start} {pieces others : List (List Char)}

theorem of_prefix (h : Apart start pieces) (hfront : others <+: pieces) : Apart start others := by
  obtain ⟨last, rfl⟩ := hfront
  refine ⟨fun piece hpiece => h.split piece (List.mem_append_left _ hpiece), ?_⟩
  intro hstart piece hpiece
  apply h.bare hstart
  rw [List.head?_append, Option.mem_def.1 hpiece]
  rfl

end Apart

theorem isIdle_eq_false_iff {piece : List Char} :
    isIdle piece = false ↔ piece ≠ [] ∧ piece ≠ ['.'] := by
  rw [isIdle, Bool.or_eq_false_iff, beq_eq_false_iff_ne, beq_eq_false_iff_ne]

theorem apart_parts {path : Path} (h : path.text ≠ "") : Apart path.parts.1 path.parts.2 := by
  unfold parts
  split
  · exact ⟨fun piece => Text.not_mem_of_mem_pieces, fun hstart => nomatch hstart⟩
  · rename_i hrelative
    split
    · rename_i hpieces
      refine ⟨fun piece hpiece => ?_, fun hstart => nomatch hstart⟩
      have hmem : piece ∈ Text.pieces '/' path.text.toList := by
        rw [hpieces]
        exact List.mem_cons_of_mem _ hpiece
      exact Text.not_mem_of_mem_pieces hmem
    · rename_i hpieces
      refine ⟨fun piece => Text.not_mem_of_mem_pieces, fun _ piece hpiece => ?_⟩
      obtain ⟨others, hsplit⟩ := List.head?_eq_some_iff.1 hpiece
      have hsplit : Text.pieces '/' path.text.toList = piece :: others := hsplit
      rw [isIdle_eq_false_iff]
      refine ⟨?_, fun hdot => hpieces others (by rw [hsplit, hdot])⟩
      -- The first piece is empty in front of a slash only, and in a path that says nothing.
      rintro rfl
      have htext := Text.intercalate_pieces '/' path.text.toList
      rw [hsplit] at htext
      cases others with
      | nil => exact h (String.toList_eq_nil_iff.1 htext.symm)
      | cons next others =>
        rw [List.intercalate_cons_cons] at htext
        exact hrelative _ htext.symm

theorem components_ofParts {start : Start} {pieces : List (List Char)} (h : Apart start pieces) :
    (ofParts start pieces).components = start.components ++ named pieces := by
  -- Pieces that are put together are the pieces of what they make.
  have hpieces : pieces ≠ [] → Text.pieces '/' (List.intercalate ['/'] pieces) = pieces :=
    fun hne => Text.pieces_intercalate hne h.split
  cases start with
  | root =>
    have htext : (ofParts .root pieces).text.toList = '/' :: List.intercalate ['/'] pieces :=
      String.toList_ofList
    rw [components_of_root htext]
    by_cases hne : pieces = []
    · subst hne
      rfl
    · rw [hpieces hne]
      rfl
  | here =>
    by_cases hne : pieces = []
    · subst hne
      decide
    · have htext : (ofParts .here pieces).text.toList =
          (⟨"."⟩ : Path).text.toList ++ '/' :: List.intercalate ['/'] pieces := by
        rw [ofParts, String.toList_ofList, if_neg (by rwa [List.isEmpty_iff])]
        rfl
      rw [components_append_slash (by decide) htext, hpieces hne]
      rfl
  | bare =>
    cases pieces with
    | nil => decide
    | cons piece pieces =>
      obtain ⟨hne, hdot⟩ := isIdle_eq_false_iff.1 (h.bare rfl piece rfl)
      have htext : (ofParts .bare (piece :: pieces)).text.toList =
          List.intercalate ['/'] (piece :: pieces) := String.toList_ofList
      have hrelative : (ofParts .bare (piece :: pieces)).isAbsolute = false := by
        obtain ⟨c, piece, rfl⟩ := List.exists_cons_of_ne_nil hne
        rw [isAbsolute, htext, Text.head?_intercalate_cons, beq_eq_false_iff_ne]
        rintro hc
        obtain rfl := Option.some.inj hc
        exact h.split _ List.mem_cons_self List.mem_cons_self
      rw [components_of_pieces hrelative (by rw [htext, hpieces (List.cons_ne_nil _ _)]),
        leading, if_neg hdot, ← named_append]
      rfl

theorem tails_eq_cons {α : Type} (l : List α) : l.tails = l :: l.tails.tail := by
  cases l <;> rfl

-- The pieces are the last one first, as they are when one goes up.
theorem components_above (start : Start) (pieces : List (List Char))
    (h : Apart start pieces.reverse) :
    (above start pieces).map components =
      (named pieces).tails.tail.map (fun names => start.components ++ names.reverse) ++
        if start = .here then [[]] else [] := by
  have hnamed := named_dropWhile pieces
  fun_induction above start pieces with
  | case1 pieces hdrop hstart =>
    rw [hdrop] at hnamed
    rw [← hnamed, if_pos hstart]
    rfl
  | case2 pieces hdrop hstart =>
    rw [hdrop] at hnamed
    rw [← hnamed, if_neg hstart]
    rfl
  | case3 pieces piece rest hdrop rest' ih =>
    -- One name goes, with the idle pieces around it.
    have hidle : isIdle piece = false := by
      have hfirst := List.head?_dropWhile_not isIdle pieces
      rwa [hdrop] at hfirst
    have hrest : named rest' = named rest := named_dropWhile rest
    rw [hdrop, named_cons_of_not_idle hidle, ← hrest] at hnamed
    have hsuffix : rest' <:+ pieces := by
      have hcons := List.dropWhile_suffix (l := pieces) isIdle
      rw [hdrop] at hcons
      exact (List.dropWhile_suffix isIdle).trans ((List.suffix_cons piece rest).trans hcons)
    have hrest' : Apart start rest'.reverse := h.of_prefix (List.reverse_prefix.2 hsuffix)
    rw [List.map_cons, components_ofParts hrest', named_reverse, ih hrest' (named_dropWhile rest'),
      ← hnamed, List.tails_cons, List.tail_cons, tails_eq_cons (named rest')]
    rfl

theorem components_ancestors (path : Path) :
    path.ancestors.map components =
      (named path.parts.2).inits.reverse.map (path.parts.1.components ++ ·) ++
        if path.parts.1 = .here then [[]] else [] := by
  by_cases hpath : path.text = ""
  · obtain rfl : path = ⟨""⟩ := congrArg Path.mk hpath
    have habove : above .bare [[]] = [] := by
      rw [above]
      rfl
    show components ⟨""⟩ :: (above .bare [[]]).map components = [[]]
    rw [habove]
    decide
  have hparts : Apart path.parts.1 path.parts.2.reverse.reverse := by
    rw [List.reverse_reverse]
    exact apart_parts hpath
  have htails : (named path.parts.2).inits.reverse =
      named path.parts.2 :: (named path.parts.2.reverse).tails.tail.map List.reverse := by
    rw [List.inits_eq_tails, List.reverse_reverse, named_reverse, tails_eq_cons, List.map_cons,
      List.reverse_reverse, List.tail_cons]
  show path.components :: (above path.parts.1 path.parts.2.reverse).map components = _
  rw [components_above _ _ hparts, htails, List.map_cons, List.map_map]
  rfl

theorem nodup_inits {α : Type} (l : List α) : l.inits.Nodup := by
  induction l with
  | nil => exact List.nodup_singleton []
  | cons a l ih =>
    rw [List.inits_cons, List.nodup_cons]
    refine ⟨fun h => ?_, ih.map (List.cons_injective)⟩
    obtain ⟨_, _, h⟩ := List.mem_map.1 h
    exact List.cons_ne_nil _ _ h

/-- No two of the directories that lead to a path are the same place. -/
theorem nodup_components_ancestors (path : Path) : (path.ancestors.map components).Nodup := by
  rw [components_ancestors, List.nodup_append]
  refine ⟨((List.nodup_reverse.2 (nodup_inits _)).map (List.append_right_injective _)), ?_, ?_⟩
  · split
    · exact List.nodup_singleton []
    · exact List.nodup_nil
  · intro upper hupper last hlast
    split at hlast
    · rename_i hstart
      rw [List.mem_singleton.1 hlast]
      obtain ⟨names, _, rfl⟩ := List.mem_map.1 hupper
      rw [hstart]
      exact List.cons_ne_nil _ _
    · exact absurd hlast List.not_mem_nil

end RecordQuery.Path
