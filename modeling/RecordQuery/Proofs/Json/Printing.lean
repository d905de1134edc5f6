import RecordQuery.Json.Printer
import RecordQuery.Proofs.Json.Numeral
import RecordQuery.Proofs.Matching

/-!
# Written values

The two forms of a value differ in the blanks between its parts. In both of them the end of a value
can be told from its text alone, as strings end at the first quote that is not escaped, containers
end at their closing bracket, and what stands behind a number does not go on like one. Main
statement: values with the same text, compact or wide, are the same.
-/

namespace RecordQuery.Json

/-- The value can be read off the beginning of a text that does not go on like a number behind
it. -/
def Readable {α : Type} (text : α → List Char) (x : α) : Prop :=
  ∀ ⦃y : α⦄ ⦃u w : List Char⦄, goesOn u = false → goesOn w = false →
    text x ++ u = text y ++ w → x = y ∧ u = w

/-! ## Values and the values in them -/

@[elab_as_elim, induction_eliminator]
theorem Value.induct {motive : Value → Prop} (null : motive .null)
    (bool : ∀ flag, motive (.bool flag)) (number : ∀ n, motive (.number n))
    (string : ∀ text, motive (.string text))
    (array : ∀ items, (∀ item ∈ items, motive item) → motive (.array items))
    (object : ∀ members, (∀ member ∈ members, motive member.2) → motive (.object members))
    (value : Value) : motive value := by
  -- On lists, the recursor is to prove the property of every value in them.
  refine @Value.rec motive (fun items => ∀ item ∈ items, motive item)
    (fun members => ∀ member ∈ members, motive member.2) (fun member => motive member.2)
    null bool number string array object ?nilItems ?consItems ?nilMembers ?consMembers
    (fun _ _ hvalue => hvalue) value
  case nilItems =>
    intro item h
    exact absurd h List.not_mem_nil
  case consItems =>
    intro first rest hfirst hrest
    exact List.forall_mem_cons.2 ⟨hfirst, hrest⟩
  case nilMembers =>
    intro member h
    exact absurd h List.not_mem_nil
  case consMembers =>
    intro first rest hfirst hrest
    exact List.forall_mem_cons.2 ⟨hfirst, hrest⟩

/-! ## Strings -/

def digitValue (c : Char) : Nat := (List.range 16).findIdx (Nat.digitChar · == c)

theorem digitValue_digitChar : ∀ n < 16, digitValue (Nat.digitChar n) = n := by
  decide

/-- The character that the beginning of an escaped text stands for. -/
def leading : List Char → Char
  | '\\' :: 'b' :: _ => '\x08'
  | '\\' :: 'f' :: _ => '\x0c'
  | '\\' :: 'n' :: _ => '\n'
  | '\\' :: 'r' :: _ => '\r'
  | '\\' :: 't' :: _ => '\t'
  | '\\' :: 'u' :: _ :: _ :: high :: low :: _ =>
    Char.ofNat (16 * digitValue high + digitValue low)
  | '\\' :: c :: _ => c
  | c :: _ => c
  | [] => default

theorem leading_cons {c : Char} (h : c ≠ '\\') (rest : List Char) : leading (c :: rest) = c := by
  unfold leading
  split <;> simp_all

theorem leading_escapeChar (c : Char) (rest : List Char) :
    leading (escapeChar c ++ rest) = c := by
  fun_cases escapeChar c with
  | case8 c hcontrol =>
    rw [if_pos hcontrol]
    -- Below thirty-two the two digits are the code of the character.
    show Char.ofNat (16 * digitValue (Nat.digitChar (c.toNat / 16)) +
      digitValue (Nat.digitChar (c.toNat % 16))) = c
    rw [digitValue_digitChar _ (by omega), digitValue_digitChar _ (by omega), Nat.div_add_mod,
      Char.ofNat_toNat]
  | case9 c hplain _ hbackslash =>
    rw [if_neg hplain]
    exact leading_cons hbackslash rest
  | _ => rfl

theorem escapeChar_append_inj {c d : Char} {u w : List Char}
    (h : escapeChar c ++ u = escapeChar d ++ w) : c = d ∧ u = w := by
  have hcd : c = d := by
    rw [← leading_escapeChar c u, h, leading_escapeChar]
  subst hcd
  exact ⟨rfl, List.append_cancel_left h⟩

-- A quote inside a string has a backslash in front of it.
theorem escapeChar_append_ne_quote (c : Char) (u w : List Char) :
    escapeChar c ++ u ≠ '"' :: w := by
  fun_cases escapeChar c with
  | case8 c hcontrol =>
    rw [if_pos hcontrol]
    exact fun h => absurd (List.cons.inj h).1 (by decide)
  | case9 c hplain hquote =>
    rw [if_neg hplain]
    exact fun h => hquote (List.cons.inj h).1
  | _ => exact fun h => absurd (List.cons.inj h).1 (by decide)

theorem escaped_append_inj {s t u w : List Char}
    (h : s.flatMap escapeChar ++ '"' :: u = t.flatMap escapeChar ++ '"' :: w) :
    s = t ∧ u = w := by
  induction s generalizing t with
  | nil =>
    cases t with
    | nil => exact ⟨rfl, (List.cons.inj h).2⟩
    | cons d t =>
      rw [List.flatMap_cons, List.append_assoc] at h
      exact absurd h.symm (escapeChar_append_ne_quote d _ _)
  | cons c s ih =>
    cases t with
    | nil =>
      rw [List.flatMap_cons, List.append_assoc] at h
      exact absurd h (escapeChar_append_ne_quote c _ _)
    | cons d t =>
      rw [List.flatMap_cons, List.flatMap_cons, List.append_assoc, List.append_assoc] at h
      obtain ⟨rfl, hrest⟩ := escapeChar_append_inj h
      obtain ⟨rfl, hbehind⟩ := ih hrest
      exact ⟨rfl, hbehind⟩

theorem toList_quote (text : String) :
    (quote text).toList = '"' :: (text.toList.flatMap escapeChar ++ ['"']) := by
  rw [quote, String.toList_ofList]
  rfl

theorem quote_append_inj {s t : String} {u w : List Char}
    (h : (quote s).toList ++ u = (quote t).toList ++ w) : s = t ∧ u = w := by
  rw [toList_quote, toList_quote, List.cons_append, List.cons_append, List.append_assoc,
    List.append_assoc] at h
  obtain ⟨htext, hbehind⟩ := escaped_append_inj (List.cons.inj h).2
  exact ⟨String.toList_inj.1 htext, hbehind⟩

/-! ## Kinds of values -/

/-- The kinds of values, which the first characters of their texts tell apart. -/
inductive Kind where
  | null
  | bool
  | number
  | string
  | array
  | object
deriving DecidableEq

def Value.kind : Value → Kind
  | .null => .null
  | .bool _ => .bool
  | .number _ => .number
  | .string _ => .string
  | .array _ => .array
  | .object _ => .object

instance : DecidablePred Number.IsMark := fun _ => inferInstanceAs (Decidable (_ ∨ _))

/-- The kind of value whose text begins with the character. -/
def Kind.ofChar? (c : Char) : Option Kind :=
  if c = 'n' then some .null
  else if c = 't' ∨ c = 'f' then some .bool
  else if c = '"' then some .string
  else if c = '[' then some .array
  else if c = '{' then some .object
  else if Number.IsMark c then some .number
  else none

theorem Kind.ofChar?_of_isMark {c : Char} (h : Number.IsMark c) :
    Kind.ofChar? c = some .number := by
  have hne : ∀ {d : Char}, ¬ Number.IsMark d → c ≠ d := by
    rintro d hd rfl
    exact hd h
  rw [Kind.ofChar?, if_neg (hne (by decide)),
    if_neg (not_or.2 ⟨hne (by decide), hne (by decide)⟩), if_neg (hne (by decide)),
    if_neg (hne (by decide)), if_neg (hne (by decide)), if_pos h]

/-! ## Containers -/

/-- What may stand between the parts of a value. -/
def Blank (text : List Char) : Prop := ∀ c ∈ text, c = '\n' ∨ c = ' '

theorem head?_blank_append {gap : List Char} (h : Blank gap) (c : Char) (rest : List Char) :
    ∀ d ∈ (gap ++ c :: rest).head?, d = c ∨ d = '\n' ∨ d = ' ' := by
  intro d hd
  cases gap with
  | nil => exact .inl (Option.some.inj hd).symm
  | cons b gap =>
    rw [← Option.some.inj hd]
    exact .inr (h b List.mem_cons_self)

theorem goesOn_eq_false {text : List Char} (h : ∀ c ∈ text.head?, ¬ Number.IsMark c) :
    goesOn text = false := by
  cases text with
  | nil => rfl
  | cons c rest =>
    have hc : ¬ Number.IsMark c := h c rfl
    rw [Number.IsMark, not_or, Bool.not_eq_true] at hc
    obtain ⟨hdigit, hmark⟩ := hc
    simp only [List.mem_cons, not_or] at hmark
    simp [goesOn, startsWithDigit, hdigit, hmark]

/-- The character is not mistaken for something else that stands in a container. -/
def Closes (c : Char) : Prop := ¬ Number.IsMark c ∧ c ∉ [',', '\n', ' ']

instance : DecidablePred Closes := fun _ => inferInstanceAs (Decidable (_ ∧ _))

/-- The pieces of a container behind the first one, and its end. -/
def following (gap close : List Char) (closing : Char) (pieces : List (List Char)) : List Char :=
  pieces.flatMap (fun piece => ',' :: (gap ++ piece)) ++ (close ++ [closing])

/-- Pieces between brackets. A gap stands behind the opening bracket and behind each comma. -/
def bracketed (opening closing : Char) (gap close : List Char) : List (List Char) → List Char
  | [] => [opening, closing]
  | piece :: pieces => opening :: (gap ++ (piece ++ following gap close closing pieces))

section Containers

variable {α : Type} {text : α → List Char} {gap close u w : List Char} {closing : Char}
  {xs ys : List α}

theorem following_nil : following gap close closing [] = close ++ [closing] := rfl

theorem following_cons (piece : List Char) (pieces : List (List Char)) :
    following gap close closing (piece :: pieces) =
      ',' :: (gap ++ (piece ++ following gap close closing pieces)) := by
  rw [following, following, List.flatMap_cons]
  simp only [List.cons_append, List.append_assoc]

-- The end of a container begins with a blank or with its bracket.
theorem head?_following_nil (hclose : Blank close) (u : List Char) :
    ∀ c ∈ (following gap close closing [] ++ u).head?, c = closing ∨ c = '\n' ∨ c = ' ' := by
  rw [following_nil, List.append_assoc]
  exact head?_blank_append hclose closing u

theorem goesOn_following (hclosing : Closes closing) (hclose : Blank close)
    (pieces : List (List Char)) (u : List Char) :
    goesOn (following gap close closing pieces ++ u) = false := by
  apply goesOn_eq_false
  intro c hc
  cases pieces with
  | nil =>
    rcases head?_following_nil hclose u c hc with rfl | rfl | rfl
    · exact hclosing.1
    · decide
    · decide
  | cons piece pieces =>
    rw [following_cons] at hc
    rw [← Option.some.inj hc]
    decide

theorem following_nil_ne_comma (hclosing : Closes closing) (hclose : Blank close)
    (rest : List Char) : following gap close closing [] ++ u ≠ ',' :: rest := by
  intro h
  rcases head?_following_nil hclose u ',' (congrArg List.head? h) with rfl | hc | hc
  · exact absurd hclosing (by decide)
  · exact absurd hc (by decide)
  · exact absurd hc (by decide)

-- Behind each item there is a comma or the end, so the items can be read off one by one.
theorem following_append_inj (hclosing : Closes closing) (hclose : Blank close)
    (hxs : ∀ x ∈ xs, Readable text x)
    (h : following gap close closing (xs.map text) ++ u =
      following gap close closing (ys.map text) ++ w) : xs = ys ∧ u = w := by
  induction xs generalizing ys with
  | nil =>
    cases ys with
    | nil => exact ⟨rfl, List.append_cancel_left h⟩
    | cons y ys =>
      rw [List.map_cons, following_cons] at h
      exact absurd h (following_nil_ne_comma hclosing hclose _)
  | cons x xs ih =>
    cases ys with
    | nil =>
      rw [List.map_cons, following_cons] at h
      exact absurd h.symm (following_nil_ne_comma hclosing hclose _)
    | cons y ys =>
      obtain ⟨hx, hxs⟩ := List.forall_mem_cons.1 hxs
      simp only [List.map_cons, following_cons, List.cons_append, List.append_assoc] at h
      obtain ⟨rfl, hrest⟩ := hx (goesOn_following hclosing hclose _ _)
        (goesOn_following hclosing hclose _ _) (List.append_cancel_left (List.cons.inj h).2)
      obtain ⟨rfl, hbehind⟩ := ih hxs hrest
      exact ⟨rfl, hbehind⟩

-- Where there is an item, the container does not end at once.
theorem item_ne_closing (hclosing : Closes closing) (hgap : Blank gap) {y : α}
    (hy : ∃ c rest, text y = c :: rest ∧ c ≠ closing) (rest tail : List Char) :
    gap ++ (text y ++ rest) ≠ closing :: tail := by
  obtain ⟨c, others, htext, hc⟩ := hy
  intro h
  rw [htext, List.cons_append] at h
  rcases head?_blank_append hgap c (others ++ rest) closing (congrArg List.head? h) with
    rfl | rfl | rfl
  · exact hc rfl
  · exact absurd hclosing (by decide)
  · exact absurd hclosing (by decide)

theorem bracketed_append_inj {opening : Char} (hclosing : Closes closing) (hgap : Blank gap)
    (hclose : Blank close) (hbegin : ∀ y, ∃ c rest, text y = c :: rest ∧ c ≠ closing)
    (hxs : ∀ x ∈ xs, Readable text x)
    (h : bracketed opening closing gap close (xs.map text) ++ u =
      bracketed opening closing gap close (ys.map text) ++ w) : xs = ys ∧ u = w := by
  cases xs with
  | nil =>
    cases ys with
    | nil => exact ⟨rfl, List.append_cancel_left h⟩
    | cons y ys =>
      simp only [List.map_cons, bracketed, List.cons_append, List.append_assoc] at h
      exact absurd (List.cons.inj h).2.symm
        (item_ne_closing hclosing hgap (hbegin y) _ _)
  | cons x xs =>
    cases ys with
    | nil =>
      simp only [List.map_cons, bracketed, List.cons_append, List.append_assoc] at h
      exact absurd (List.cons.inj h).2 (item_ne_closing hclosing hgap (hbegin x) _ _)
    | cons y ys =>
      obtain ⟨hx, hxs⟩ := List.forall_mem_cons.1 hxs
      simp only [List.map_cons, bracketed, List.cons_append, List.append_assoc] at h
      obtain ⟨rfl, hrest⟩ := hx (goesOn_following hclosing hclose _ _)
        (goesOn_following hclosing hclose _ _) (List.append_cancel_left (List.cons.inj h).2)
      obtain ⟨rfl, hbehind⟩ := following_append_inj hclosing hclose hxs hrest
      exact ⟨rfl, hbehind⟩

end Containers

/-! ## Forms -/

/-- A way to write values: what stands between their parts, `level` containers in, and the texts
that come of it. -/
structure Form where
  gap : Nat → List Char
  behindColon : List Char
  text : Nat → Value → List Char
  blank : ∀ level, Blank (gap level)
  text_null : ∀ level, text level .null = "null".toList
  text_bool : ∀ level flag, text level (.bool flag) = (toString flag).toList
  text_number : ∀ level n, text level (.number n) = n.render.toList
  text_string : ∀ level value, text level (.string value) = (quote value).toList
  text_array : ∀ level items, text level (.array items) =
    bracketed '[' ']' (gap (level + 1)) (gap level) (items.map (text (level + 1)))
  text_object : ∀ level members, text level (.object members) =
    bracketed '{' '}' (gap (level + 1)) (gap level) (members.map fun member =>
      (quote member.1).toList ++ ':' :: (behindColon ++ text (level + 1) member.2))

namespace Form

variable (form : Form)

-- The first character tells the kind of value.
theorem exists_text_eq_cons (level : Nat) (value : Value) :
    ∃ c rest, form.text level value = c :: rest ∧ Kind.ofChar? c = some value.kind := by
  cases value with
  | null => exact ⟨_, _, form.text_null level, rfl⟩
  | bool flag =>
    rw [form.text_bool]
    cases flag with
    | false => exact ⟨_, _, rfl, rfl⟩
    | true => exact ⟨_, _, rfl, rfl⟩
  | number n =>
    obtain ⟨c, rest, htext, hmark⟩ := n.exists_render_eq_cons
    exact ⟨c, rest, (form.text_number level n).trans htext, Kind.ofChar?_of_isMark hmark⟩
  | string value =>
    rw [form.text_string, toList_quote]
    exact ⟨_, _, rfl, rfl⟩
  | array items =>
    rw [form.text_array]
    cases items with
    | nil => exact ⟨_, _, rfl, rfl⟩
    | cons item items => exact ⟨_, _, rfl, rfl⟩
  | object members =>
    rw [form.text_object]
    cases members with
    | nil => exact ⟨_, _, rfl, rfl⟩
    | cons member members => exact ⟨_, _, rfl, rfl⟩

theorem kind_eq_of_text_append_eq {level : Nat} {value other : Value} {u w : List Char}
    (h : form.text level value ++ u = form.text level other ++ w) : value.kind = other.kind := by
  obtain ⟨c, rest, htext, hkind⟩ := form.exists_text_eq_cons level value
  obtain ⟨d, rest', htext', hkind'⟩ := form.exists_text_eq_cons level other
  rw [htext, htext', List.cons_append, List.cons_append] at h
  obtain ⟨rfl, _⟩ := List.cons.inj h
  exact Option.some.inj (hkind.symm.trans hkind')

theorem readable_member {level : Nat} {member : String × Value}
    (h : Readable (form.text level) member.2) :
    Readable (fun member : String × Value =>
      (quote member.1).toList ++ ':' :: (form.behindColon ++ form.text level member.2)) member := by
  rintro ⟨key', value'⟩ u w hu hw heq
  simp only [List.cons_append, List.append_assoc] at heq
  obtain ⟨hkey, hrest⟩ := quote_append_inj heq
  obtain ⟨hvalue, hbehind⟩ := h hu hw (List.append_cancel_left (List.cons.inj hrest).2)
  exact ⟨Prod.ext hkey hvalue, hbehind⟩

/-- Whatever stands between its parts, a value can be read off its text. -/
theorem readable (level : Nat) (value : Value) : Readable (form.text level) value := by
  induction value generalizing level with
  | null =>
    intro other u w _ _ h
    have hkind := form.kind_eq_of_text_append_eq h
    cases other with
    | null => exact ⟨rfl, List.append_cancel_left h⟩
    | _ => exact nomatch hkind
  | bool flag =>
    intro other u w _ _ h
    have hkind := form.kind_eq_of_text_append_eq h
    cases other with
    | bool flag' =>
      rw [form.text_bool, form.text_bool] at h
      cases flag with
      | false =>
        cases flag' with
        | false => exact ⟨rfl, List.append_cancel_left h⟩
        | true => exact absurd (List.cons.inj h).1 (by decide)
      | true =>
        cases flag' with
        | false => exact absurd (List.cons.inj h).1 (by decide)
        | true => exact ⟨rfl, List.append_cancel_left h⟩
    | _ => exact nomatch hkind
  | number n =>
    intro other u w hu hw h
    have hkind := form.kind_eq_of_text_append_eq h
    cases other with
    | number n' =>
      rw [form.text_number, form.text_number] at h
      obtain ⟨rfl, hbehind⟩ := Number.render_append_inj hu hw h
      exact ⟨rfl, hbehind⟩
    | _ => exact nomatch hkind
  | string text =>
    intro other u w _ _ h
    have hkind := form.kind_eq_of_text_append_eq h
    cases other with
    | string text' =>
      rw [form.text_string, form.text_string] at h
      obtain ⟨rfl, hbehind⟩ := quote_append_inj h
      exact ⟨rfl, hbehind⟩
    | _ => exact nomatch hkind
  | array items ih =>
    intro other u w _ _ h
    have hkind := form.kind_eq_of_text_append_eq h
    cases other with
    | array items' =>
      rw [form.text_array, form.text_array] at h
      have hbegin : ∀ item, ∃ c rest, form.text (level + 1) item = c :: rest ∧ c ≠ ']' := by
        intro item
        obtain ⟨c, rest, htext, hc⟩ := form.exists_text_eq_cons (level + 1) item
        refine ⟨c, rest, htext, ?_⟩
        -- No kind of value begins with a closing bracket.
        rintro rfl
        rw [show Kind.ofChar? ']' = none from rfl] at hc
        exact nomatch hc
      obtain ⟨rfl, hbehind⟩ := bracketed_append_inj (by decide) (form.blank _) (form.blank _)
        hbegin (fun item hitem => ih item hitem (level + 1)) h
      exact ⟨rfl, hbehind⟩
    | _ => exact nomatch hkind
  | object members ih =>
    intro other u w _ _ h
    have hkind := form.kind_eq_of_text_append_eq h
    cases other with
    | object members' =>
      rw [form.text_object, form.text_object] at h
      obtain ⟨rfl, hbehind⟩ := bracketed_append_inj (by decide) (form.blank _) (form.blank _)
        (fun member => ⟨'"', _, by rw [toList_quote]; rfl, by decide⟩)
        (fun member hmember => form.readable_member (ih member hmember (level + 1))) h
      exact ⟨rfl, hbehind⟩
    | _ => exact nomatch hkind

theorem text_injective (level : Nat) {value other : Value}
    (h : form.text level value = form.text level other) : value = other :=
  (form.readable level value (u := []) (w := []) rfl rfl (by rw [h])).1

end Form

/-! ## The compact and the wide form -/

namespace Value

theorem compactItems_eq_map (items : List Value) : compactItems items = items.map compact :=
  eq_map_of_cons rfl (fun _ _ => rfl) items

theorem compactMembers_eq_map (members : List (String × Value)) :
    compactMembers members = members.map fun member => quote member.1 ++ ":" ++ compact member.2 :=
  eq_map_of_cons rfl (fun _ _ => rfl) members

theorem wideItems_eq_map (level : Nat) (items : List Value) :
    wideItems level items = items.map (wideAt level) :=
  eq_map_of_cons rfl (fun _ _ => rfl) items

theorem wideMembers_eq_map (level : Nat) (members : List (String × Value)) :
    wideMembers level members =
      members.map fun member => quote member.1 ++ ": " ++ wideAt level member.2 :=
  eq_map_of_cons rfl (fun _ _ => rfl) members

end Value

theorem toList_newline (level : Nat) :
    (Value.newline level).toList = '\n' :: List.replicate (2 * level) ' ' :=
  String.toList_ofList

theorem blank_newline (level : Nat) : Blank (Value.newline level).toList := by
  intro c hc
  rw [toList_newline, List.mem_cons] at hc
  exact hc.imp_right List.eq_of_mem_replicate

theorem toList_bracketed {opening closing : String} {o c : Char} (ho : opening.toList = [o])
    (hc : closing.toList = [c]) (gap close : String) {pieces : List String} (hne : pieces ≠ []) :
    (opening ++ gap ++ ("," ++ gap).intercalate pieces ++ close ++ closing).toList =
      bracketed o c gap.toList close.toList (pieces.map String.toList) := by
  obtain ⟨first, rest, rfl⟩ := List.exists_cons_of_ne_nil hne
  simp only [String.toList_append, String.toList_intercalate, List.map_cons, ho, hc,
    Text.intercalate_cons, bracketed, following, List.append_assoc]
  rfl

-- Without blanks, brackets that hold nothing are no exception.
theorem toList_bracketed_compact {opening closing : String} {o c : Char}
    (ho : opening.toList = [o]) (hc : closing.toList = [c]) (pieces : List String) :
    (opening ++ ",".intercalate pieces ++ closing).toList =
      bracketed o c [] [] (pieces.map String.toList) := by
  cases pieces with
  | nil =>
    rw [String.intercalate_nil, String.append_empty, String.toList_append, ho, hc]
    rfl
  | cons first rest =>
    have htext := toList_bracketed ho hc "" "" (List.cons_ne_nil first rest)
    rwa [String.append_empty, String.append_empty, String.append_empty] at htext

theorem map_toList_members (colon : String) (text : Value → String)
    (members : List (String × Value)) :
    (members.map fun member => quote member.1 ++ colon ++ text member.2).map String.toList =
      members.map fun member =>
        (quote member.1).toList ++ (colon.toList ++ (text member.2).toList) := by
  rw [List.map_map]
  refine List.map_congr_left fun member _ => ?_
  rw [Function.comp_apply, String.toList_append, String.toList_append, List.append_assoc]

/-- Nothing stands between the parts of a value. -/
def Form.compact : Form where
  gap _ := []
  behindColon := []
  text _ value := value.compact.toList
  blank _ := by
    intro c hc
    exact absurd hc List.not_mem_nil
  text_null _ := rfl
  text_bool _ _ := rfl
  text_number _ _ := rfl
  text_string _ _ := rfl
  text_array _ items := by
    rw [Value.compact, toList_bracketed_compact rfl rfl, Value.compactItems_eq_map, List.map_map]
    rfl
  text_object _ members := by
    rw [Value.compact, toList_bracketed_compact rfl rfl, Value.compactMembers_eq_map,
      map_toList_members]
    rfl

/-- Each item of a container stands on a line of its own. -/
def Form.wide : Form where
  gap level := (Value.newline level).toList
  behindColon := [' ']
  text level value := (value.wideAt level).toList
  blank := blank_newline
  text_null _ := rfl
  text_bool _ _ := rfl
  text_number _ _ := rfl
  text_string _ _ := rfl
  text_array level items := by
    cases items with
    | nil =>
      rw [Value.wideAt]
      rfl
    | cons item items =>
      rw [Value.wideAt, Value.wideItems_eq_map, toList_bracketed rfl rfl, List.map_map]
      · rfl
      · exact List.cons_ne_nil _ _
  text_object level members := by
    cases members with
    | nil =>
      rw [Value.wideAt]
      rfl
    | cons member members =>
      rw [Value.wideAt, Value.wideMembers_eq_map, toList_bracketed rfl rfl, map_toList_members]
      · rfl
      · exact List.cons_ne_nil _ _

namespace Value

/-- The compact text of a value shows all of it. -/
theorem compact_inj {value other : Value} : value.compact = other.compact ↔ value = other :=
  ⟨fun h => Form.compact.text_injective 0 (congrArg String.toList h), congrArg compact⟩

/-- So does the wide text. -/
theorem wide_inj {value other : Value} : value.wide = other.wide ↔ value = other :=
  ⟨fun h => Form.wide.text_injective 0 (congrArg String.toList h), congrArg wide⟩

end Value

end RecordQuery.Json
