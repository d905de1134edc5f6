import RecordQuery.Query.Canonical

/-!
# What a cache key is the digest of

The text of a search is followed by the heading of the filter, so a search that goes on with that
heading reads like a filter. Main statement: that is the only way in which two documents with
different parts come to have one input to the digest.
-/

namespace RecordQuery.Query

/-! ## Bytes and texts -/

theorem toList_loop_eq_append (bytes : ByteArray) (i : Nat) (taken : List UInt8) :
    ByteArray.toList.loop bytes i taken = taken.reverse ++ bytes.data.toList.drop i := by
  fun_induction ByteArray.toList.loop bytes i taken with
  | case1 i taken hlt ih =>
    have hi : i < bytes.data.toList.length := by simpa using hlt
    have hget : bytes.get! i = bytes.data.toList[i] := by simp [ByteArray.get!, hlt]
    rw [ih, List.reverse_cons, List.append_assoc, List.singleton_append, hget,
      List.getElem_cons_drop]
  | case2 i taken hge =>
    have hlen : bytes.data.toList.length ≤ i := by simpa using Nat.le_of_not_lt hge
    rw [List.drop_eq_nil_of_le hlen, List.append_nil]

theorem toUTF8_toList_inj {s t : String} : s.toUTF8.toList = t.toUTF8.toList ↔ s = t := by
  rw [ByteArray.toList, ByteArray.toList, toList_loop_eq_append, toList_loop_eq_append,
    List.reverse_nil, List.nil_append, List.nil_append, List.drop_zero, List.drop_zero,
    Array.toList_inj, ← ByteArray.ext_iff, String.toUTF8_eq_toByteArray,
    String.toUTF8_eq_toByteArray, String.toByteArray_inj]

namespace Document

/-- The bytes of which the cache key is the digest. -/
def digestInput (document : Document) : List UInt8 :=
  (String.join document.canonicalLines).toUTF8.toList

theorem cacheKey_eq_hex_digestInput (document : Document) :
    document.cacheKey = Digest.Sha1.hex document.digestInput := rfl

def canonicalFilter (document : Document) : Option String :=
  document.filter.map Filter.canonical

/-- A part under its heading, or nothing. -/
def underHeading (heading : String) : Option String → String
  | some part => heading ++ part
  | none => ""

def searchText (document : Document) : String := underHeading "search:" document.search

def filterText (document : Document) : String := underHeading "filters:" document.canonicalFilter

theorem digestInput_eq_iff_text {d e : Document} :
    d.digestInput = e.digestInput ↔
      d.searchText ++ d.filterText = e.searchText ++ e.filterText := by
  -- The lines are the two parts, as far as they are there.
  have hjoin : ∀ document : Document,
      String.join document.canonicalLines = document.searchText ++ document.filterText := by
    rintro ⟨search, filter⟩
    cases search <;> cases filter <;>
      simp [canonicalLines, searchText, filterText, canonicalFilter, underHeading]
  rw [digestInput, digestInput, toUTF8_toList_inj, hjoin, hjoin]

/-- The documents have the same search and the same text of the filter. -/
def SameParts (d e : Document) : Prop :=
  d.search = e.search ∧ d.canonicalFilter = e.canonicalFilter

/-- The search of `d` is that of `e`, then the heading of a filter, then text with which the
filter of `e` begins; what else the filter of `e` says, `d` says in its own filter. -/
def Imitates (d e : Document) : Prop :=
  ∃ text rest, e.search = some text ∧ d.search = some (text ++ "filters:" ++ rest) ∧
    e.canonicalFilter = some (rest ++ d.filterText)

end Document

/-! ## Headings -/

-- The heading of a filter cannot begin inside of another one, as its first letter stands nowhere
-- else in it.
theorem heading_cases {between text other : List Char}
    (h : "filters:".toList ++ text = between ++ ("filters:".toList ++ other)) :
    between = [] ∧ text = other ∨
      ∃ rest, between = "filters:".toList ++ rest ∧
        text = rest ++ ("filters:".toList ++ other) := by
  rcases List.append_eq_append_iff.1 h with ⟨rest, hbetween, htext⟩ | ⟨tail, hheading, htail⟩
  · exact .inr ⟨rest, hbetween, htext⟩
  · cases between with
    | nil => exact .inl ⟨rfl, List.append_cancel_left (h.trans (List.nil_append _))⟩
    | cons first between =>
      cases tail with
      | nil =>
        rw [List.append_nil] at hheading
        exact .inr ⟨[], by rw [List.append_nil, hheading], htail.symm⟩
      | cons c tail =>
        -- The second heading would begin with `c`, which is in the tail of the first one.
        have hc : c = 'f' := (List.cons.inj htail).1.symm
        have hmem : c ∈ "filters:".toList.tail := by
          rw [hheading, List.cons_append, List.tail_cons]
          exact List.mem_append_right _ List.mem_cons_self
        rw [hc] at hmem
        exact absurd hmem (by decide)

namespace Document

theorem filterText_inj {d e : Document} :
    d.filterText = e.filterText ↔ d.canonicalFilter = e.canonicalFilter := by
  rw [filterText, filterText]
  constructor
  · intro h
    cases hd : d.canonicalFilter <;> cases he : e.canonicalFilter <;>
      simp_all [underHeading, ← String.toList_inj]
  · exact congrArg _

-- Where one filter is followed by more than another, either there is no more or the heading
-- stands in between.
theorem filterText_eq_append {d e : Document} {between : List Char}
    (h : d.filterText.toList = between ++ e.filterText.toList) :
    between = [] ∧ d.canonicalFilter = e.canonicalFilter ∨
      ∃ rest, between = "filters:".toList ++ rest ∧
        d.canonicalFilter = some (String.ofList rest ++ e.filterText) := by
  by_cases hempty : between = []
  · rw [hempty, List.nil_append, String.toList_inj, filterText_inj] at h
    exact .inl ⟨hempty, h⟩
  · right
    cases hd : d.canonicalFilter with
    | none =>
      rw [filterText, hd, underHeading, String.toList_empty] at h
      exact absurd (List.append_eq_nil_iff.1 h.symm).1 hempty
    | some text =>
      rw [filterText, hd, underHeading, String.toList_append] at h
      cases he : e.canonicalFilter with
      | none =>
        rw [filterText, he, underHeading, String.toList_empty, List.append_nil] at h
        refine ⟨text.toList, h.symm, ?_⟩
        rw [filterText, he, underHeading, String.append_empty, String.ofList_toList]
      | some other =>
        rw [filterText, he, underHeading, String.toList_append] at h
        rcases heading_cases h with ⟨hnil, _⟩ | ⟨rest, hbetween, htext⟩
        · exact absurd hnil hempty
        · refine ⟨rest, hbetween, congrArg some ?_⟩
          rw [← String.toList_inj, htext, filterText, he, underHeading]
          simp only [String.toList_append, String.toList_ofList]

theorem searchText_append {d : Document} {search : String} (h : d.search = some search) :
    (d.searchText ++ d.filterText).toList =
      "search:".toList ++ (search.toList ++ d.filterText.toList) := by
  rw [searchText, h, underHeading, String.append_assoc, String.toList_append,
    String.toList_append]

-- No search and no filter begins like a search.
theorem filterText_ne_search (d : Document) (rest : List Char) :
    d.filterText.toList ≠ "search:".toList ++ rest := by
  intro h
  cases hd : d.canonicalFilter <;> simp [filterText, hd, underHeading] at h

-- If the search of `d` is the longer one, it imitates the filter of `e`.
theorem imitates_of_append {d e : Document} {text : String} {between : List Char}
    (he : e.search = some text) (hd : d.search = some (text ++ String.ofList between))
    (h : e.filterText.toList = between ++ d.filterText.toList) :
    d.SameParts e ∨ d.Imitates e := by
  rcases filterText_eq_append h with ⟨hnil, hfilter⟩ | ⟨rest, hbetween, hfilter⟩
  · left
    rw [hnil, String.ofList_nil, String.append_empty, ← he] at hd
    exact ⟨hd, hfilter.symm⟩
  · right
    refine ⟨text, String.ofList rest, he, ?_, hfilter⟩
    rw [hd, hbetween, String.ofList_append, String.ofList_toList, String.append_assoc]

theorem sameParts_or_imitates {d e : Document} (h : d.digestInput = e.digestInput) :
    d.SameParts e ∨ d.Imitates e ∨ e.Imitates d := by
  rw [digestInput_eq_iff_text, ← String.toList_inj] at h
  -- Of two searches one begins with the other; a search is never mistaken for a filter.
  cases hd : d.search with
  | none =>
    rw [searchText, hd, underHeading, String.empty_append] at h
    cases he : e.search with
    | none =>
      rw [searchText, he, underHeading, String.empty_append, String.toList_inj,
        filterText_inj] at h
      exact .inl ⟨hd.trans he.symm, h⟩
    | some text =>
      rw [searchText_append he] at h
      exact absurd h (filterText_ne_search d _)
  | some text =>
    rw [searchText_append hd] at h
    cases he : e.search with
    | none =>
      rw [searchText, he, underHeading, String.empty_append] at h
      exact absurd h.symm (filterText_ne_search e _)
    | some other =>
      rw [searchText_append he] at h
      rcases List.append_eq_append_iff.1 (List.append_cancel_left h) with
        ⟨between, hother, hfilter⟩ | ⟨between, htext, hfilter⟩
      · have hsearch : other = text ++ String.ofList between := by
          rw [← String.toList_inj, hother, String.toList_append, String.toList_ofList]
        rw [hsearch] at he
        rcases imitates_of_append hd he hfilter with hsame | himitates
        · exact .inl ⟨hsame.1.symm, hsame.2.symm⟩
        · exact .inr (.inr himitates)
      · have hsearch : text = other ++ String.ofList between := by
          rw [← String.toList_inj, htext, String.toList_append, String.toList_ofList]
        rw [hsearch] at hd
        exact (imitates_of_append he hd hfilter).imp_right .inl

theorem Imitates.digestInput_eq {d e : Document} (h : d.Imitates e) :
    d.digestInput = e.digestInput := by
  obtain ⟨text, rest, he, hd, hfilter⟩ := h
  rw [digestInput_eq_iff_text, searchText, searchText, hd, he, filterText.eq_def e, hfilter,
    underHeading, underHeading, underHeading]
  simp only [String.append_assoc]

theorem Imitates.search_ne {d e : Document} (h : d.Imitates e) : d.search ≠ e.search := by
  obtain ⟨text, rest, he, hd, _⟩ := h
  rw [hd, he]
  intro hsearch
  -- The search of the imitator is longer by a heading at least.
  have hlength := congrArg String.length (Option.some.inj hsearch)
  rw [String.length_append, String.length_append] at hlength
  have hheading : "filters:".length = 8 := by decide
  omega

/-- One input to the digest means the same search and the same text of the filter, exactly for
those documents neither of which imitates the other. -/
theorem digestInput_frames_iff (d e : Document) :
    (d.digestInput = e.digestInput → d.search = e.search ∧ d.canonicalFilter = e.canonicalFilter) ↔
      ¬ d.Imitates e ∧ ¬ e.Imitates d := by
  constructor
  · intro h
    exact ⟨fun hd => hd.search_ne (h hd.digestInput_eq).1,
      fun he => he.search_ne (h he.digestInput_eq.symm).1.symm⟩
  · rintro ⟨hd, he⟩ h
    rcases sameParts_or_imitates h with hsame | himitates | himitates
    · exact hsame
    · exact absurd himitates hd
    · exact absurd himitates he

/-- A search for the written form of a filter has the key of a search through that filter. -/
theorem digestInput_not_framed :
    ∃ d e : Document,
      Document.ofValue (.object [("search", .string "fernfilters:exists:seen")]) = .ok d ∧
      Document.ofValue (.object
        [("filters", .object [("exists", .object [("fields", .array [.string "seen"])])]),
          ("search", .string "fern")]) = .ok e ∧
      d.digestInput = e.digestInput ∧ d.cacheKey = e.cacheKey ∧
      ¬ (d.search = e.search ∧ d.canonicalFilter = e.canonicalFilter) := by
  have hseen : (Term.presence ["seen"] false).canonical = "exists:seen" := by
    rw [Term.canonical_presence_fields, fieldsText, sortedJoin, List.mergeSort_singleton,
      String.intercalate_singleton]
    rfl
  have himitates : Imitates ⟨some "fernfilters:exists:seen", none⟩
      ⟨some "fern", some (.term (.presence ["seen"] false))⟩ :=
    ⟨"fern", "exists:seen", rfl, rfl, congrArg some hseen⟩
  exact ⟨_, _, rfl, rfl, himitates.digestInput_eq,
    congrArg Digest.Sha1.hex himitates.digestInput_eq, fun hsame => himitates.search_ne hsame.1⟩

end Document

end RecordQuery.Query
