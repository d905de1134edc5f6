import RecordQuery.Proofs.Canonical.Joined
import RecordQuery.Proofs.Json.Numeral
import RecordQuery.Proofs.Query.WellFormed

/-!
# The text of coordinates

Coordinates can be read back from their text, but for what it leaves out: the order of holes,
and the numbers of a position behind the first two. Main statement: areas with the same text
have the same polygons in the same order, up to the order of the holes of each.
-/

namespace RecordQuery.Query

open Json (Number)
open Text (Behind Delimited Enclosed depthAfter)

/-- Polygons of the same outer ring and the same holes in any order, as far as positions count. -/
def SamePolygon (rings others : List (List (List Number))) : Prop :=
  ∃ outer holes outer' holes', rings = outer :: holes ∧ others = outer' :: holes' ∧
    outer.map (·.take 2) = outer'.map (·.take 2) ∧
    (holes.map fun ring => ring.map (·.take 2)).Perm (holes'.map fun ring => ring.map (·.take 2))

/-! ## Positions -/

def positionText : List Number → String
  | lon :: lat :: _ => "[" ++ lat.render ++ "," ++ lon.render ++ "]"
  | _ => ""

theorem toList_positionText (lon lat : Number) (surplus : List Number) :
    (positionText (lon :: lat :: surplus)).toList =
      '[' :: (lat.render.toList ++ ',' :: (lon.render.toList ++ [']'])) := by
  simp [positionText]

theorem exists_eq_of_two_le_length {position : List Number} (h : 2 ≤ position.length) :
    ∃ lon lat surplus, position = lon :: lat :: surplus := by
  match position, h with
  | lon :: lat :: surplus, _ => exact ⟨lon, lat, surplus, rfl⟩

theorem positionText_append_inj {position other : List Number} {x y : List Char}
    (hposition : 2 ≤ position.length) (hother : 2 ≤ other.length)
    (h : (positionText position).toList ++ x = (positionText other).toList ++ y) :
    position.take 2 = other.take 2 ∧ x = y := by
  obtain ⟨lon, lat, surplus, rfl⟩ := exists_eq_of_two_le_length hposition
  obtain ⟨lon', lat', surplus', rfl⟩ := exists_eq_of_two_le_length hother
  rw [toList_positionText, toList_positionText, List.cons_append, List.cons_append,
    List.append_assoc, List.append_assoc, List.cons_append, List.cons_append,
    List.append_assoc, List.append_assoc] at h
  -- Neither a comma nor a bracket goes on like a number.
  obtain ⟨hlat, hrest⟩ := Number.render_append_inj rfl rfl (List.cons.inj h).2
  obtain ⟨hlon, hrest⟩ := Number.render_append_inj rfl rfl (List.cons.inj hrest).2
  rw [hlat, hlon]
  exact ⟨rfl, (List.cons.inj hrest).2⟩

/-- The texts of positions, which hold the separator but can be told apart. -/
def IsPosition (text : List Char) : Prop :=
  ∃ position : List Number, 2 ≤ position.length ∧ text = (positionText position).toList

theorem delimited_isPosition : Delimited ',' IsPosition := by
  rintro _ _ x y ⟨position, hposition, rfl⟩ ⟨other, hother, rfl⟩ _ _ h
  have hxy : x = y := (positionText_append_inj hposition hother h).2
  subst hxy
  exact ⟨List.append_cancel_right h, rfl⟩

/-! ## Rings -/

theorem toList_ringText {ring : List (List Number)} (h : Full ring) :
    (ringText ring).toList = [','].intercalate (ring.map fun p => (positionText p).toList) := by
  rw [ringText, String.toList_intercalate]
  congr 1
  induction ring with
  | nil => rfl
  | cons position ring ih =>
    obtain ⟨hposition, hring⟩ := List.forall_mem_cons.1 h
    obtain ⟨lon, lat, surplus, rfl⟩ := exists_eq_of_two_le_length hposition
    exact congrArg ((positionText (lon :: lat :: surplus)).toList :: ·) (ih hring)

theorem toList_positionText_ne_nil {text : List Char} (h : IsPosition text) : text ≠ [] := by
  obtain ⟨position, hposition, rfl⟩ := h
  obtain ⟨lon, lat, surplus, rfl⟩ := exists_eq_of_two_le_length hposition
  rw [toList_positionText]
  exact List.cons_ne_nil _ _

theorem isPosition_of_mem {ring : List (List Number)} (hring : Full ring) :
    ∀ a ∈ ring.map fun p => (positionText p).toList, IsPosition a := by
  intro a ha
  obtain ⟨position, hposition, rfl⟩ := List.mem_map.1 ha
  exact ⟨position, hring position hposition, rfl⟩

theorem ringText_inj {ring other : List (List Number)}
    (hring : Full ring) (hother : Full other) (h : ringText ring = ringText other) :
    ring.map (·.take 2) = other.map (·.take 2) := by
  have htext := congrArg String.toList h
  rw [toList_ringText hring, toList_ringText hother] at htext
  have hpositions : (ring.map fun p => (positionText p).toList) =
      other.map fun p => (positionText p).toList := by
    -- Joining tells no parts from one empty part, and no position is written as nothing.
    have hnil : ∀ {ring : List (List Number)}, Full ring →
        [','].intercalate (ring.map fun p => (positionText p).toList) = [] → ring = [] := by
      intro ring hring hempty
      exact List.map_eq_nil_iff.1 (Text.eq_nil_of_intercalate_eq_nil
        (fun a ha => toList_positionText_ne_nil (isPosition_of_mem hring a ha)) hempty)
    by_cases hempty : ring = []
    · rw [hempty] at htext
      rw [hempty, hnil hother htext.symm]
    · by_cases hempty' : other = []
      · rw [hempty'] at htext
        exact absurd (hnil hring htext) hempty
      · exact delimited_isPosition.intercalate_inj (isPosition_of_mem hring)
          (isPosition_of_mem hother) (mt List.map_eq_nil_iff.1 hempty)
          (mt List.map_eq_nil_iff.1 hempty') htext
  have hmatch : List.Forall₂ (fun p q => p.take 2 = q.take 2) ring other := by
    refine forall₂_of_map_eq (fun p hp q hq hpq => ?_) hpositions
    exact (positionText_append_inj (x := []) (y := []) (hring p hp) (hother q hq) (by rw [hpq])).1
  exact map_eq_of_forall₂ hmatch

theorem mem_ringText {ring : List (List Number)} (hring : Full ring) {c : Char}
    (h : c ∈ (ringText ring).toList) : Number.IsMark c ∨ c ∈ ['[', ',', ']'] := by
  rw [toList_ringText hring] at h
  rcases Text.mem_intercalate h with rfl | ⟨a, ha, hc⟩
  · exact .inr (by decide)
  · obtain ⟨position, hposition, rfl⟩ := isPosition_of_mem hring a ha
    obtain ⟨lon, lat, surplus, rfl⟩ := exists_eq_of_two_le_length hposition
    rw [toList_positionText, List.mem_cons, List.mem_append, List.mem_cons, List.mem_append,
      List.mem_singleton] at hc
    rcases hc with rfl | hlat | rfl | hlon | rfl
    · exact .inr (by decide)
    · exact .inl (Number.isMark_of_mem_render hlat)
    · exact .inr (by decide)
    · exact .inl (Number.isMark_of_mem_render hlon)
    · exact .inr (by decide)

-- No mark is one of the characters that set rings and polygons apart.
theorem not_mem_ringText {ring : List (List Number)} (hring : Full ring) {c : Char}
    (hdigit : c.isDigit = false)
    (hc : c ∉ ['-', '+', '.', 'e', '[', ',', ']']) : c ∉ (ringText ring).toList := by
  intro h
  rcases mem_ringText hring h with (hmark | hmark) | hmark
  · rw [hdigit] at hmark
    exact absurd hmark (by decide)
  · exact hc (List.mem_append_left ['[', ',', ']'] hmark)
  · exact hc (List.mem_append_right ['-', '+', '.', 'e'] hmark)

theorem enclosed_render (n : Number) : Enclosed n.render.toList := by
  refine Enclosed.of_forall fun c hc => ?_
  rcases Number.isMark_of_mem_render hc with hmark | hmark
  · refine ⟨?_, ?_, ?_⟩ <;> rintro rfl <;> exact absurd hmark (by decide)
  · refine ⟨?_, ?_, ?_⟩ <;> rintro rfl <;> exact absurd hmark (by decide)

theorem enclosed_ringText {ring : List (List Number)} (hring : Full ring) :
    Enclosed (ringText ring).toList := by
  rw [toList_ringText hring]
  refine Text.depthAfter_intercalate (by decide) fun a ha => ?_
  obtain ⟨position, hposition, rfl⟩ := isPosition_of_mem hring a ha
  have hcomma : Enclosed [','] := by decide
  obtain ⟨lon, lat, surplus, rfl⟩ := exists_eq_of_two_le_length hposition
  -- The comma of a position stands within its brackets.
  have hnumbers := (enclosed_render lat).append (hcomma.append (enclosed_render lon))
  have hinner := hnumbers.depthAfter_eq 1
  have htext := Enclosed.bracketed hinner
  rw [toList_positionText]
  simpa using htext

/-! ## Polygons -/

/-- The holes with the brackets around them and the mark before. -/
def holesText : List (List (List Number)) → List Char
  | [] => []
  | hole :: holes =>
    '/' :: '[' :: ((sortedJoin "|" ((hole :: holes).map ringText)).toList ++ [']'])

theorem toList_polygonText (outer : List (List Number)) (holes : List (List (List Number))) :
    (polygonText (outer :: holes)).toList = (ringText outer).toList ++ holesText holes := by
  cases holes with
  | nil => exact (List.append_nil _).symm
  | cons hole holes =>
    rw [polygonText, holesText]
    · simp
    · exact List.cons_ne_nil hole holes

theorem behind_holesText (holes : List (List (List Number))) : Behind '/' (holesText holes) := by
  cases holes with
  | nil => exact Text.behind_nil '/'
  | cons hole holes => exact Text.behind_cons '/' _

theorem holesText_inj {holes others : List (List (List Number))}
    (hholes : ∀ ring ∈ holes, Full ring) (hothers : ∀ ring ∈ others, Full ring)
    (h : holesText holes = holesText others) :
    (holes.map fun ring => ring.map (·.take 2)).Perm
      (others.map fun ring => ring.map (·.take 2)) := by
  cases holes with
  | nil =>
    cases others with
    | nil => exact List.Perm.refl _
    | cons other others => exact nomatch h
  | cons hole holes =>
    cases others with
    | nil => exact nomatch h
    | cons other others =>
      have hjoin := List.append_cancel_right (List.cons.inj (List.cons.inj h).2).2
      -- Holes are told apart by the bar, which no number and no position is written with.
      have hbar : ∀ {rings : List (List (List Number))}, (∀ ring ∈ rings, Full ring) →
          ∀ part ∈ rings.map ringText, '|' ∉ part.toList := by
        intro rings hrings part hpart
        obtain ⟨ring, hring, rfl⟩ := List.mem_map.1 hpart
        exact not_mem_ringText (hrings ring hring) (by decide) (by decide)
      have hperm := perm_of_sortedJoin_eq rfl (Text.delimited_not_mem '|') (hbar hholes)
        (hbar hothers) (List.cons_ne_nil _ _) (List.cons_ne_nil _ _) (String.toList_inj.1 hjoin)
      -- The texts are a permutation of each other, so the rings they belong to match in some order.
      obtain ⟨rings, hrings, htexts⟩ := exists_perm_of_map_perm hperm
      have hmatch : List.Forall₂
          (fun ring other => ring.map (·.take 2) = other.map (·.take 2)) (hole :: holes) rings :=
        forall₂_of_map_eq (fun ring hring other hother htext =>
          ringText_inj (hholes ring hring) (hothers other (hrings.mem_iff.1 hother)) htext) htexts
      rw [map_eq_of_forall₂ hmatch]
      exact hrings.map _

theorem polygonText_inj {rings others : List (List (List Number))}
    (hrings : ∀ ring ∈ rings, Full ring) (hothers : ∀ ring ∈ others, Full ring)
    (hne : rings ≠ []) (hne' : others ≠ []) (h : polygonText rings = polygonText others) :
    SamePolygon rings others := by
  obtain ⟨outer, holes, rfl⟩ := List.exists_cons_of_ne_nil hne
  obtain ⟨outer', holes', rfl⟩ := List.exists_cons_of_ne_nil hne'
  obtain ⟨houter, hholes⟩ := List.forall_mem_cons.1 hrings
  obtain ⟨houter', hholes'⟩ := List.forall_mem_cons.1 hothers
  have htext := congrArg String.toList h
  rw [toList_polygonText, toList_polygonText] at htext
  -- The outer ring ends at the first slash.
  obtain ⟨houterText, hholesText⟩ := Text.delimited_not_mem '/'
    (not_mem_ringText houter (by decide) (by decide))
    (not_mem_ringText houter' (by decide) (by decide))
    (behind_holesText holes) (behind_holesText holes') htext
  exact ⟨outer, holes, outer', holes', rfl, rfl,
    ringText_inj houter houter' (String.toList_inj.1 houterText),
    holesText_inj hholes hholes' hholesText⟩

theorem semicolon_not_mem_polygonText {rings : List (List (List Number))}
    (hrings : ∀ ring ∈ rings, Full ring) : ';' ∉ (polygonText rings).toList := by
  have hring : ∀ ring ∈ rings, ';' ∉ (ringText ring).toList := fun ring hring =>
    not_mem_ringText (hrings ring hring) (by decide) (by decide)
  cases rings with
  | nil => exact List.not_mem_nil
  | cons outer holes =>
    obtain ⟨houter, hholes⟩ := List.forall_mem_cons.1 hring
    rw [toList_polygonText, List.mem_append]
    rintro (hmem | hmem)
    · exact houter hmem
    · cases holes with
      | nil => exact absurd hmem List.not_mem_nil
      | cons hole holes =>
        rw [holesText, List.mem_cons, List.mem_cons, List.mem_append] at hmem
        rcases hmem with hmem | hmem | hmem | hmem
        · exact absurd hmem (by decide)
        · exact absurd hmem (by decide)
        · rcases mem_sortedJoin rfl hmem with hbar | ⟨part, hpart, hc⟩
          · exact absurd hbar (by decide)
          · obtain ⟨ring, hring, rfl⟩ := List.mem_map.1 hpart
            exact hholes ring hring hc
        · exact absurd hmem (by decide)

theorem enclosed_polygonText {rings : List (List (List Number))}
    (hrings : ∀ ring ∈ rings, Full ring) : Enclosed (polygonText rings).toList := by
  cases rings with
  | nil => exact Text.depthAfter_nil 0
  | cons outer holes =>
    obtain ⟨houter, hholes⟩ := List.forall_mem_cons.1 hrings
    rw [toList_polygonText]
    apply (enclosed_ringText houter).append
    cases holes with
    | nil => exact Text.depthAfter_nil 0
    | cons hole holes =>
      have hslash : Enclosed ['/'] := by decide
      apply hslash.append
      apply Enclosed.bracketed
      apply depthAfter_sortedJoin rfl (by decide)
      intro part hpart
      obtain ⟨ring, hring, rfl⟩ := List.mem_map.1 hpart
      exact enclosed_ringText (hholes ring hring)

/-! ## Coordinates -/

theorem toList_coordinatesText (coordinates : Coordinates) :
    (coordinatesText coordinates).toList =
      [';'].intercalate (coordinates.map fun rings => (polygonText rings).toList) := by
  rw [coordinatesText, String.toList_intercalate, List.map_map]
  rfl

/-- Areas of the same text are the same but for the order of holes. -/
theorem coordinatesText_inj {custom other : CustomArea} (hcustom : custom.WellFormed)
    (hother : other.WellFormed)
    (h : coordinatesText custom.coordinates = coordinatesText other.coordinates) :
    List.Forall₂ SamePolygon custom.coordinates other.coordinates := by
  have hrings : ∀ {custom : CustomArea}, custom.WellFormed → ∀ rings ∈ custom.coordinates,
      rings ≠ [] ∧ ∀ ring ∈ rings, Full ring := by
    intro custom hcustom rings hmem
    obtain ⟨polygon, _, hpolygon⟩ := exists_of_forall₂_of_mem hcustom.draws.flip hmem
    refine ⟨?_, DrawsPolygon.full hpolygon⟩
    obtain ⟨outer, holes, rfl, _⟩ := hpolygon
    exact List.cons_ne_nil outer holes
  -- Semicolons stand between polygons only.
  have hfree : ∀ {custom : CustomArea}, custom.WellFormed →
      ∀ a ∈ custom.coordinates.map fun rings => (polygonText rings).toList, ';' ∉ a := by
    intro custom hcustom a ha
    obtain ⟨rings, hmem, rfl⟩ := List.mem_map.1 ha
    exact semicolon_not_mem_polygonText (hrings hcustom rings hmem).2
  have htext := congrArg String.toList h
  rw [toList_coordinatesText, toList_coordinatesText] at htext
  have hpolygons := (Text.delimited_not_mem ';').intercalate_inj (hfree hcustom) (hfree hother)
    (mt List.map_eq_nil_iff.1 hcustom.ne_nil) (mt List.map_eq_nil_iff.1 hother.ne_nil) htext
  refine forall₂_of_map_eq (fun rings hmem rings' hmem' heq => ?_) hpolygons
  obtain ⟨hne, hfull⟩ := hrings hcustom rings hmem
  obtain ⟨hne', hfull'⟩ := hrings hother rings' hmem'
  exact polygonText_inj hfull hfull' hne hne' (String.toList_inj.1 heq)

theorem enclosed_coordinatesText {custom : CustomArea} (hcustom : custom.WellFormed) :
    Enclosed (coordinatesText custom.coordinates).toList := by
  rw [toList_coordinatesText]
  refine Text.depthAfter_intercalate (by decide) fun a ha => ?_
  obtain ⟨rings, hmem, rfl⟩ := List.mem_map.1 ha
  obtain ⟨polygon, _, hpolygon⟩ := exists_of_forall₂_of_mem hcustom.draws.flip hmem
  exact enclosed_polygonText (DrawsPolygon.full hpolygon)

end RecordQuery.Query
