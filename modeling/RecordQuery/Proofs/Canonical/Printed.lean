import RecordQuery.Proofs.Clause.Reordering
import RecordQuery.Proofs.Meaning.Agreement
import RecordQuery.Proofs.Query.Writing

/-!
# Printed coordinates

What the text of a custom area says: the positions of each ring as they are printed, the outer ring
of each polygon and its holes in any order. Main statement: areas have one text just when they are
printed alike in this sense, and then they are searched for by the same clauses, up to the order in
which the holes of a polygon are excluded.
-/

namespace RecordQuery.Query

open Json (Number)

/-! ## What is printed -/

/-- Latitude and longitude, each as a text. -/
def printedPosition? : List Number → Option (String × String)
  | lon :: lat :: _ => some (lat.render, lon.render)
  | _ => none

def printedRing (ring : List (List Number)) : List (String × String) :=
  ring.filterMap printedPosition?

/-- The outer rings are printed alike, and the holes in some order. -/
structure SamePrinted (rings others : List (List (List Number))) : Prop where
  outer : rings.head?.map printedRing = others.head?.map printedRing
  holes : (rings.tail.map printedRing).Perm (others.tail.map printedRing)

theorem printedRing_map_take (ring : List (List Number)) :
    printedRing (ring.map (·.take 2)) = printedRing ring := by
  rw [printedRing, printedRing, List.filterMap_map]
  congr 1
  funext position
  cases position with
  | nil => rfl
  | cons lon rest =>
    cases rest with
    | nil => rfl
    | cons lat surplus => rfl

theorem SamePolygon.samePrinted {rings others : List (List (List Number))}
    (h : SamePolygon rings others) : SamePrinted rings others := by
  obtain ⟨outer, holes, outer', holes', rfl, rfl, houter, hholes⟩ := h
  have hmap : ∀ holes : List (List (List Number)),
      (holes.map fun ring => ring.map (·.take 2)).map printedRing = holes.map printedRing := by
    intro holes
    rw [List.map_map]
    exact List.map_congr_left fun ring _ => printedRing_map_take ring
  constructor
  · have hprinted := congrArg printedRing houter
    rw [printedRing_map_take, printedRing_map_take] at hprinted
    exact congrArg some hprinted
  · have hprinted := hholes.map printedRing
    rw [hmap, hmap] at hprinted
    exact hprinted

/-! ## The text of what is printed -/

def positionsText (positions : List (String × String)) : String :=
  ",".intercalate (positions.map fun (lat, lon) => "[" ++ lat ++ "," ++ lon ++ "]")

theorem ringText_eq_positionsText (ring : List (List Number)) :
    ringText ring = positionsText (printedRing ring) := by
  rw [ringText, positionsText, printedRing, List.map_filterMap]
  congr 2
  funext position
  cases position with
  | nil => rfl
  | cons lon rest =>
    cases rest with
    | nil => rfl
    | cons lat surplus => rfl

theorem polygonText_eq_of_samePrinted {rings others : List (List (List Number))}
    (h : SamePrinted rings others) : polygonText rings = polygonText others := by
  obtain ⟨houter, hholes⟩ := h
  cases rings with
  | nil =>
    cases others with
    | nil => rfl
    | cons outer' holes' => exact nomatch houter
  | cons outer holes =>
    cases others with
    | nil => exact nomatch houter
    | cons outer' holes' =>
      have hring : ringText outer = ringText outer' := by
        rw [ringText_eq_positionsText, ringText_eq_positionsText, Option.some.inj houter]
      have htexts : (holes.map ringText).Perm (holes'.map ringText) := by
        have hjoined := hholes.map positionsText
        rw [List.map_map, List.map_map] at hjoined
        simp only [Function.comp_def, ← ringText_eq_positionsText] at hjoined
        exact hjoined
      exact polygonText_congr hring htexts

theorem coordinatesText_eq_of_samePrinted {coordinates others : Coordinates}
    (h : List.Forall₂ SamePrinted coordinates others) :
    coordinatesText coordinates = coordinatesText others := by
  have htexts := map_eq_of_forall₂ (h.imp fun _ _ => polygonText_eq_of_samePrinted)
  rw [coordinatesText, coordinatesText, htexts]

/-- Areas that can be read have one text just when they are printed alike; then the clauses that
search for them differ at most in the order of what each polygon excludes. -/
theorem coordinatesText_eq_iff_samePrinted {value other : Json.Value} {custom custom' : CustomArea}
    (hcustom : Term.decode value .customArea = .ok (.customArea custom))
    (hcustom' : Term.decode other .customArea = .ok (.customArea custom')) :
    (coordinatesText custom.coordinates = coordinatesText custom'.coordinates ↔
      List.Forall₂ SamePrinted custom.coordinates custom'.coordinates) ∧
    (coordinatesText custom.coordinates = coordinatesText custom'.coordinates → ∀ field,
      Clause.SameButExcluded (.ofArea field custom.area) (.ofArea field custom'.area)) := by
  have hwell : custom.WellFormed := Term.wellFormed_of_decode hcustom
  have hwell' : custom'.WellFormed := Term.wellFormed_of_decode hcustom'
  refine ⟨⟨fun htext => ?_, coordinatesText_eq_of_samePrinted⟩, fun htext field => ?_⟩
  · exact (coordinatesText_inj hwell hwell' htext).imp fun _ _ => SamePolygon.samePrinted
  · exact .ofArea field
      (hwell.draws.sameButHoles (coordinatesText_inj hwell hwell' htext) hwell'.draws)

/-- The holes of a polygon change places, and a position gains an altitude. -/
theorem coordinatesText_eq_of_holes_swapped :
    let number (n : Fin 10) : Number := .integer n.val (by omega)
    let outer := [[number 0, number 0], [number 9, number 0], [number 9, number 9]]
    let lake := [[number 2, number 1], [number 3, number 1], [number 3, number 2]]
    let pond := [[number 6, number 5], [number 7, number 5], [number 7, number 6]]
    let raised := [[number 6, number 5, number 4], [number 7, number 5], [number 7, number 6]]
    ∃ custom custom',
      Term.decode (coordinatesValue [[outer, lake, pond]]) .customArea =
        .ok (.customArea custom) ∧
      Term.decode (coordinatesValue [[outer, raised, lake]]) .customArea =
        .ok (.customArea custom') ∧
      List.Forall₂ SamePrinted custom.coordinates custom'.coordinates ∧
      coordinatesText custom.coordinates = coordinatesText custom'.coordinates ∧
      ∀ field, Clause.SameButExcluded (.ofArea field custom.area) (.ofArea field custom'.area) := by
  intro number outer lake pond raised
  obtain ⟨custom, hcustom, hcoordinates⟩ : ∃ custom : CustomArea,
      Term.decode (coordinatesValue [[outer, lake, pond]]) .customArea =
        .ok (.customArea custom) ∧ custom.coordinates = [[outer, lake, pond]] := ⟨_, rfl, rfl⟩
  obtain ⟨custom', hcustom', hcoordinates'⟩ : ∃ custom : CustomArea,
      Term.decode (coordinatesValue [[outer, raised, lake]]) .customArea =
        .ok (.customArea custom) ∧ custom.coordinates = [[outer, raised, lake]] := ⟨_, rfl, rfl⟩
  have hsame : List.Forall₂ SamePrinted custom.coordinates custom'.coordinates := by
    rw [hcoordinates, hcoordinates']
    exact .cons ⟨rfl, List.Perm.swap _ _ []⟩ .nil
  have hagree := coordinatesText_eq_iff_samePrinted hcustom hcustom'
  have htext := hagree.1.2 hsame
  exact ⟨custom, custom', hcustom, hcustom', hsame, htext, hagree.2 htext⟩

end RecordQuery.Query
