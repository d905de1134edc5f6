import Mathlib.Data.Finset.Image
import RecordQuery.Proofs.Json.Numeral
import RecordQuery.Proofs.Schema.Registration

/-!
# The numbers of versions

A version is read as the numbers between its dots, and a part that is no number counts as zero.
Main statements: versions that are written as lists of numbers are listed in the order of these
lists, in whatever order they were registered, and of two versions of which one has a number where
the other has none the latter comes first unless the number is zero. Where it is zero the parts
behind decide, and then the characters, so a candidate may come behind the version it leads to.
-/

namespace RecordQuery.Schema

namespace Version

/-- The parts of a version: what stands between the dots behind its leading `v`s. -/
def parts (version : String) : List (List Char) :=
  Text.pieces '.' (version.toList.dropWhile (· == 'v'))

/-- What a part counts for. -/
def rank (part : List Char) : Nat := (number? part).getD 0

theorem key_eq_map_rank (version : String) : key version = (parts version).map rank := rfl

/-- The version of these numbers: their digits behind a `v`, with dots between them. -/
def ofNumbers (numbers : List UInt64) : String :=
  "v" ++ ".".intercalate (numbers.map fun n => n.toNat.repr)

/-! ## Numbers are read back -/

theorem number?_toDigits {n : Nat} (h : n < 0x10000000000000000) :
    number? (Nat.toDigits 10 n) = some n := by
  obtain ⟨c, digits, hdigits⟩ := List.exists_cons_of_ne_nil (Nat.toDigits_ne_nil (b := 10) (n := n))
  have hall : (c :: digits).all Char.isDigit = true := by
    rw [← hdigits, List.all_eq_true]
    exact fun _ => Json.isDigit_of_mem_toDigits
  have hplus : c ≠ '+' := by
    rintro rfl
    exact absurd (List.all_eq_true.1 hall '+' List.mem_cons_self) (by decide)
  have hvalue : (c :: digits).foldl (fun n d => 10 * n + (d.toNat - '0'.toNat)) 0 = n := by
    rw [← hdigits]
    exact Nat.ofDigitChars_ten_toDigits
  unfold number?
  rw [hdigits]
  split
  · rename_i rest heq
    exact absurd (List.cons.inj heq).1 hplus
  · dsimp only
    rw [hall, hvalue, if_neg (by simp), if_pos h]

theorem toList_ofNumbers (numbers : List UInt64) :
    (ofNumbers numbers).toList =
      'v' :: ['.'].intercalate (numbers.map fun n => Nat.toDigits 10 n.toNat) := by
  rw [ofNumbers, String.toList_append, String.toList_intercalate, List.map_map]
  simp only [Function.comp_def, Nat.toList_repr]
  rfl

theorem parts_ofNumbers {numbers : List UInt64} (hne : numbers ≠ []) :
    parts (ofNumbers numbers) = numbers.map fun n => Nat.toDigits 10 n.toNat := by
  have hdot : ∀ part ∈ numbers.map (fun n => Nat.toDigits 10 n.toNat), '.' ∉ part := by
    intro part hpart hmem
    obtain ⟨n, _, rfl⟩ := List.mem_map.1 hpart
    exact absurd (Json.isDigit_of_mem_toDigits hmem) (by decide)
  -- Only the `v` in front is left out, because a digit comes next.
  have hstop : ∀ c ∈ (['.'].intercalate (numbers.map fun n => Nat.toDigits 10 n.toNat)).head?,
      (c == 'v') = false := by
    obtain ⟨first, rest, rfl⟩ := List.exists_cons_of_ne_nil hne
    obtain ⟨c, digits, hdigits⟩ :=
      List.exists_cons_of_ne_nil (Nat.toDigits_ne_nil (b := 10) (n := first.toNat))
    have hc : c.isDigit = true :=
      Json.isDigit_of_mem_toDigits (n := first.toNat) (hdigits ▸ List.mem_cons_self)
    rw [List.map_cons, hdigits, Text.head?_intercalate_cons]
    rintro _ ⟨⟩
    rw [beq_eq_false_iff_ne]
    rintro rfl
    exact absurd hc (by decide)
  have hdrop : (ofNumbers numbers).toList.dropWhile (· == 'v') =
      ['.'].intercalate (numbers.map fun n => Nat.toDigits 10 n.toNat) := by
    rw [toList_ofNumbers]
    exact Text.dropWhile_append_of_stop (a := ['v']) (by simp) hstop
  rw [parts, hdrop]
  exact Text.pieces_intercalate (mt List.map_eq_nil_iff.1 hne) hdot

theorem key_ofNumbers {numbers : List UInt64} (hne : numbers ≠ []) :
    key (ofNumbers numbers) = numbers.map UInt64.toNat := by
  rw [key_eq_map_rank, parts_ofNumbers hne, List.map_map]
  apply List.map_congr_left
  intro n _
  show rank (Nat.toDigits 10 n.toNat) = n.toNat
  rw [rank, number?_toDigits n.toNat_lt, Option.getD_some]

/-! ## The order of lists of numbers -/

theorem map_toNat_lt_iff {a b : List UInt64} :
    a.map UInt64.toNat < b.map UInt64.toNat ↔ a < b := by
  induction a generalizing b with
  | nil => cases b <;> simp
  | cons n a ih =>
    cases b with
    | nil => simp
    | cons m b =>
      simp only [List.map_cons, List.cons_lt_cons_iff, ih, UInt64.lt_iff_toNat_lt, UInt64.toNat_inj]

theorem append_lt_append_iff {common a b : List Nat} : common ++ a < common ++ b ↔ a < b := by
  induction common with
  | nil => exact Iff.rfl
  | cons n common ih => simp [ih]

section Numbers

variable {a b : List UInt64} (ha : a ≠ []) (hb : b ≠ [])
include ha hb

theorem ofNumbers_inj (h : ofNumbers a = ofNumbers b) : a = b := by
  have hkey := congrArg key h
  rw [key_ofNumbers ha, key_ofNumbers hb] at hkey
  exact List.map_injective_iff.2 (fun _ _ => UInt64.toNat_inj.1) hkey

-- Different lists have different numbers, so the characters never decide.
theorem precedes_ofNumbers_iff : Precedes (ofNumbers a) (ofNumbers b) ↔ a < b := by
  rw [Precedes, key_ofNumbers ha, key_ofNumbers hb, map_toNat_lt_iff]
  refine or_iff_left ?_
  rintro ⟨hmap, hlt⟩
  obtain rfl : a = b := List.map_injective_iff.2 (fun _ _ => UInt64.toNat_inj.1) hmap
  exact String.lt_irrefl _ hlt

end Numbers

/-! ## Parts that are no numbers -/

/-- Behind parts that are shared one version has a part that is no number where the other has a
number. A number that is not zero decides at once; zero is what the other part counts for, so that
the parts behind decide, and the characters where these count the same. -/
theorem precedes_iff_of_no_number {a b : String} {shared behind behind' : List (List Char)}
    {part number : List Char} {n : Nat} (ha : parts a = shared ++ part :: behind)
    (hb : parts b = shared ++ number :: behind') (hpart : number? part = none)
    (hnumber : number? number = some n) :
    Precedes a b ↔ n ≠ 0 ∨ behind.map rank < behind'.map rank ∨
      behind.map rank = behind'.map rank ∧ a < b := by
  have hrank : rank part = 0 := by
    rw [rank, hpart, Option.getD_none]
  have hrank' : rank number = n := by
    rw [rank, hnumber, Option.getD_some]
  have hkey : key a = shared.map rank ++ 0 :: behind.map rank := by
    rw [key_eq_map_rank, ha, List.map_append, List.map_cons, hrank]
  have hkey' : key b = shared.map rank ++ n :: behind'.map rank := by
    rw [key_eq_map_rank, hb, List.map_append, List.map_cons, hrank']
  rw [Precedes, hkey, hkey', append_lt_append_iff, List.append_cancel_left_eq,
    List.cons_lt_cons_iff, List.cons.injEq]
  rcases Nat.eq_zero_or_pos n with rfl | hpos
  · simp
  · simp [hpos, Nat.ne_of_gt hpos]

end Version

namespace Registry

open Version (Precedes number? ofNumbers parts precedes_ofNumbers_iff rank)

/-! ## Versions of numbers -/

-- There is one list of the numbers in which each comes before all that follow.
theorem exists_pairwise_lt (numbers : Finset (List UInt64)) :
    ∃ ordered : List (List UInt64), ordered.Pairwise (· < ·) ∧
      ∀ list, list ∈ ordered ↔ list ∈ numbers := by
  let le (a b : List UInt64) : Bool := decide (a ≤ b)
  have hperm : (numbers.toList.mergeSort le).Perm numbers.toList := List.mergeSort_perm _ le
  have hle : (numbers.toList.mergeSort le).Pairwise fun a b => le a b = true := by
    apply List.pairwise_mergeSort
    · intro a b c hab hbc
      exact decide_eq_true (List.le_trans (of_decide_eq_true hab) (of_decide_eq_true hbc))
    · intro a b
      rw [Bool.or_eq_true, decide_eq_true_eq, decide_eq_true_eq]
      exact List.le_total a b
  have hne : (numbers.toList.mergeSort le).Pairwise (· ≠ ·) :=
    hperm.nodup_iff.2 numbers.nodup_toList
  refine ⟨numbers.toList.mergeSort le, hle.imp₂ ?_ hne, fun list => ?_⟩
  · intro a b hab hne
    exact (List.le_iff_lt_or_eq.1 (of_decide_eq_true hab)).resolve_right hne
  · rw [hperm.mem_iff, Finset.mem_toList]

section Numbers

variable {registry : Registry} {registered : List Schema} {numbers : Finset (List UInt64)}
  (h : registry.Holds registered)
  (hnumbers : (registered.map Schema.version).toFinset = numbers.image ofNumbers)
  (hne : ∀ list ∈ numbers, list ≠ [])
include h hnumbers

theorem Holds.mem_versions_iff {version : String} :
    version ∈ registry.versions ↔ ∃ list ∈ numbers, ofNumbers list = version := by
  rw [registry.versions_perm.mem_iff, h.mem_keys_iff, ← Finset.mem_image, ← hnumbers,
    List.mem_toFinset, List.mem_map]

include hne

-- The newest version is the greatest list, because others come before it just if they are smaller.
theorem Holds.newest_iff {version : String} :
    Newest registry.versions version ↔
      ∃ greatest ∈ numbers, ofNumbers greatest = version ∧ ∀ list ∈ numbers, list ≤ greatest := by
  constructor
  · rintro ⟨hmem, hprecedes⟩
    obtain ⟨greatest, hgreatest, rfl⟩ := (h.mem_versions_iff hnumbers).1 hmem
    refine ⟨greatest, hgreatest, rfl, fun list hlist => ?_⟩
    rcases hprecedes _ ((h.mem_versions_iff hnumbers).2 ⟨list, hlist, rfl⟩) with heq | hbefore
    · rw [Version.ofNumbers_inj (hne list hlist) (hne greatest hgreatest) heq]
      exact List.le_refl greatest
    · exact List.le_of_lt
        ((precedes_ofNumbers_iff (hne list hlist) (hne greatest hgreatest)).1 hbefore)
  · rintro ⟨greatest, hgreatest, rfl, hle⟩
    refine ⟨(h.mem_versions_iff hnumbers).2 ⟨greatest, hgreatest, rfl⟩, fun version hversion => ?_⟩
    obtain ⟨list, hlist, rfl⟩ := (h.mem_versions_iff hnumbers).1 hversion
    rcases List.le_iff_lt_or_eq.1 (hle list hlist) with hlt | rfl
    · exact .inr ((precedes_ofNumbers_iff (hne list hlist) (hne greatest hgreatest)).2 hlt)
    · exact .inl rfl

theorem Holds.versions_eq {ordered : List (List UInt64)} (hordered : ordered.Pairwise (· < ·))
    (hmem : ∀ list, list ∈ ordered ↔ list ∈ numbers) :
    registry.versions = ordered.map ofNumbers := by
  have hprecedes : (ordered.map ofNumbers).Pairwise Precedes := by
    rw [List.pairwise_map]
    refine hordered.imp_of_mem fun {a b} ha hb hlt => ?_
    exact (precedes_ofNumbers_iff (hne a ((hmem a).1 ha)) (hne b ((hmem b).1 hb))).2 hlt
  -- Neither list has a version twice, because none comes before itself.
  have hnodup : ∀ {versions : List String}, versions.Pairwise Precedes → versions.Nodup := by
    intro versions hpairs
    refine hpairs.imp fun hab heq => ?_
    rw [heq] at hab
    exact Version.precedes_irrefl _ hab
  refine versions_eq_of_perm ?_ hprecedes
  rw [List.perm_ext_iff_of_nodup (hnodup registry.pairwise_versions) (hnodup hprecedes)]
  intro version
  rw [h.mem_versions_iff hnumbers, List.mem_map]
  simp only [hmem]

end Numbers

/-- Versions that are written as lists of numbers are listed in the order of these lists, in which
the first number that differs decides and a beginning comes before what goes on. It makes no
difference in which order they were registered, or how often. The newest version is that of the
greatest list. -/
theorem versions_in_numeric_order (numbers : Finset (List UInt64))
    (hne : ∀ list ∈ numbers, list ≠ []) :
    ∃ ordered : List (List UInt64), ordered.Pairwise (· < ·) ∧
      (∀ list, list ∈ ordered ↔ list ∈ numbers) ∧
      ∀ (start : Start) (history : List Schema),
        ((start.schemas ++ history).map Schema.version).toFinset = numbers.image ofNumbers →
        let registry := start.registry.registerAll history
        registry.versions = ordered.map ofNumbers ∧
        ∀ version, registry.latestVersion? = some version ↔
          ∃ greatest ∈ numbers, ofNumbers greatest = version ∧
            ∀ list ∈ numbers, list ≤ greatest := by
  obtain ⟨ordered, hordered, hmem⟩ := exists_pairwise_lt numbers
  refine ⟨ordered, hordered, hmem, fun start history hnumbers => ?_⟩
  have h : (start.registry.registerAll history).Holds (start.schemas ++ history) :=
    start.holds.registerAll history
  refine ⟨h.versions_eq hnumbers hne hordered hmem, fun version => ?_⟩
  rw [latestVersion?_eq_some_iff, h.newest_iff hnumbers hne]

/-- Three versions, of which one is registered twice and one begins like another. -/
theorem tenth_version_is_newest :
    let numbers : Finset (List UInt64) := {[1, 10], [1, 9, 3], [1, 9]}
    let history := ["v1.9.3", "v1.10", "v1.9", "v1.10"].map lenient
    let registry := Start.empty.registry.registerAll history
    (∀ list ∈ numbers, list ≠ []) ∧
      ((Start.empty.schemas ++ history).map Schema.version).toFinset = numbers.image ofNumbers ∧
      (∃ ordered : List (List UInt64), ordered.Pairwise (· < ·) ∧
        (∀ list, list ∈ ordered ↔ list ∈ numbers) ∧ registry.versions = ordered.map ofNumbers) ∧
      registry.latestVersion? = some "v1.10" := by
  intro numbers history registry
  have hne : ∀ list ∈ numbers, list ≠ [] := by decide
  have hnumbers : ((Start.empty.schemas ++ history).map Schema.version).toFinset =
      numbers.image ofNumbers := by decide
  obtain ⟨ordered, hordered, hmem, hlisted⟩ := versions_in_numeric_order numbers hne
  obtain ⟨hversions, hlatest⟩ := hlisted .empty history hnumbers
  exact ⟨hne, hnumbers, ⟨ordered, hordered, hmem, hversions⟩,
    (hlatest "v1.10").2 ⟨[1, 10], by decide, by decide, by decide⟩⟩

/-! ## Versions with parts that are no numbers -/

/-- Where one version has a part that is no number and another, behind the same parts, a number, the
first is listed before the other just if that number is not zero, or what is behind these parts puts
it before the other; then it is not the newest. -/
theorem listed_first_iff_of_no_number {registry : Registry} {a b : String}
    (ha : a ∈ registry.versions) (hb : b ∈ registry.versions)
    {shared behind behind' : List (List Char)} {part number : List Char} {n : Nat}
    (hparts : parts a = shared ++ part :: behind) (hparts' : parts b = shared ++ number :: behind')
    (hpart : number? part = none) (hnumber : number? number = some n) :
    ([a, b].Sublist registry.versions ↔ n ≠ 0 ∨ behind.map rank < behind'.map rank ∨
      behind.map rank = behind'.map rank ∧ a < b) ∧
    ([a, b].Sublist registry.versions → registry.latestVersion? ≠ some a) := by
  have hlisted : [a, b].Sublist registry.versions ↔ Precedes a b := sublist_versions_iff ha hb
  rw [hlisted]
  refine ⟨Version.precedes_iff_of_no_number hparts hparts' hpart hnumber, ?_⟩
  intro hprecedes hlatest
  -- All others come before the newest version.
  rcases (latestVersion?_eq_some_iff.1 hlatest).precedes b hb with rfl | hbefore
  · exact Version.precedes_irrefl b hprecedes
  · exact Version.precedes_irrefl a (hprecedes.trans hbefore)

/-- The part counts as zero like the number of the other version, and what is behind it is less. -/
theorem snapshot_listed_first :
    let registry := Start.empty.registry.registerAll (["v2.0.3", "v2.x.1"].map lenient)
    ("v2.x.1" ∈ registry.versions ∧ "v2.0.3" ∈ registry.versions) ∧
      parts "v2.x.1" = [['2']] ++ ['x'] :: [['1']] ∧ parts "v2.0.3" = [['2']] ++ ['0'] :: [['3']] ∧
      number? ['x'] = none ∧ number? ['0'] = some 0 ∧
      ["v2.x.1", "v2.0.3"].Sublist registry.versions ∧
      registry.latestVersion? ≠ some "v2.x.1" := by
  intro registry
  have hmem : ∀ version ∈ registry.schemas.keys, version ∈ registry.versions := fun _ =>
    registry.versions_perm.mem_iff.2
  have ha : "v2.x.1" ∈ registry.versions := hmem _ (by decide)
  have hb : "v2.0.3" ∈ registry.versions := hmem _ (by decide)
  have hparts : parts "v2.x.1" = [['2']] ++ ['x'] :: [['1']] := by decide
  have hparts' : parts "v2.0.3" = [['2']] ++ ['0'] :: [['3']] := by decide
  obtain ⟨hiff, hlatest⟩ :=
    listed_first_iff_of_no_number (n := 0) ha hb hparts hparts' (by decide) (by decide)
  have hlisted : ["v2.x.1", "v2.0.3"].Sublist registry.versions := hiff.2 (.inr (.inl (by decide)))
  exact ⟨⟨ha, hb⟩, hparts, hparts', by decide, by decide, hlisted, hlatest hlisted⟩

/-- The candidate for a version has a part that is no number where the version itself has a zero,
and nothing is behind either. It is listed behind that version and is the newest. -/
theorem candidate_not_listed_first :
    let registry := Start.empty.registry.registerAll (["v1.0.0", "v1.0.0-rc1"].map lenient)
    parts "v1.0.0-rc1" = ["1".toList, "0".toList] ++ "0-rc1".toList :: [] ∧
      parts "v1.0.0" = ["1".toList, "0".toList] ++ "0".toList :: [] ∧
      number? "0-rc1".toList = none ∧ number? "0".toList = some 0 ∧
      registry.versions = ["v1.0.0", "v1.0.0-rc1"] ∧
      ¬ ["v1.0.0-rc1", "v1.0.0"].Sublist registry.versions ∧
      registry.latestVersion? = some "v1.0.0-rc1" := by
  intro registry
  have hversions : registry.versions = ["v1.0.0", "v1.0.0-rc1"] :=
    versions_eq_of_perm registry.versions_perm (by decide)
  refine ⟨by decide, by decide, by decide, by decide, hversions, ?_, rfl⟩
  rw [hversions]
  decide

end Registry

end RecordQuery.Schema
