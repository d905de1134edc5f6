import RecordQuery.Toml.Table

/-!
# What tables add up to

The statements of a table, its header and its entries, put that table into the table above it. Main
statement: where a path leads to a table without an entry for the key, the statements of a new table
there put its entries under that key.
-/

namespace RecordQuery.Toml

/-- The statements of a table: its header and its entries. -/
def tableStatements (path : List String) (key : String) (entries : List (String × Value)) :
    List Statement :=
  .header path key :: entries.map fun entry => .assign [] entry.1 entry.2

namespace Table

/-- The entries of a table, each with a value. -/
def nodes (entries : List (String × Value)) : List (String × Node) :=
  Entries.ofList (entries.map fun entry => (entry.1, .value entry.2))

theorem change_append (dotted : Bool)
    (f : Origin → List (String × Node) → Option (List (String × Node))) (path more : List String)
    (origin : Origin) (entries : List (String × Node)) :
    change dotted f (path ++ more) origin entries =
      change dotted (change dotted f more) path origin entries := by
  induction path generalizing origin entries with
  | nil => rfl
  | cons key path ih =>
    rw [List.cons_append, change, change]
    simp only [ih]

/-- A path leads to a table with a header, and `fill` gives the whole document that has certain
entries there. -/
def Leads (path : List String) (fill : List (String × Node) → List (String × Node)) : Prop :=
  ∀ f inner, change false f path .header (fill inner) = (f .header inner).map fill

theorem leads_nil : Leads [] id := fun f inner => (Option.map_id' (x := f .header inner)).symm

theorem Leads.below {path : List String} {fill : List (String × Node) → List (String × Node)}
    (h : Leads path fill) (key : String) (entries : List (String × Node)) :
    Leads (path ++ [key]) fun inner =>
      fill (Entries.insert key (.table .header inner) entries) := by
  intro f inner
  rw [change_append, h, change, Entries.find?_insert, if_pos rfl]
  show ((f .header inner).bind fun inner' => some (Entries.insert key (.table .header inner')
    (Entries.insert key (.table .header inner) entries))).map fill = _
  cases f .header inner with
  | none => rfl
  | some inner' => rw [Option.bind_some, Entries.insert_insert, Option.map_some, Option.map_some]

section Run

variable {path : List String} {fill : List (String × Node) → List (String × Node)}
  {inner : List (String × Node)}

theorem add_header (h : Leads path fill) {key : String} (hkey : Entries.find? key inner = none)
    (current : List String) :
    Progress.add ⟨fill inner, current⟩ (.header path key) =
      some ⟨fill (Entries.insert key (.table .header []) inner), path ++ [key]⟩ := by
  rw [Progress.add, h, addHeader, hkey]
  rfl

theorem add_assign (h : Leads path fill) {key : String} (hkey : Entries.find? key inner = none)
    (value : Value) :
    Progress.add ⟨fill inner, path⟩ (.assign [] key value) =
      some ⟨fill (Entries.insert key (.value value) inner), path⟩ := by
  have hadd : assign [] key value .header inner =
      some (Entries.insert key (.value value) inner) := by
    show addValue false key value .header inner = _
    rw [addValue, hkey]
    rfl
  rw [Progress.add, h, hadd]
  rfl

-- With each entry the table at the end of the path grows, and nothing else changes.
theorem foldlM_add_assign (h : Leads path fill) {entries : List (String × Value)}
    (hnodup : (entries.map (·.1)).Nodup)
    (hkeys : ∀ entry ∈ entries, Entries.find? entry.1 inner = none) :
    (entries.map fun entry => Statement.assign [] entry.1 entry.2).foldlM Progress.add
        ⟨fill inner, path⟩ =
      some ⟨fill ((entries.map fun entry => (entry.1, Node.value entry.2)).foldl
        (fun entries member => Entries.insert member.1 member.2 entries) inner), path⟩ := by
  induction entries generalizing inner with
  | nil => rfl
  | cons entry entries ih =>
    obtain ⟨hentry, hentries⟩ := List.forall_mem_cons.1 hkeys
    obtain ⟨hnew, hnodup⟩ := List.nodup_cons.1 hnodup
    rw [List.map_cons, List.foldlM_cons, add_assign h hentry, Option.bind_eq_bind, Option.bind_some,
      ih hnodup, List.map_cons, List.foldl_cons]
    intro other hother
    rw [Entries.find?_insert, if_neg, hentries other hother]
    intro heq
    exact hnew (List.mem_map.2 ⟨other, hother, heq.symm⟩)

/-- A new table is put where its header says. -/
theorem foldlM_tableStatements (h : Leads path fill) {key : String}
    {entries : List (String × Value)} (hkey : Entries.find? key inner = none)
    (hnodup : (entries.map (·.1)).Nodup) (current : List String) (rest : List Statement) :
    (tableStatements path key entries ++ rest).foldlM Progress.add ⟨fill inner, current⟩ =
      rest.foldlM Progress.add
        ⟨fill (Entries.insert key (.table .header (nodes entries)) inner), path ++ [key]⟩ := by
  have htable : (tableStatements path key entries).foldlM Progress.add ⟨fill inner, current⟩ =
      some ⟨fill (Entries.insert key (.table .header (nodes entries)) inner), path ++ [key]⟩ := by
    rw [tableStatements, List.foldlM_cons, add_header h hkey, Option.bind_eq_bind,
      Option.bind_some]
    exact foldlM_add_assign (h.below key inner) hnodup fun _ _ => rfl
  rw [List.foldlM_append, htable, Option.bind_eq_bind, Option.bind_some]

end Run

end Table

/-! ## Values of tables -/

namespace Node

theorem toEntries_insert (key : String) (node : Node) (entries : List (String × Node)) :
    toEntries (Entries.insert key node entries) =
      Entries.insert key node.toValue (toEntries entries) := by
  induction entries with
  | nil => rfl
  | cons entry entries ih =>
    obtain ⟨k, v⟩ := entry
    by_cases hlt : key < k
    · simp [Entries.insert, toEntries, hlt]
    · by_cases heq : key = k
      · simp [Entries.insert, toEntries, heq]
      · simp [Entries.insert, toEntries, hlt, heq, ih]

theorem toEntries_nodes (entries : List (String × Value)) :
    toEntries (Table.nodes entries) = Entries.ofList entries := by
  -- One entry after the other goes into both of them.
  have hfold : ∀ (members : List (String × Value)) (start : List (String × Node)),
      toEntries ((members.map fun entry => (entry.1, Node.value entry.2)).foldl
        (fun entries member => Entries.insert member.1 member.2 entries) start) =
      members.foldl (fun entries member => Entries.insert member.1 member.2 entries)
        (toEntries start) := by
    intro members
    induction members with
    | nil => exact fun _ => rfl
    | cons member members ih =>
      intro start
      rw [List.map_cons, List.foldl_cons, List.foldl_cons, ih, toEntries_insert, toValue]
  exact hfold entries []

end Node

end RecordQuery.Toml
