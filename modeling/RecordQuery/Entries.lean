/-!
# Entries in key order

A list of keyed values that is kept in the order of its keys, as the members of a JSON object
are, and the map whose entries are known to be in that order. Writing under a key that is there
replaces its value.
-/

namespace RecordQuery

namespace Entries

variable {α β : Type}

def Ordered (entries : List (String × α)) : Prop :=
  entries.Pairwise fun a b => a.1 < b.1

/-- Puts `value` under `key` at the key's place, in front of the first greater key. -/
def insert (key : String) (value : α) : List (String × α) → List (String × α)
  | [] => [(key, value)]
  | (k, v) :: rest =>
    if key < k then (key, value) :: (k, v) :: rest
    else if key = k then (key, value) :: rest
    else (k, v) :: insert key value rest

def find? (key : String) : List (String × α) → Option α
  | [] => none
  | (k, v) :: rest => if k = key then some v else find? key rest

/-- The entries of a list that may repeat keys: the last value of each key, in key order. -/
def ofList (members : List (String × α)) : List (String × α) :=
  members.foldl (fun entries member => insert member.1 member.2 entries) []

theorem mem_insert {key : String} {value : α} {entries : List (String × α)} {e : String × α}
    (h : e ∈ insert key value entries) : e = (key, value) ∨ e ∈ entries := by
  induction entries with
  | nil => simpa [insert] using h
  | cons first rest ih =>
    obtain ⟨k, v⟩ := first
    unfold insert at h
    split at h
    · simpa using h
    · split at h
      · rcases List.mem_cons.1 h with h | h
        · exact .inl h
        · exact .inr (List.mem_cons_of_mem _ h)
      · rcases List.mem_cons.1 h with h | h
        · exact .inr (h ▸ List.mem_cons_self)
        · exact (ih h).imp id (List.mem_cons_of_mem _)

theorem ordered_insert (key : String) (value : α) {entries : List (String × α)}
    (h : Ordered entries) : Ordered (insert key value entries) := by
  induction entries with
  | nil => simp [insert, Ordered]
  | cons first rest ih =>
    obtain ⟨k, v⟩ := first
    obtain ⟨hk, hrest⟩ := List.pairwise_cons.1 h
    unfold insert
    split
    · rename_i hlt
      refine List.pairwise_cons.2 ⟨fun e he => ?_, h⟩
      rcases List.mem_cons.1 he with he | he
      · simpa [he] using hlt
      · exact String.lt_trans hlt (hk e he)
    · split
      · rename_i heq
        exact List.pairwise_cons.2 ⟨fun e he => heq ▸ hk e he, hrest⟩
      · -- Neither smaller nor equal, so the first key stays in front.
        rename_i hlt hne
        refine List.pairwise_cons.2 ⟨fun e he => ?_, ih hrest⟩
        rcases mem_insert he with he | he
        · exact he ▸ Std.lt_of_le_of_ne (String.not_lt.1 hlt) (Ne.symm hne)
        · exact hk e he

section Placing

variable {key other : String} (value : α) (next : α) (rest : List (String × α))

theorem insert_nil (key : String) : insert key value [] = [(key, value)] := rfl

theorem insert_cons_of_lt (h : key < other) :
    insert key value ((other, next) :: rest) = (key, value) :: (other, next) :: rest := by
  rw [insert, if_pos h]

theorem insert_cons_of_gt (h : other < key) :
    insert key value ((other, next) :: rest) = (other, next) :: insert key value rest := by
  have hne : key ≠ other := by
    rintro rfl
    exact String.lt_irrefl key h
  rw [insert, if_neg (String.lt_asymm h), if_neg hne]

end Placing

theorem find?_insert (key other : String) (value : α) (entries : List (String × α)) :
    find? other (insert key value entries) =
      if key = other then some value else find? other entries := by
  induction entries with
  | nil => simp [insert, find?]
  | cons first rest ih =>
    obtain ⟨k, v⟩ := first
    unfold insert
    split
    · simp [find?]
    · split
      · rename_i heq
        subst heq
        by_cases h : key = other <;> simp [find?, h]
      · rename_i hne
        by_cases h : k = other
        · subst h
          simp [find?, hne]
        · simp [find?, h, ih]

theorem insert_insert (key : String) (value other : α) (entries : List (String × α)) :
    insert key value (insert key other entries) = insert key value entries := by
  induction entries with
  | nil => simp [insert]
  | cons first rest ih =>
    obtain ⟨k, v⟩ := first
    by_cases hlt : key < k
    · simp [insert, hlt]
    · by_cases heq : key = k
      · simp [insert, heq]
      · simp [insert, hlt, heq, ih]

theorem find?_append (key : String) (front back : List (String × α)) :
    find? key (front ++ back) = (find? key front).or (find? key back) := by
  induction front with
  | nil => rfl
  | cons first rest ih =>
    obtain ⟨k, v⟩ := first
    by_cases h : k = key <;> simp [find?, h, ih]

/-- Of the values of a key the last is kept, and before all of them the one that was there. -/
theorem find?_foldl_insert (key : String) (members entries : List (String × α)) :
    find? key (members.foldl (fun entries member => insert member.1 member.2 entries) entries) =
      (find? key members.reverse).or (find? key entries) := by
  induction members generalizing entries with
  | nil => rfl
  | cons member rest ih =>
    rw [List.foldl_cons, ih, find?_insert, List.reverse_cons, find?_append]
    by_cases h : member.1 = key <;> simp [find?, h]

theorem find?_ofList (key : String) (members : List (String × α)) :
    find? key (ofList members) = find? key members.reverse := by
  rw [ofList, find?_foldl_insert]
  exact Option.or_none

theorem find?_eq_none_iff {key : String} {entries : List (String × α)} :
    find? key entries = none ↔ ∀ e ∈ entries, e.1 ≠ key := by
  induction entries with
  | nil => simp [find?]
  | cons first rest ih =>
    obtain ⟨k, v⟩ := first
    by_cases h : k = key <;> simp [find?, h, ih]

theorem find?_eq_some_iff {key : String} {value : α} {entries : List (String × α)}
    (h : Ordered entries) : find? key entries = some value ↔ (key, value) ∈ entries := by
  induction entries with
  | nil => simp [find?]
  | cons first rest ih =>
    obtain ⟨k, v⟩ := first
    obtain ⟨hk, hrest⟩ := List.pairwise_cons.1 h
    rw [List.mem_cons, Prod.mk.injEq]
    by_cases hkey : k = key
    · subst hkey
      have hbehind : (k, value) ∉ rest := fun hmem => String.lt_irrefl k (hk (k, value) hmem)
      simp [find?, hbehind, eq_comm]
    · simp [find?, hkey, ih hrest, Ne.symm hkey]

end Entries

/-- A map from texts whose entries are listed in key order. -/
structure SortedMap (α : Type) where
  entries : List (String × α)
  ordered : Entries.Ordered entries

namespace SortedMap

variable {α : Type}

def empty : SortedMap α := ⟨[], List.Pairwise.nil⟩

instance : Inhabited (SortedMap α) := ⟨empty⟩

instance [DecidableEq α] : DecidableEq (SortedMap α) := fun a b =>
  decidable_of_iff (a.entries = b.entries) (by cases a; cases b; simp)

def insert (map : SortedMap α) (key : String) (value : α) : SortedMap α :=
  ⟨Entries.insert key value map.entries, Entries.ordered_insert key value map.ordered⟩

def get? (map : SortedMap α) (key : String) : Option α := Entries.find? key map.entries

def keys (map : SortedMap α) : List String := map.entries.map (·.1)

def size (map : SortedMap α) : Nat := map.entries.length

def ofList (members : List (String × α)) : SortedMap α :=
  members.foldl (fun map member => map.insert member.1 member.2) empty

@[simp] theorem get?_empty (key : String) : (empty : SortedMap α).get? key = none := rfl

theorem get?_insert (map : SortedMap α) (key other : String) (value : α) :
    (map.insert key value).get? other = if key = other then some value else map.get? other :=
  Entries.find?_insert key other value map.entries

theorem get?_eq_some_iff {map : SortedMap α} {key : String} {value : α} :
    map.get? key = some value ↔ (key, value) ∈ map.entries :=
  Entries.find?_eq_some_iff map.ordered

theorem mem_keys_iff {map : SortedMap α} {key : String} :
    key ∈ map.keys ↔ ∃ value, map.get? key = some value := by
  rw [keys, List.mem_map]
  constructor
  · rintro ⟨⟨_, value⟩, hmem, rfl⟩
    exact ⟨value, get?_eq_some_iff.2 hmem⟩
  · rintro ⟨value, hvalue⟩
    exact ⟨(key, value), get?_eq_some_iff.1 hvalue, rfl⟩

theorem pairwise_keys (map : SortedMap α) : map.keys.Pairwise (· < ·) :=
  List.pairwise_map.2 map.ordered

theorem nodup_keys (map : SortedMap α) : map.keys.Nodup := by
  refine map.pairwise_keys.imp fun hlt heq => ?_
  rw [heq] at hlt
  exact String.lt_irrefl _ hlt

end SortedMap

end RecordQuery
