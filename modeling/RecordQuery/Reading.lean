/-!
# Reading from a list

A reader takes some of its input and returns what is left. How much can be left is part of its
type, so a loop over a reader ends. What is left is put together from what its parts leave.
-/

namespace RecordQuery

variable {α : Type}

/-- What is left when some of an input that was `bound` long has been taken. -/
abbrev Rest (α : Type) (bound : Nat) := { rest : List α // rest.length < bound }

/-- What is left when some or nothing of an input that was `bound` long has been taken. -/
abbrev Left (α : Type) (bound : Nat) := { rest : List α // rest.length ≤ bound }

namespace Left

variable {bound : Nat}

def all (s : List α) : Left α s.length := ⟨s, Nat.le_refl _⟩

def tail (a : α) (s : List α) : Left α (a :: s).length := ⟨s, Nat.le_succ _⟩

def drop (n : Nat) (s : List α) : Left α s.length := ⟨s.drop n, by rw [List.length_drop]; omega⟩

def dropWhile (p : α → Bool) (s : List α) : Left α s.length :=
  ⟨s.dropWhile p, (List.dropWhile_sublist p).length_le⟩

def cons (a : α) {s : List α} (left : Left α s.length) : Left α (a :: s).length :=
  ⟨left.1, Nat.le_succ_of_le left.2⟩

def below (left : Left α bound) (inner : Left α left.1.length) : Left α bound :=
  ⟨inner.1, Nat.le_trans inner.2 left.2⟩

def short (left : Left α bound) (inner : Rest α left.1.length) : Rest α bound :=
  ⟨inner.1, Nat.lt_of_lt_of_le inner.2 left.2⟩

end Left

namespace Rest

variable {bound : Nat}

def tail (a : α) (s : List α) : Rest α (a :: s).length := ⟨s, Nat.lt_succ_self _⟩

def cons (a : α) {s : List α} (rest : Rest α s.length) : Rest α (a :: s).length :=
  ⟨rest.1, Nat.lt_succ_of_lt rest.2⟩

def left (rest : Rest α bound) : Left α bound := ⟨rest.1, Nat.le_of_lt rest.2⟩

def below (rest : Rest α bound) (inner : Left α rest.1.length) : Rest α bound :=
  ⟨inner.1, Nat.lt_of_le_of_lt inner.2 rest.2⟩

end Rest

namespace Reading

theorem length_dropWhile_le (p : α → Bool) (s : List α) : (s.dropWhile p).length ≤ s.length :=
  (List.dropWhile_sublist p).length_le

theorem length_lt_of_dropWhile_eq_cons {p : α → Bool} {s rest : List α} {a : α}
    (h : s.dropWhile p = a :: rest) : rest.length < s.length := by
  have := length_dropWhile_le p s
  rw [h, List.length_cons] at this
  exact this

variable {a : α} {s t rest : List α} {bound : Nat}

theorem length_le_self (s : List α) : s.length ≤ s.length := Nat.le_refl _

theorem length_le_of_cons (h : (a :: s).length ≤ bound) : s.length ≤ bound :=
  Nat.le_of_succ_le h

theorem length_le_of_le_of_cons (hrest : rest.length ≤ s.length) (h : (a :: s).length ≤ bound) :
    rest.length ≤ bound :=
  Nat.le_trans hrest (length_le_of_cons h)

theorem length_le_of_lt_of_le (hrest : rest.length < t.length) (ht : t.length ≤ s.length)
    (h : s.length ≤ bound) : rest.length ≤ bound :=
  Nat.le_trans (Nat.le_of_lt hrest) (Nat.le_trans ht h)

end Reading

end RecordQuery
