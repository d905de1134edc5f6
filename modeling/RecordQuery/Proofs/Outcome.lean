import RecordQuery.Proofs.Matching

/-!
# Outcomes

What is known once a computation that can fail has succeeded, and what it fails with.
-/

namespace RecordQuery

variable {ε α β : Type}

-- A sequence succeeds when each of its steps does.
theorem bind_eq_ok_iff {x : Except ε α} {f : α → Except ε β} {b : β} :
    (x >>= f) = .ok b ↔ ∃ a, x = .ok a ∧ f a = .ok b := by
  cases x with
  | error e =>
    constructor
    · intro h
      exact nomatch h
    · rintro ⟨a, ha, _⟩
      exact nomatch ha
  | ok a =>
    constructor
    · intro h
      exact ⟨a, rfl, h⟩
    · rintro ⟨a', ha, h⟩
      rw [← Except.ok.inj ha] at h
      exact h

-- It fails when one of its steps does, and those before it have succeeded.
theorem bind_eq_error_iff {x : Except ε α} {f : α → Except ε β} {e : ε} :
    (x >>= f) = .error e ↔ x = .error e ∨ ∃ a, x = .ok a ∧ f a = .error e := by
  cases x with
  | error cause =>
    constructor
    · intro h
      exact .inl (congrArg Except.error (Except.error.inj h))
    · rintro (h | ⟨_, ha, _⟩)
      · exact congrArg Except.error (Except.error.inj h)
      · exact nomatch ha
  | ok a =>
    constructor
    · intro h
      exact .inr ⟨a, rfl, h⟩
    · rintro (h | ⟨_, ha, h⟩)
      · exact nomatch h
      · obtain rfl := Except.ok.inj ha
        exact h

-- What is made of a result does not fail.
theorem bind_pure_eq_error_iff {x : Except ε α} {f : α → β} {e : ε} :
    (x >>= fun a => pure (f a)) = .error e ↔ x = .error e := by
  rw [bind_eq_error_iff, or_iff_left]
  rintro ⟨_, _, h⟩
  exact nomatch h

theorem mapM_eq_ok_iff {f : α → Except ε β} {xs : List α} {ys : List β} :
    xs.mapM f = .ok ys ↔ List.Forall₂ (fun x y => f x = .ok y) xs ys := by
  induction xs generalizing ys with
  | nil =>
    rw [List.mapM_nil, List.forall₂_nil_left_iff]
    exact ⟨fun h => (Except.ok.inj h).symm, fun h => congrArg Except.ok h.symm⟩
  | cons x xs ih =>
    -- Success of the whole is success of the first step and of the rest, on both sides.
    rw [List.mapM_cons, List.forall₂_cons_left_iff, bind_eq_ok_iff]
    constructor
    · rintro ⟨y, hy, h⟩
      obtain ⟨rest, hrest, h⟩ := bind_eq_ok_iff.1 h
      exact ⟨y, rest, hy, ih.1 hrest, (Except.ok.inj h).symm⟩
    · rintro ⟨y, rest, hy, hrest, rfl⟩
      exact ⟨y, hy, bind_eq_ok_iff.2 ⟨rest, ih.2 hrest, rfl⟩⟩

theorem exists_mapM_eq_ok_iff {f : α → Except ε β} {xs : List α} :
    (∃ ys, xs.mapM f = .ok ys) ↔ ∀ x ∈ xs, ∃ y, f x = .ok y := by
  simp only [mapM_eq_ok_iff]
  induction xs with
  | nil => exact ⟨fun _ _ h => absurd h List.not_mem_nil, fun _ => ⟨[], .nil⟩⟩
  | cons x xs ih =>
    rw [List.forall_mem_cons, ← ih]
    constructor
    · rintro ⟨ys, h⟩
      cases h with
      | cons hfirst hrest => exact ⟨⟨_, hfirst⟩, _, hrest⟩
    · rintro ⟨⟨y, hfirst⟩, ys, hrest⟩
      exact ⟨y :: ys, .cons hfirst hrest⟩

-- Steps that can be taken or not whatever has been reached are all taken if each can be.
theorem exists_foldlM_eq_ok_iff {f : β → α → Except ε β} {p : α → Prop}
    (hstep : ∀ b a, (∃ next, f b a = .ok next) ↔ p a) {xs : List α} {b : β} :
    (∃ last, xs.foldlM f b = .ok last) ↔ ∀ x ∈ xs, p x := by
  induction xs generalizing b with
  | nil => exact ⟨fun _ _ hx => absurd hx List.not_mem_nil, fun _ => ⟨b, rfl⟩⟩
  | cons x xs ih =>
    rw [List.forall_mem_cons, List.foldlM_cons]
    constructor
    · rintro ⟨last, h⟩
      obtain ⟨next, hnext, hlast⟩ := bind_eq_ok_iff.1 h
      exact ⟨(hstep b x).1 ⟨next, hnext⟩, ih.1 ⟨last, hlast⟩⟩
    · rintro ⟨hx, hxs⟩
      obtain ⟨next, hnext⟩ := (hstep b x).2 hx
      obtain ⟨last, hlast⟩ := (ih (b := next)).2 hxs
      exact ⟨last, bind_eq_ok_iff.2 ⟨next, hnext, hlast⟩⟩

theorem exists_of_foldlM_eq_error {f : β → α → Except ε β} {xs : List α} {b : β} {e : ε}
    (h : xs.foldlM f b = .error e) : ∃ x ∈ xs, ∃ reached, f reached x = .error e := by
  induction xs generalizing b with
  | nil => exact nomatch h
  | cons x xs ih =>
    rw [List.foldlM_cons] at h
    cases hx : f b x with
    | error cause =>
      rw [hx] at h
      exact ⟨x, List.mem_cons_self, b, hx.trans h⟩
    | ok next =>
      rw [hx] at h
      obtain ⟨other, hother, hfault⟩ := ih h
      exact ⟨other, List.mem_cons_of_mem x hother, hfault⟩

theorem toOption_eq_some_iff {x : Except ε α} {a : α} : x.toOption = some a ↔ x = .ok a := by
  cases x <;> simp [Except.toOption]

/-- What a computation fails with, if it does. -/
def failure? : Except ε α → Option ε
  | .error e => some e
  | .ok _ => none

@[simp] theorem failure?_ok (a : α) : failure? (.ok a : Except ε α) = none := rfl

@[simp] theorem failure?_error (e : ε) : failure? (.error e : Except ε α) = some e := rfl

theorem failure?_eq_some_iff {x : Except ε α} {e : ε} : failure? x = some e ↔ x = .error e := by
  cases x with
  | error e' => rw [failure?_error, Option.some.injEq, Except.error.injEq]
  | ok a => exact ⟨fun h => (nomatch h), fun h => (nomatch h)⟩

theorem failure?_eq_none_iff {x : Except ε α} : failure? x = none ↔ ∃ a, x = .ok a := by
  cases x with
  | error e => exact ⟨fun h => (nomatch h), fun ⟨_, h⟩ => (nomatch h)⟩
  | ok a => exact ⟨fun _ => ⟨a, rfl⟩, fun _ => rfl⟩

@[simp] theorem failure?_map (f : α → β) (x : Except ε α) :
    failure? (x.map f) = failure? x := by
  cases x <;> rfl

-- A sequence fails with what its first step fails with, else with what follows.
theorem failure?_bind {x : Except ε α} {f : α → Except ε β} {e? : Option ε}
    (h : ∀ a, x = .ok a → failure? (f a) = e?) : failure? (x >>= f) = (failure? x).or e? := by
  cases x with
  | error e => rfl
  | ok a => exact h a rfl

-- Steps that fail alike whatever has been reached fail together with what the first fails with.
theorem failure?_foldlM {f : β → α → Except ε β} {e? : α → Option ε}
    (hstep : ∀ b a, failure? (f b a) = e? a) (xs : List α) (b : β) :
    failure? (xs.foldlM f b) = xs.findSome? e? := by
  induction xs generalizing b with
  | nil => rfl
  | cons x xs ih =>
    rw [List.foldlM_cons, failure?_bind fun next _ => ih next, hstep, List.findSome?_cons]
    cases e? x <;> rfl

-- Without a result there is nothing to know of a computation but what it fails with.
theorem eq_map_unit_of_failure?_eq {x : Except ε Unit} {y : Except ε α}
    (h : failure? x = failure? y) : x = y.map fun _ => () := by
  cases x with
  | error e =>
    rw [failure?_eq_some_iff.1 (h.symm.trans (failure?_error e))]
    rfl
  | ok u =>
    obtain ⟨a, rfl⟩ := failure?_eq_none_iff.1 (h.symm.trans (failure?_ok u))
    rfl

section First

variable {passes : α → Prop} {stops : Nat → α → Prop} {index : Nat}

/-- Past elements with one property the list comes to an element with another, which is told the
place of that element; the first element stands at `index`. -/
def ComesTo (passes : α → Prop) (stops : Nat → α → Prop) (index : Nat) (xs : List α) : Prop :=
  ∃ before x after, xs = before ++ x :: after ∧ (∀ y ∈ before, passes y) ∧
    stops (index + before.length) x

theorem not_comesTo_nil : ¬ ComesTo passes stops index [] := by
  rintro ⟨before, x, after, h, _⟩
  exact List.append_ne_nil_of_right_ne_nil before (List.cons_ne_nil x after) h.symm

theorem comesTo_cons_iff {x : α} {xs : List α} :
    ComesTo passes stops index (x :: xs) ↔
      stops index x ∨ passes x ∧ ComesTo passes stops (index + 1) xs := by
  constructor
  · rintro ⟨before, y, after, hxs, hbefore, hstops⟩
    cases before with
    | nil =>
      obtain ⟨rfl, rfl⟩ := List.cons.inj hxs
      exact .inl hstops
    | cons first before =>
      obtain ⟨rfl, rfl⟩ := List.cons.inj hxs
      obtain ⟨hfirst, hbefore⟩ := List.forall_mem_cons.1 hbefore
      refine .inr ⟨hfirst, before, y, after, rfl, hbefore, ?_⟩
      rwa [Nat.add_assoc, Nat.add_comm 1, ← List.length_cons]
  · rintro (hstops | ⟨hx, before, y, after, rfl, hbefore, hstops⟩)
    · exact ⟨[], x, xs, rfl, fun _ h => absurd h List.not_mem_nil, hstops⟩
    · refine ⟨x :: before, y, after, rfl, List.forall_mem_cons.2 ⟨hx, hbefore⟩, ?_⟩
      rwa [List.length_cons, Nat.add_comm before.length, ← Nat.add_assoc]

-- A list fails with what its first element that fails does.
theorem mapM_eq_error_iff {f : α → Except ε β} {xs : List α} {e : ε} (index : Nat) :
    xs.mapM f = .error e ↔
      ComesTo (fun x => ∃ y, f x = .ok y) (fun _ x => f x = .error e) index xs := by
  induction xs generalizing index with
  | nil => exact ⟨fun h => (nomatch h), fun h => absurd h not_comesTo_nil⟩
  | cons x xs ih =>
    rw [List.mapM_cons, comesTo_cons_iff, bind_eq_error_iff, ← ih, ← exists_and_right]
    simp only [bind_pure_eq_error_iff]

end First

section Machine

variable {x : ExceptT ε Id α}

theorem bind_of_run_eq_error {e : ε} (h : Id.run x.run = .error e) (f : α → ExceptT ε Id β) :
    x >>= f = throw e := by
  have hx : x = throw e := h
  rw [hx, ExceptT.bind_throw]

theorem bind_of_run_eq_ok {a : α} (h : Id.run x.run = .ok a) (f : α → ExceptT ε Id β) :
    x >>= f = f a := by
  have hx : x = pure a := h
  rw [hx, pure_bind]

-- The same where a computation is nothing but its result.
theorem run_bind_eq_ok_iff {f : α → ExceptT ε Id β} {b : β} :
    Id.run (x >>= f).run = .ok b ↔ ∃ a, Id.run x.run = .ok a ∧ Id.run (f a).run = .ok b := by
  cases hx : Id.run x.run with
  | error e =>
    rw [bind_of_run_eq_error hx]
    exact ⟨fun h => (nomatch h), fun ⟨_, ha, _⟩ => (nomatch ha)⟩
  | ok a =>
    rw [bind_of_run_eq_ok hx]
    exact ⟨fun h => ⟨a, rfl, h⟩, fun ⟨_, ha, h⟩ => Except.ok.inj ha ▸ h⟩

theorem run_bind_eq_error_iff {f : α → ExceptT ε Id β} {e : ε} :
    Id.run (x >>= f).run = .error e ↔
      Id.run x.run = .error e ∨ ∃ a, Id.run x.run = .ok a ∧ Id.run (f a).run = .error e := by
  cases hx : Id.run x.run with
  | error cause =>
    rw [bind_of_run_eq_error hx]
    constructor
    · intro h
      exact .inl (congrArg Except.error (Except.error.inj h))
    · rintro (h | ⟨_, ha, _⟩)
      · exact congrArg Except.error (Except.error.inj h)
      · exact nomatch ha
  | ok a =>
    rw [bind_of_run_eq_ok hx]
    constructor
    · intro h
      exact .inr ⟨a, rfl, h⟩
    · rintro (h | ⟨_, ha, h⟩)
      · exact nomatch h
      · obtain rfl := Except.ok.inj ha
        exact h

-- What follows a computation matters for its result only.
theorem bind_congr_of_run {f g : α → ExceptT ε Id β}
    (h : ∀ a, Id.run x.run = .ok a → f a = g a) : x >>= f = x >>= g := by
  cases hx : Id.run x.run with
  | error e => rw [bind_of_run_eq_error hx, bind_of_run_eq_error hx]
  | ok a => rw [bind_of_run_eq_ok hx, bind_of_run_eq_ok hx, h a hx]

end Machine

end RecordQuery
