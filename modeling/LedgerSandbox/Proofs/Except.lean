/-!
# Values and failures

Whatever comes to a value or a failure comes to a value only if all of its steps do
(`Except.bind_eq_ok_iff`). So a check of the items of a list passes if every item does
(`Except.forM_eq_ok_iff`), and what the steps of a fold keep is kept by the fold
(`Except.foldlM_keeps`).

Of items that may have failed either all have come through, or there is a first one that has not
(`Except.exists_eq_map_ok_or_error`). It decides what the list of them comes to.
-/

namespace LedgerSandbox.Except

variable {ε α β : Type}

/-! ## One step after the other -/

theorem bind_eq_ok_iff {x : Except ε α} {f : α → Except ε β} {b : β} :
    (x >>= f) = .ok b ↔ ∃ a, x = .ok a ∧ f a = .ok b := by
  cases x with
  | error e =>
    constructor
    · intro h
      cases h
    · rintro ⟨_, h, -⟩
      cases h
  | ok a =>
    constructor
    · intro h
      exact ⟨a, rfl, h⟩
    · rintro ⟨_, heq, h⟩
      cases heq
      exact h

theorem map_eq_ok_iff {x : Except ε α} {f : α → β} {b : β} :
    x.map f = .ok b ↔ ∃ a, x = .ok a ∧ f a = b := by
  cases x with
  | error e => exact iff_of_false nofun nofun
  | ok a =>
    refine ⟨fun h => ⟨a, rfl, Except.ok.inj h⟩, ?_⟩
    rintro ⟨_, heq, h⟩
    cases heq
    exact congrArg _ h

theorem eq_ok_of_toOption {x : Except ε α} {a : α} (h : x.toOption = some a) : x = .ok a := by
  cases x with
  | error e => cases h
  | ok b =>
    cases h
    rfl

theorem exists_error_iff {x : Except ε α} : (∃ e, x = .error e) ↔ ¬ ∃ a, x = .ok a := by
  cases x with
  | ok a => simp
  | error e => simp

/-! ## Going through a list -/

/-- A check of the items of a list passes if every item does. -/
theorem forM_eq_ok_iff {items : List α} {check : α → Except ε Unit} :
    items.forM check = .ok () ↔ ∀ item ∈ items, check item = .ok () := by
  induction items with
  | nil => exact iff_of_true rfl fun _ hitem => nomatch hitem
  | cons item rest ih =>
    show (check item >>= fun _ => rest.forM check) = .ok () ↔ _
    rw [bind_eq_ok_iff, List.forall_mem_cons, ← ih]
    exact ⟨fun ⟨_, h⟩ => h, fun h => ⟨(), h⟩⟩

/-- What every step of a fold keeps is kept by the fold. -/
theorem foldlM_keeps {P : β → Prop} {f : β → α → Except ε β} {xs : List α}
    (hstep : ∀ b x b', x ∈ xs → P b → f b x = .ok b' → P b') {b b' : β}
    (h : xs.foldlM f b = .ok b') (hb : P b) : P b' := by
  induction xs generalizing b with
  | nil =>
    cases h
    exact hb
  | cons x xs ih =>
    rw [List.foldlM_cons] at h
    obtain ⟨next, hx, hrest⟩ := bind_eq_ok_iff.mp h
    refine ih (fun b x b' hmem => hstep b x b' (List.mem_cons_of_mem _ hmem)) hrest ?_
    exact hstep b x next List.mem_cons_self hb hx

/-! ## Items up to a failure -/

/-- Items that have all come through give the list of them. -/
theorem mapM_id_map_ok (items : List α) :
    (items.map Except.ok).mapM id = (.ok items : Except ε (List α)) := by
  rw [List.mapM_map]
  show items.mapM pure = pure items
  rw [List.mapM_pure, List.map_id']

theorem mapM_id_of_error (values : List α) (e : ε) (later : List (Except ε α)) :
    (values.map Except.ok ++ Except.error e :: later).mapM id = .error e := by
  induction values with
  | nil => rfl
  | cons a rest ih =>
    rw [List.map_cons, List.cons_append, List.mapM_cons, ih]
    rfl

/-- Items have all come through, or there is a first one that has failed. -/
theorem exists_eq_map_ok_or_error (items : List (Except ε α)) :
    (∃ values : List α, items = values.map .ok) ∨
      ∃ (values : List α) (e : ε) (later : List (Except ε α)),
        items = values.map .ok ++ .error e :: later := by
  induction items with
  | nil => exact .inl ⟨[], rfl⟩
  | cons item rest ih =>
    cases item with
    | error e => exact .inr ⟨[], e, rest, rfl⟩
    | ok a =>
      rcases ih with ⟨values, rfl⟩ | ⟨values, e, later, rfl⟩
      · exact .inl ⟨a :: values, rfl⟩
      · exact .inr ⟨a :: values, e, later, rfl⟩

end LedgerSandbox.Except
