/-!
# Actions that keep a relation

The ledger under a run may be exchanged for another one, and the run does not notice
as long as the two answer alike. This is stated once, for actions in general: two
actions *simulate* each other along a relation of their states if from related states
they come to the same result, be it a value or a failure, and to related states again
(`Simulates`). What is built from such actions is such an action.

An invariant is the special case of one action and the relation "equal, and the
invariant holds" (`Simulates.invariant`). Which failures an action can come to is said by
`FailsOnly`.
-/

namespace LedgerSandbox

variable {ε σ τ α β : Type}

/-! ## Running actions -/

@[simp] theorem bind_apply (x : EStateM ε σ α) (f : α → EStateM ε σ β) (s : σ) :
    (x >>= f) s = match x s with
      | .ok a s => f a s
      | .error e s => .error e s := rfl

@[simp] theorem map_apply (f : α → β) (x : EStateM ε σ α) (s : σ) :
    (f <$> x) s = match x s with
      | .ok a s => .ok (f a) s
      | .error e s => .error e s := rfl

@[simp] theorem pure_apply (a : α) (s : σ) : (pure a : EStateM ε σ α) s = .ok a s := rfl

@[simp] theorem throw_apply (e : ε) (s : σ) : (throw e : EStateM ε σ α) s = .error e s := rfl

@[simp] theorem get_apply (s : σ) : (get : EStateM ε σ σ) s = .ok s s := rfl

@[simp] theorem estateM_get_apply (s : σ) : (EStateM.get : EStateM ε σ σ) s = .ok s s := rfl

@[simp] theorem set_apply (t s : σ) : (set t : EStateM ε σ PUnit) s = .ok ⟨⟩ t := rfl

@[simp] theorem modify_apply (f : σ → σ) (s : σ) :
    (modify f : EStateM ε σ PUnit) s = .ok ⟨⟩ (f s) := rfl

/-- The state that a result leaves. -/
def finalState : EStateM.Result ε σ α → σ
  | .ok _ s => s
  | .error _ s => s

@[simp] theorem finalState_ok (a : α) (s : σ) :
    finalState (.ok a s : EStateM.Result ε σ α) = s := rfl

@[simp] theorem finalState_error (e : ε) (s : σ) :
    finalState (.error e s : EStateM.Result ε σ α) = s := rfl

/-- Why an action failed, if it did. -/
def failure? : EStateM.Result ε σ α → Option ε
  | .ok _ _ => none
  | .error e _ => some e

theorem eq_error_of_failure? {r : EStateM.Result ε σ α} {e : ε} (h : failure? r = some e) :
    r = .error e (finalState r) := by
  cases r with
  | ok a s => cases h
  | error e' s => rw [finalState_error, Option.some.inj h]

theorem exists_eq_ok_of_failure? {r : EStateM.Result ε σ α} (h : failure? r = none) :
    ∃ a s, r = .ok a s := by
  cases r with
  | ok a s => exact ⟨a, s, rfl⟩
  | error e s => cases h

theorem bind_eq_ok_iff {x : EStateM ε σ α} {f : α → EStateM ε σ β} {b : β} {s t : σ} :
    (x >>= f) s = .ok b t ↔ ∃ a u, x s = .ok a u ∧ f a u = .ok b t := by
  rw [bind_apply]
  constructor
  · intro h
    cases hx : x s with
    | ok a u => exact ⟨a, u, rfl, by rwa [hx] at h⟩
    | error e u =>
      rw [hx] at h
      cases h
  · rintro ⟨a, u, hx, hf⟩
    rwa [hx]

theorem finalState_bind_pure (x : EStateM ε σ α) (b : β) (s : σ) :
    finalState ((x >>= fun _ => pure b) s) = finalState (x s) := by
  rw [bind_apply]
  cases x s with
  | ok a s' => rfl
  | error e s' => rfl

theorem error_of_bind_pure {x : EStateM ε σ α} {b : β} {s t : σ} {e : ε}
    (h : (x >>= fun _ => pure b) s = .error e t) : x s = .error e t := by
  rw [bind_apply] at h
  cases hres : x s with
  | ok a s' =>
    rw [hres] at h
    cases h
  | error e' s' =>
    rw [hres] at h
    cases h
    rfl

/-! ## Simulation -/

/-- Two results that say the same and leave related states. -/
inductive SameResult (R : σ → τ → Prop) : EStateM.Result ε σ α → EStateM.Result ε τ α → Prop
  | ok (a : α) {s : σ} {t : τ} : R s t → SameResult R (.ok a s) (.ok a t)
  | error (e : ε) {s : σ} {t : τ} : R s t → SameResult R (.error e s) (.error e t)

/-- Two actions that keep a relation of their states and say the same. -/
def Simulates (R : σ → τ → Prop) (x : EStateM ε σ α) (y : EStateM ε τ α) : Prop :=
  ∀ ⦃s t⦄, R s t → SameResult R (x s) (y t)

namespace SameResult

variable {R : σ → τ → Prop}

theorem final {r : EStateM.Result ε σ α} {r' : EStateM.Result ε τ α} (h : SameResult R r r') :
    R (finalState r) (finalState r') := by
  cases h with
  | ok _ hR => exact hR
  | error _ hR => exact hR

end SameResult

namespace Simulates

variable {R : σ → τ → Prop}

theorem pure (a : α) : Simulates R (Pure.pure a : EStateM ε σ α) (Pure.pure a) :=
  fun _ _ hR => .ok a hR

theorem throw (e : ε) : Simulates R (throw e : EStateM ε σ α) (throw e) :=
  fun _ _ hR => .error e hR

theorem bind {x : EStateM ε σ α} {y : EStateM ε τ α} {f : α → EStateM ε σ β}
    {g : α → EStateM ε τ β} (hxy : Simulates R x y) (hfg : ∀ a, Simulates R (f a) (g a)) :
    Simulates R (x >>= f) (y >>= g) := by
  intro s t hR
  show SameResult R (EStateM.bind x f s) (EStateM.bind y g t)
  have h := hxy hR
  unfold EStateM.bind
  generalize x s = r, y t = r' at h
  cases h with
  | ok a hR' => exact hfg a hR'
  | error e hR' => exact .error e hR'

/-- After a look at the state, the rest may rely on the relation of what was seen. -/
theorem get_bind {f : σ → EStateM ε σ β} {g : τ → EStateM ε τ β}
    (hfg : ∀ s t, R s t → SameResult R (f s s) (g t t)) :
    Simulates R (get >>= f) (get >>= g) :=
  fun s t hR => hfg s t hR

/-- An action does the same as itself. -/
theorem refl (x : EStateM ε σ α) : Simulates Eq x x := by
  rintro s _ rfl
  cases x s with
  | ok a t => exact .ok a rfl
  | error e t => exact .error e rfl

theorem modify {f : σ → σ} {g : τ → τ} (hfg : ∀ s t, R s t → R (f s) (g t)) :
    Simulates R (modify f : EStateM ε σ PUnit) (modify g) :=
  fun s t hR => .ok _ (hfg s t hR)

/-- An action that keeps "equal, and the invariant holds" keeps the invariant. -/
theorem invariant {I : σ → Prop} {x : EStateM ε σ α}
    (h : Simulates (fun s t => s = t ∧ I s) x x) {s : σ} (hs : I s) : I (finalState (x s)) :=
  (h ⟨rfl, hs⟩).final.2

/-- An action that keeps an invariant keeps "equal, and the invariant holds". -/
theorem of_invariant {I : σ → Prop} {x : EStateM ε σ α}
    (h : ∀ s, I s → I (finalState (x s))) : Simulates (fun s t => s = t ∧ I s) x x := by
  rintro s _ ⟨rfl, hs⟩
  have hI := h s hs
  cases hx : x s with
  | ok a s' => exact .ok a ⟨rfl, by rwa [hx] at hI⟩
  | error e s' => exact .error e ⟨rfl, by rwa [hx] at hI⟩

end Simulates

/-! ## Failures -/

/-- Whether all failures of an action are of some kind. -/
def FailsOnly (P : ε → Prop) (x : EStateM ε σ α) : Prop := ∀ s e t, x s = .error e t → P e

namespace FailsOnly

variable {P : ε → Prop}

theorem pure (a : α) : FailsOnly P (Pure.pure a : EStateM ε σ α) := fun _ _ _ h => nomatch h

theorem throw {e : ε} (h : P e) : FailsOnly P (throw e : EStateM ε σ α) := by
  intro s e' t heq
  cases heq
  exact h

theorem bind {x : EStateM ε σ α} {f : α → EStateM ε σ β} (hx : FailsOnly P x)
    (hf : ∀ a, FailsOnly P (f a)) : FailsOnly P (x >>= f) := by
  intro s e t h
  rw [bind_apply] at h
  cases hres : x s with
  | ok a s' =>
    rw [hres] at h
    exact hf a s' e t h
  | error e' s' =>
    rw [hres] at h
    obtain ⟨rfl, rfl⟩ := EStateM.Result.error.inj h
    exact hx s e' s' hres

theorem get_bind {f : σ → EStateM ε σ β} (hf : ∀ s, FailsOnly P (f s)) :
    FailsOnly P (get >>= f) :=
  fun s e t h => hf s s e t h

end FailsOnly

end LedgerSandbox
