import LedgerSandbox.Ledger.Faulty
import LedgerSandbox.Ledger.Memory
import LedgerSandbox.Proofs.Ledger.View
import LedgerSandbox.Proofs.SortedMap

/-!
# Dependable ledgers

The ledger in memory is dependable (`MemoryLedger.view`), and a dependable ledger stays one
when faults are added to it (`Faulty.view`): a fault refuses an operation, but it does not
change what the ledger holds. Scans change it no more than other reads do.
-/

namespace LedgerSandbox

/-! ## The ledger in memory -/

namespace MemoryLedger

theorem get_apply (key : Key) (s : MemoryLedger) :
    Ledger.get key s =
      if key = [] then .error (.invalidKey "empty key") s else .ok (s.contents.get? key) s := by
  by_cases hkey : key = []
  · simp [Ledger.get, checkKey, hkey]
  · simp [Ledger.get, checkKey, hkey]

theorem write_apply (key : Key) (change : Option Value) (s : MemoryLedger) :
    Ledger.write key change s =
      if key = [] then .error (.invalidKey "empty key") s
      else .ok () ⟨Overlay.applyChange s.contents key change⟩ := by
  by_cases hkey : key = []
  · cases change <;> simp [Ledger.write, Ledger.put, Ledger.delete, checkKey, hkey]
  · cases change <;>
      simp [Ledger.write, Ledger.put, Ledger.delete, checkKey, hkey, Overlay.applyChange]

end MemoryLedger

theorem Overlay.get?_applyChange (m : SortedMap Value) (key : Key) (change : Option Value) :
    (applyChange m key change).get? = Function.update m.get? key change := by
  funext key'
  cases change with
  | some value => rw [applyChange, SortedMap.get?_insert, Function.update_apply]
  | none => rw [applyChange, SortedMap.get?_erase, Function.update_apply]

/-- The contents of a ledger in memory. -/
def MemoryLedger.view : View MemoryLedger where
  contents s := s.contents.get?
  get_ok {key s found t} h := by
    rw [MemoryLedger.get_apply] at h
    split at h
    · cases h
    · cases h
      rfl
  contents_get key s := by
    rw [MemoryLedger.get_apply]
    split
    · rfl
    · rfl
  write_ok {key change s t} h := by
    rw [MemoryLedger.write_apply] at h
    split at h
    · cases h
    · cases h
      exact Overlay.get?_applyChange s.contents key change
  write_error {key change s e t} h := by
    rw [MemoryLedger.write_apply] at h
    split at h
    · cases h
      rfl
    · cases h

theorem MemoryLedger.keepsInScans : MemoryLedger.view.KeepsInScans := fun _ _ _ => rfl

/-! ## Faults -/

namespace Faulty

variable {σ : Type}

theorem onInner_ok {α : Type} {x : EStateM LedgerError σ α} {s t : Faulty σ} {a : α}
    (h : onInner x s = .ok a t) : x s.inner = .ok a t.inner := by
  unfold onInner at h
  cases hx : x s.inner with
  | ok b inner =>
    rw [hx] at h
    cases h
    rfl
  | error e inner =>
    rw [hx] at h
    cases h

theorem onInner_error {α : Type} {x : EStateM LedgerError σ α} {s t : Faulty σ} {e : LedgerError}
    (h : onInner x s = .error e t) : x s.inner = .error e t.inner := by
  unfold onInner at h
  cases hx : x s.inner with
  | ok b inner =>
    rw [hx] at h
    cases h
  | error e inner =>
    rw [hx] at h
    cases h
    rfl

/-- Using up a write fails without an effect, or brings the plan up to date. -/
theorem spendWrite_cases (s : Faulty σ) :
    (∃ e, spendWrite s = .error e s) ∨ ∃ plan, spendWrite s = .ok () ⟨s.inner, plan⟩ := by
  obtain ⟨inner, plan⟩ := s
  unfold spendWrite
  cases hleft : plan.writesLeft with
  | none => exact .inr ⟨plan, by simp [hleft]⟩
  | some n =>
    cases n with
    | zero => exact .inl ⟨_, by simp [hleft]; rfl⟩
    | succ n => exact .inr ⟨_, by simp [hleft]; rfl⟩

variable [Ledger σ]

theorem get_apply (key : Key) (s : Faulty σ) :
    Ledger.get key s =
      if hits s.plan.failGet key then .error (.backend "injected get failure") s
      else onInner (Ledger.get key) s := by
  by_cases hhits : hits s.plan.failGet key = true
  · simp [Ledger.get, hhits]
  · simp [Ledger.get, hhits]

/-- A write is refused at once, or it is passed on and the plan is brought up to date. -/
theorem write_cases (key : Key) (change : Option Value) (s : Faulty σ) :
    (∃ e, Ledger.write key change s = .error e s) ∨
      ∃ plan, Ledger.write key change s = onInner (Ledger.write key change) ⟨s.inner, plan⟩ := by
  -- Puts and deletes differ in the fault that may strike them before they use up a write.
  have hspend : ∀ (fail : Option Key) (message : String) (x : EStateM LedgerError σ Unit),
      let write : EStateM LedgerError (Faulty σ) Unit := do
        if hits fail key then throw (.backend message)
        spendWrite
        onInner x
      (∃ e, write s = .error e s) ∨ ∃ plan, write s = onInner x ⟨s.inner, plan⟩ := by
    intro fail message x
    by_cases hhits : hits fail key = true
    · exact .inl ⟨.backend message, by simp [hhits]⟩
    · rcases spendWrite_cases s with ⟨e, he⟩ | ⟨plan, hplan⟩
      · exact .inl ⟨e, by simp [hhits, he]⟩
      · exact .inr ⟨plan, by simp [hhits, hplan]⟩
  cases change with
  | some value => exact hspend s.plan.failPut "injected put failure" (Ledger.put key value)
  | none => exact hspend s.plan.failDelete "injected delete failure" (Ledger.delete key)

/-- Faults do not change what a ledger holds. -/
def view (V : View σ) : View (Faulty σ) where
  contents s := V.contents s.inner
  get_ok {key s found t} h := by
    rw [get_apply] at h
    split at h
    · cases h
    · exact V.get_ok (onInner_ok h)
  contents_get key s := by
    rw [get_apply]
    split
    · rfl
    · have hkeep := V.contents_get key s.inner
      cases hres : onInner (Ledger.get key) s with
      | ok found t => rwa [onInner_ok hres] at hkeep
      | error e t => rwa [onInner_error hres] at hkeep
  write_ok {key change s t} h := by
    rcases write_cases key change s with ⟨e, he⟩ | ⟨plan, hplan⟩
    · rw [he] at h
      cases h
    · rw [hplan] at h
      exact V.write_ok (onInner_ok (s := ⟨s.inner, plan⟩) h)
  write_error {key change s e t} h := by
    rcases write_cases key change s with ⟨e, he⟩ | ⟨plan, hplan⟩
    · rw [he] at h
      cases h
      rfl
    · rw [hplan] at h
      exact V.write_error (onInner_error (s := ⟨s.inner, plan⟩) h)

theorem keepsInScans {V : View σ} (h : V.KeepsInScans) : (view V).KeepsInScans := by
  intro start stop s
  have hkeep := h start stop s.inner
  show V.contents (finalState (Ledger.range start stop s)).inner = V.contents s.inner
  by_cases hfail : s.plan.failRange = true
  · simp [Ledger.range, hfail]
  · cases hinner : (Ledger.range start stop s.inner : EStateM.Result LedgerError σ Scan) with
    | error e inner =>
      rw [hinner] at hkeep
      simpa [Ledger.range, hfail, onInner, hinner] using hkeep
    | ok items inner =>
      rw [hinner] at hkeep
      cases hafter : s.plan.failAfterEntries with
      | none => simpa [Ledger.range, hfail, onInner, hinner, hafter] using hkeep
      | some n => simpa [Ledger.range, hfail, onInner, hinner, hafter] using hkeep

end Faulty

end LedgerSandbox
