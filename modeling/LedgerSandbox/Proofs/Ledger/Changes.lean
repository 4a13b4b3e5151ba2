import LedgerSandbox.Ledger.Layers
import LedgerSandbox.Proofs.Simulation.Action

/-!
# Changes handed to a ledger

A change puts a value under a key or deletes the key (`Ledger.write`), and a commit is
the writes of a list of changes, one after the other, up to the first refusal
(`Layers.applyAll`).
-/

namespace LedgerSandbox

/-- A key together with its new value, or with `none` if it is to be deleted. -/
abbrev Change := Key × Option Value

variable {σ : Type} [Ledger σ]

/-- Hands one change to a ledger. -/
def Ledger.write (key : Key) : Option Value → EStateM LedgerError σ Unit
  | some value => Ledger.put key value
  | none => Ledger.delete key

namespace Layers

theorem get_apply (key : Key) (l : Layers σ) :
    Ledger.get key l =
      match Overlay.find? key l.overlays with
      | some found => .ok found l
      | none => onBase (Ledger.get key) l := rfl

/-- Without overlays, a change goes to the ledger at the bottom. -/
theorem write_onBase (key : Key) (change : Option Value) (base : σ) :
    Ledger.write key change (⟨base, []⟩ : Layers σ) = onBase (Ledger.write key change) ⟨base, []⟩ := by
  cases change with
  | some value => rfl
  | none => rfl

@[simp] theorem applyAll_nil : applyAll [] = (pure () : EStateM LedgerError σ Unit) := rfl

theorem applyAll_cons (c : Change) (rest : List Change) :
    applyAll (c :: rest) =
      (Ledger.write c.1 c.2 >>= fun _ => applyAll rest : EStateM LedgerError σ Unit) := by
  obtain ⟨key, change⟩ := c
  cases change with
  | some value => rfl
  | none => rfl

theorem applyAll_singleton (c : Change) :
    applyAll [c] = (Ledger.write c.1 c.2 : EStateM LedgerError σ Unit) := by
  rw [applyAll_cons, applyAll_nil, bind_pure_unit]

theorem applyAll_append (changes more : List Change) :
    applyAll (changes ++ more) =
      (applyAll changes >>= fun _ => applyAll more : EStateM LedgerError σ Unit) := by
  induction changes with
  | nil => rfl
  | cons c rest ih => rw [List.cons_append, applyAll_cons, applyAll_cons, ih, bind_assoc]

end Layers

end LedgerSandbox
