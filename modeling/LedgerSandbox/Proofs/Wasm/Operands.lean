import LedgerSandbox.Proofs.Except
import LedgerSandbox.Wasm.Typing
import Mathlib.Data.List.Induction

/-!
# Operands that are there

Code that is reached is checked against operands of known types, and these are the types of the
values that are there when it runs (`Operands.ofValues`). What the checks take from such operands
and put on them is what the machine has to find there and leave there.

Values are listed the topmost first, as the machine keeps them; types are listed the last on top,
as they are declared (`Stacked`).
-/

namespace LedgerSandbox.Wasm

theorem Value.type_default (t : ValType) : (default t).type = t := by
  cases t <;> rfl

/-- Whether operands are of the given types. -/
def Stacked (types : List ValType) (values : List Value) : Prop :=
  values.map Value.type = types.reverse

namespace Stacked

variable {types : List ValType} {type : ValType} {value : Value} {vs : List Value}

theorem length_eq (h : Stacked types vs) : vs.length = types.length := by
  rw [← List.length_map (f := Value.type), h, List.length_reverse]

theorem nil : Stacked [] [] := rfl

theorem one (h : value.type = type) : Stacked [type] [value] := by
  rw [Stacked, List.map_singleton, h]
  rfl

end Stacked

theorem stacked_nil_iff {vs : List Value} : Stacked [] vs ↔ vs = [] := List.map_eq_nil_iff

theorem stacked_concat_iff (types : List ValType) {type : ValType} {vs : List Value} :
    Stacked (types ++ [type]) vs ↔ ∃ v ws, vs = v :: ws ∧ v.type = type ∧ Stacked types ws := by
  rw [Stacked, List.reverse_concat, List.map_eq_cons_iff]
  rfl

theorem itemAt_eq_ok_iff {α : Type} {items : Array α} {index : Nat} {item : α} :
    itemAt items index = .ok item ↔ items[index]? = some item := by
  unfold itemAt
  cases items[index]? with
  | none => exact iff_of_false nofun nofun
  | some found => exact ⟨fun h => congrArg some (Except.ok.inj h), fun h => by cases h; rfl⟩

namespace Operands

/-- Operands that are there. -/
def ofValues (values : List Value) : Operands := ⟨values.map fun v => some v.type, false⟩

variable {types params results : List ValType} {type : ValType} {vs ws : List Value}
  {ops : Operands}

/-- The operands of given types are those of any values of these types. -/
theorem ofTypes_eq (h : Stacked types vs) : ofTypes types = ofValues vs := by
  unfold ofTypes ofValues
  rw [← List.map_reverse, ← h, List.map_map]
  rfl

/-! ## Taking -/

theorem popAny_eq_ok_iff {found : Option ValType} :
    (ofValues vs).popAny = .ok (found, ops) ↔
      ∃ v ws, vs = v :: ws ∧ found = some v.type ∧ ops = ofValues ws := by
  cases vs with
  | nil =>
    constructor
    · intro h
      cases h
    · rintro ⟨_, _, heq, -⟩
      cases heq
  | cons v ws =>
    constructor
    · intro h
      cases h
      exact ⟨v, ws, rfl, rfl, rfl⟩
    · rintro ⟨_, _, heq, rfl, rfl⟩
      cases heq
      rfl

theorem pop_eq_ok_iff :
    (ofValues vs).pop type = .ok ops ↔
      ∃ v ws, vs = v :: ws ∧ v.type = type ∧ ops = ofValues ws := by
  cases vs with
  | nil =>
    constructor
    · intro h
      cases h
    · rintro ⟨_, _, heq, -⟩
      cases heq
  | cons v ws =>
    show (if some v.type = none ∨ some v.type = some type then Except.ok (ofValues ws)
      else .error Fault.typeMismatch) = .ok ops ↔ _
    constructor
    · intro h
      split at h
      case isTrue htype =>
        cases h
        exact ⟨v, ws, rfl, Option.some.inj (htype.resolve_left nofun), rfl⟩
      case isFalse => cases h
    · rintro ⟨_, _, heq, rfl, rfl⟩
      cases heq
      exact if_pos (.inr rfl)

theorem popMany_concat (types : List ValType) (type : ValType) (ops : Operands) :
    ops.popMany (types ++ [type]) = ops.pop type >>= fun rest => rest.popMany types := by
  unfold popMany
  rw [List.reverse_concat, List.foldlM_cons]

theorem popMany_eq_ok_iff :
    (ofValues vs).popMany types = .ok ops ↔
      ∃ taken rest, vs = taken ++ rest ∧ Stacked types taken ∧ ops = ofValues rest := by
  induction types using List.reverseRecOn generalizing vs with
  | nil =>
    constructor
    · intro h
      cases h
      exact ⟨[], vs, rfl, .nil, rfl⟩
    · rintro ⟨_, rest, rfl, htaken, rfl⟩
      rw [stacked_nil_iff.mp htaken]
      rfl
  | append_singleton types type ih =>
    rw [popMany_concat, Except.bind_eq_ok_iff]
    constructor
    · rintro ⟨_, hpop, h⟩
      obtain ⟨v, ws, rfl, htype, rfl⟩ := pop_eq_ok_iff.mp hpop
      obtain ⟨taken, rest, rfl, htaken, rfl⟩ := ih.mp h
      have hstacked := (stacked_concat_iff types).mpr ⟨v, taken, rfl, htype, htaken⟩
      exact ⟨v :: taken, rest, rfl, hstacked, rfl⟩
    · rintro ⟨_, rest, rfl, htaken, rfl⟩
      obtain ⟨v, taken, rfl, htype, htaken⟩ := (stacked_concat_iff types).mp htaken
      exact ⟨ofValues (taken ++ rest), pop_eq_ok_iff.mpr ⟨v, taken ++ rest, rfl, htype, rfl⟩,
        ih.mpr ⟨taken, rest, rfl, htaken, rfl⟩⟩

/-- Nothing but the operands of these types is there at the end of a block. -/
theorem finish_eq_ok_iff : (ofValues vs).finish results = .ok () ↔ Stacked results vs := by
  unfold finish
  rw [Except.bind_eq_ok_iff]
  constructor
  · rintro ⟨_, hpop, h⟩
    obtain ⟨taken, rest, rfl, htaken, rfl⟩ := popMany_eq_ok_iff.mp hpop
    cases rest with
    | nil => rwa [List.append_nil]
    | cons v rest => cases h
  · intro h
    exact ⟨ofValues [], popMany_eq_ok_iff.mpr ⟨vs, [], (List.append_nil vs).symm, h, rfl⟩, rfl⟩

/-! ## Putting -/

theorem push_ofValues (v : Value) (vs : List Value) :
    (ofValues vs).push (some v.type) = ofValues (v :: vs) := rfl

theorem pushMany_ofValues (h : Stacked types ws) :
    (ofValues vs).pushMany types = ofValues (ws ++ vs) := by
  induction types using List.reverseRecOn generalizing ws with
  | nil =>
    rw [stacked_nil_iff.mp h]
    rfl
  | append_singleton types type ih =>
    obtain ⟨v, ws, rfl, rfl, hws⟩ := (stacked_concat_iff types).mp h
    have hrest := ih hws
    unfold pushMany at hrest ⊢
    rw [List.foldl_append, hrest]
    rfl

/-! ## Taking and putting -/

/-- An instruction that takes operands and gives others takes those that are there. -/
theorem apply_eq_ok_iff :
    (ofValues vs).apply params results = .ok ops ↔
      ∃ taken rest, vs = taken ++ rest ∧ Stacked params taken ∧
        (ofValues rest).pushMany results = ops := by
  unfold apply
  rw [Except.bind_eq_ok_iff]
  constructor
  · rintro ⟨_, hpop, h⟩
    obtain ⟨taken, rest, hvs, htaken, rfl⟩ := popMany_eq_ok_iff.mp hpop
    exact ⟨taken, rest, hvs, htaken, Except.ok.inj h⟩
  · rintro ⟨taken, rest, hvs, htaken, rfl⟩
    exact ⟨_, popMany_eq_ok_iff.mpr ⟨taken, rest, hvs, htaken, rfl⟩, rfl⟩

theorem apply_none (h : (ofValues vs).apply [] results = .ok ops) :
    (ofValues vs).pushMany results = ops := by
  obtain ⟨taken, rest, rfl, htaken, hops⟩ := apply_eq_ok_iff.mp h
  rwa [stacked_nil_iff.mp htaken]

theorem apply_one {t : ValType} (h : (ofValues vs).apply [t] results = .ok ops) :
    ∃ v rest, vs = v :: rest ∧ v.type = t ∧ (ofValues rest).pushMany results = ops := by
  obtain ⟨taken, rest, rfl, htaken, hops⟩ := apply_eq_ok_iff.mp h
  obtain ⟨v, taken, rfl, htype, htaken⟩ := (stacked_concat_iff []).mp htaken
  rw [stacked_nil_iff.mp htaken]
  exact ⟨v, rest, rfl, htype, hops⟩

/-- The last of the types is that of the topmost operand. -/
theorem apply_two {t u : ValType} (h : (ofValues vs).apply [t, u] results = .ok ops) :
    ∃ v w rest, vs = w :: v :: rest ∧ v.type = t ∧ w.type = u ∧
      (ofValues rest).pushMany results = ops := by
  obtain ⟨taken, rest, rfl, htaken, hops⟩ := apply_eq_ok_iff.mp h
  obtain ⟨w, taken, rfl, hw, htaken⟩ := (stacked_concat_iff [t]).mp htaken
  obtain ⟨v, taken, rfl, hv, htaken⟩ := (stacked_concat_iff []).mp htaken
  rw [stacked_nil_iff.mp htaken]
  exact ⟨v, w, rest, rfl, hv, hw, hops⟩

theorem apply_three {t u s : ValType} (h : (ofValues vs).apply [t, u, s] results = .ok ops) :
    ∃ v w x rest, vs = x :: w :: v :: rest ∧ v.type = t ∧ w.type = u ∧ x.type = s ∧
      (ofValues rest).pushMany results = ops := by
  obtain ⟨taken, rest, rfl, htaken, hops⟩ := apply_eq_ok_iff.mp h
  obtain ⟨x, taken, rfl, hx, htaken⟩ := (stacked_concat_iff [t, u]).mp htaken
  obtain ⟨w, taken, rfl, hw, htaken⟩ := (stacked_concat_iff [t]).mp htaken
  obtain ⟨v, taken, rfl, hv, htaken⟩ := (stacked_concat_iff []).mp htaken
  rw [stacked_nil_iff.mp htaken]
  exact ⟨v, w, x, rest, rfl, hv, hw, hx, hops⟩

/-- Whatever is put on no operands is all that is there. -/
theorem finish_pushMany (results : List ValType) :
    ((ofValues []).pushMany results).finish results = .ok () := by
  have hdefaults : Stacked results (results.reverse.map Value.default) := by
    rw [Stacked, List.map_map]
    exact (List.map_congr_left fun t _ => Value.type_default t).trans (List.map_id _)
  rw [pushMany_ofValues hdefaults, List.append_nil]
  exact finish_eq_ok_iff.mpr hdefaults

end Operands

end LedgerSandbox.Wasm
