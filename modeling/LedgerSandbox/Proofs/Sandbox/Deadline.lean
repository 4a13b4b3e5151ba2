import LedgerSandbox.Ledger.Memory
import LedgerSandbox.Proofs.Simulation.Action
import LedgerSandbox.Sandbox
import Mathlib.Algebra.Group.Nat.Defs

/-!
# Deadlines in ticks

Time is looked at once in a tick, and so a deadline is counted in ticks: as many as last at
least as long as the deadline, but not more than needed, and at least one (`SpansTicks`). There is
exactly one such number for every deadline and every tick (`spansTicks_ceil`,
`SpansTicks.le_iff`).

The number is kept in 64 bits, and what they cannot hold is dropped. So the ticks that are kept
span the deadline iff it lasts no longer than `2 ^ 64 - 1` ticks (`Config.deadlineTicks_exact`).
A longer deadline is taken for a shorter one, and it can be taken for no time at all
(`Config.deadlineTicks_dropped`); then no run completes (`Run.execute_alwaysFails`).
-/

namespace LedgerSandbox

/-! ## Spanning ticks -/

/-- Whether a number of ticks, each of the given length, spans a deadline: the ticks last at least
as long, there is at least one, and with one less they would be too short. -/
structure SpansTicks (tick deadline ticks : Nat) : Prop where
  pos : 1 ≤ ticks
  covers : deadline ≤ ticks * tick
  least : ticks = 1 ∨ (ticks - 1) * tick < deadline

/-- Rounding up gives ticks that span the deadline. -/
theorem spansTicks_ceil {tick : Nat} (htick : 0 < tick) (deadline : Nat) :
    SpansTicks tick deadline (max ((deadline + tick - 1) / tick) 1) := by
  have hbelow := Nat.div_mul_le_self (deadline + tick - 1) tick
  have habove := Nat.lt_mul_div_succ (deadline + tick - 1) htick
  generalize (deadline + tick - 1) / tick = ticks at hbelow habove
  rw [Nat.mul_comm tick, Nat.add_mul, Nat.one_mul] at habove
  match ticks with
  | 0 =>
    rw [Nat.zero_mul] at habove
    exact ⟨Nat.le_refl 1, by omega, .inl rfl⟩
  | ticks + 1 =>
    rw [Nat.add_mul, Nat.one_mul] at hbelow habove
    rw [Nat.max_eq_left (Nat.le_add_left 1 ticks)]
    refine ⟨Nat.le_add_left 1 ticks, by rw [Nat.add_mul]; omega, ?_⟩
    rw [Nat.add_sub_cancel]
    match ticks with
    | 0 => exact .inl rfl
    | ticks + 1 =>
      rw [Nat.add_mul] at hbelow ⊢
      exact .inr (by omega)

namespace SpansTicks

variable {tick deadline ticks : Nat}

/-- Ticks that span a deadline are as few as can cover it. -/
theorem le_iff (h : SpansTicks tick deadline ticks) {n : Nat} (hn : 1 ≤ n) :
    ticks ≤ n ↔ deadline ≤ n * tick := by
  constructor
  · intro hle
    exact Nat.le_trans h.covers (Nat.mul_le_mul_right tick hle)
  · intro hcovers
    refine Nat.le_of_not_lt fun hmore => ?_
    have hshort : n * tick ≤ (ticks - 1) * tick := Nat.mul_le_mul_right tick (by omega)
    rcases h.least with hone | hlonger
    · omega
    · omega

theorem unique (h : SpansTicks tick deadline ticks) {n : Nat} (hn : SpansTicks tick deadline n) :
    n = ticks :=
  Nat.le_antisymm ((hn.le_iff h.pos).mpr h.covers) ((h.le_iff hn.pos).mpr hn.covers)

end SpansTicks

/-! ## The ticks that are kept -/

/-- What the ticks that are kept for a deadline tell of it. -/
structure KeepsTicks (tick deadline : Nat) (ticks : UInt64) : Prop where
  /-- They are the only number of ticks that spans the deadline, up to what 64 bits cannot hold. -/
  kept : ∃ n, SpansTicks tick deadline n ∧ (∀ n', SpansTicks tick deadline n' → n' = n) ∧
    ticks.toNat = n % 2 ^ 64
  spans_iff : SpansTicks tick deadline ticks.toNat ↔ deadline ≤ (2 ^ 64 - 1) * tick

namespace Config

theorem tickNanos_pos (config : Config) : 0 < config.tickNanos := Nat.le_max_right _ 1

/-- **Deadlines are rounded up to whole ticks, as far as 64 bits go.** This holds for every
deadline and for ticks of any length. -/
theorem deadlineTicks_exact (config : Config) (deadline : Duration) :
    ∃ ticks, { config with deadline := some deadline }.deadlineTicks = some ticks ∧
      KeepsTicks config.tickNanos deadline.toNanos ticks := by
  have hspans := spansTicks_ceil config.tickNanos_pos deadline.toNanos
  refine ⟨_, rfl, ?_⟩
  generalize hn : max ((deadline.toNanos + config.tickNanos - 1) / config.tickNanos) 1 = n at hspans
  show KeepsTicks config.tickNanos deadline.toNanos (UInt64.ofNat
    (max ((deadline.toNanos + config.tickNanos - 1) / config.tickNanos) 1))
  rw [hn]
  refine ⟨⟨n, hspans, fun n' hn' => hspans.unique hn', UInt64.toNat_ofNat'⟩, ?_⟩
  rw [← hspans.le_iff (by decide), UInt64.toNat_ofNat']
  constructor
  · intro hkept
    have hwhole := hspans.unique hkept
    omega
  · intro hfits
    rwa [Nat.mod_eq_of_lt (by omega)]

end Config

/-! ## No ticks at all -/

/-- Without a tick there are no steps. -/
theorem Config.allowance_of_no_ticks {config : Config} (h : config.deadlineTicks = some 0) :
    config.allowance.steps = 0 := by
  unfold allowance
  rw [h]
  dsimp only
  split
  case isTrue hfuel => simpa using hfuel
  case isFalse => simp

/-- Whether an action fails in every state. -/
def AlwaysFails {ε σ α : Type} (x : EStateM ε σ α) : Prop := ∀ s, ∃ e t, x s = .error e t

namespace AlwaysFails

variable {ε σ α β : Type}

theorem throw (e : ε) : AlwaysFails (throw e : EStateM ε σ α) := fun s => ⟨e, s, rfl⟩

theorem bind {x : EStateM ε σ α} (h : AlwaysFails x) (f : α → EStateM ε σ β) :
    AlwaysFails (x >>= f) := by
  intro s
  obtain ⟨e, t, heq⟩ := h s
  exact ⟨e, t, by rw [bind_apply, heq]⟩

theorem get_bind {f : σ → EStateM ε σ β} (h : ∀ s, AlwaysFails (f s)) :
    AlwaysFails (get >>= f) :=
  fun s => h s s

end AlwaysFails

namespace Run

variable {σ : Type} [Ledger σ]

/-- A function of which no step may be taken does not return. -/
theorem callFunction_alwaysFails (setup : Setup) (store : Wasm.Store) (index : Nat)
    (args : List Wasm.Value) :
    AlwaysFails (callFunction setup store 0 index args : EStateM Failure (HostState σ) _) :=
  fun _ => ⟨_, _, rfl⟩

theorem callEntry_alwaysFails (setup : Setup) (store : Wasm.Store) (entry : String) :
    AlwaysFails (callEntry setup store 0 entry : EStateM Failure (HostState σ) _) := by
  unfold callEntry
  split
  case h_1 index _ =>
    cases setup.module.allFunctions[index]? with
    | none => exact .throw _
    | some type =>
      refine .get_bind fun h => ?_
      cases entryArgs type h.invocation.args.length with
      | none => exact .throw _
      | some args =>
        dsimp only
        cases isEntryResult type.results with
        | false => exact (AlwaysFails.throw _).bind _
        | true => exact (callFunction_alwaysFails _ _ _ _).bind _
  case h_2 => exact .throw _

/-- If no ticks are kept, then no entry function of any module returns. -/
theorem execute_alwaysFails {config : Config} (hticks : config.deadlineTicks = some 0)
    (m : Wasm.Module) (entry : String) :
    AlwaysFails (execute config m entry : EStateM Failure (HostState σ) _) := by
  have hsteps := config.allowance_of_no_ticks hticks
  unfold execute
  split
  case h_1 => exact .throw _
  case h_2 =>
    split
    case h_1 => exact .throw _
    case h_2 => exact .throw _
    case h_3 store _ =>
      unfold callStart
      dsimp only
      rw [hsteps]
      cases m.start with
      | none => exact callEntry_alwaysFails _ store entry
      | some index => exact ((callFunction_alwaysFails _ store index []).bind _).bind _

end Run

namespace Config

/-- A deadline of `2 ^ 64` nanoseconds, which is some 585 years, in ticks of one nanosecond. -/
def farDeadline : Duration := ⟨18446744073, 709551616, by decide⟩

/-- A configuration with that deadline. -/
def patient : Config := { deadline := some farDeadline, tick := ⟨0, 1, by decide⟩ }

/-- No ticks are kept of that deadline, though it is spanned by `2 ^ 64` of them, and no run
completes before it. -/
theorem deadlineTicks_dropped :
    patient.deadline = some farDeadline ∧ patient.deadlineTicks = some 0 ∧
      SpansTicks patient.tickNanos farDeadline.toNanos (2 ^ 64) ∧
      ¬ SpansTicks patient.tickNanos farDeadline.toNanos (0 : UInt64).toNat ∧
      ∀ (m : Wasm.Module) (entry : String),
        AlwaysFails (Run.execute patient m entry : EStateM Failure (HostState MemoryLedger) _) := by
  have hticks : patient.deadlineTicks = some 0 := by decide
  have hspans : SpansTicks patient.tickNanos farDeadline.toNanos (2 ^ 64) :=
    ⟨by decide, by decide, .inr (by decide)⟩
  refine ⟨rfl, hticks, hspans, fun h => absurd h.pos (by decide), ?_⟩
  exact Run.execute_alwaysFails hticks

end Config

end LedgerSandbox
