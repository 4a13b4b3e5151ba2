import LedgerSandbox.Host.GuestMemory
import Mathlib.Algebra.Group.Nat.Defs

/-!
# Ranges of guest memory

The check of a range computes with 64-bit words. It is exact all the same: a range is accepted
iff its end, as an unbounded number, lies within the memory (`validateRange_eq_ok_iff`). So no
sum that wraps around makes a range acceptable.

What is written at an accepted range is not longer than the memory, and so its length can be
handed to the guest as a number that is not negative (`code_nonneg_of_checkWrite`).
-/

namespace LedgerSandbox.GuestMemory

/-- A checked sum is the sum, and there is one iff the sum fits a word. -/
theorem checkedAdd_eq_some_iff {a b sum : UInt64} :
    checkedAdd a b = some sum ↔ sum.toNat = a.toNat + b.toNat := by
  have ha := a.toNat_lt
  have hb := b.toNat_lt
  have hsum := sum.toNat_lt
  have hadd := UInt64.toNat_add a b
  unfold checkedAdd
  dsimp only
  split
  case isTrue hlt =>
    rw [UInt64.lt_iff_toNat_lt] at hlt
    simp only [reduceCtorEq, false_iff]
    omega
  case isFalse hlt =>
    rw [UInt64.lt_iff_toNat_lt] at hlt
    rw [Option.some.injEq, ← UInt64.toNat_inj]
    omega

/-- **The check of a range is exact.** -/
theorem validateRange_eq_ok_iff {size : UInt64} {address : UInt32} {length stop : UInt64} :
    validateRange size address length = .ok stop ↔
      stop.toNat = address.toNat + length.toNat ∧ stop.toNat ≤ size.toNat := by
  unfold validateRange
  cases hsum : checkedAdd address.toUInt64 length with
  | none =>
    simp only [reduceCtorEq, false_iff, throw, throwThe, MonadExceptOf.throw]
    rintro ⟨hstop, -⟩
    rw [checkedAdd_eq_some_iff.mpr (by rw [hstop, UInt32.toNat_toUInt64])] at hsum
    cases hsum
  | some sum =>
    have hexact := checkedAdd_eq_some_iff.mp hsum
    rw [UInt32.toNat_toUInt64] at hexact
    dsimp only
    by_cases hsize : size < sum
    · rw [if_pos hsize]
      rw [UInt64.lt_iff_toNat_lt] at hsize
      simp only [reduceCtorEq, false_iff, throw, throwThe, MonadExceptOf.throw]
      omega
    · rw [if_neg hsize]
      rw [UInt64.lt_iff_toNat_lt] at hsize
      simp only [pure, Except.pure, Except.ok.injEq]
      rw [← UInt64.toNat_inj]
      omega

/-- The size as a word is never more than the size. -/
theorem toNat_size_le (memory : ByteArray) : (size memory).toNat ≤ memory.size := by
  rw [size, UInt64.toNat_ofNat']
  exact Nat.mod_le _ _

theorem toNat_size {memory : ByteArray} (h : memory.size < 2 ^ 64) :
    (size memory).toNat = memory.size := by
  rw [size, UInt64.toNat_ofNat', Nat.mod_eq_of_lt h]

/-- Data can be written where its length, as a word, leaves it within the memory. -/
theorem checkWrite_eq_ok_iff {memory : ByteArray} {address : UInt32} {data : Bytes} :
    checkWrite memory address data = .ok () ↔
      address.toNat + data.length % 2 ^ 64 ≤ (size memory).toNat := by
  have hlength : (UInt64.ofNat data.length).toNat = data.length % 2 ^ 64 := UInt64.toNat_ofNat'
  rw [← hlength]
  unfold checkWrite
  cases hrange : validateRange (size memory) address (UInt64.ofNat data.length) with
  | ok stop =>
    obtain ⟨hstop, hbound⟩ := validateRange_eq_ok_iff.mp hrange
    exact iff_of_true rfl (hstop ▸ hbound)
  | error e =>
    refine iff_of_false (fun h => nomatch h) fun hbound => ?_
    have hword : address.toNat + (UInt64.ofNat data.length).toNat < 2 ^ 64 :=
      Nat.lt_of_le_of_lt hbound (size memory).toNat_lt
    have hsum := UInt64.toNat_ofNat_of_lt' hword
    rw [validateRange_eq_ok_iff.mpr ⟨hsum, Nat.le_trans (Nat.le_of_eq hsum) hbound⟩] at hrange
    cases hrange

/-- A length is not negative as a return code iff the topmost of its 64 bits is not set. -/
theorem code_nonneg_iff {n : Nat} : 0 ≤ Int64.ofNat n ↔ n % 2 ^ 64 < 2 ^ 63 := by
  have hwords : (Int64.size : Int) = 2 ^ 64 := rfl
  rw [Int64.le_iff_toInt_le, Int64.toInt_ofNat', Int64.toInt_zero, Int.bmod_def, hwords]
  split
  case isTrue hhalf => omega
  case isFalse hhalf => omega

/-- The length of data that can be written is not negative as a return code. -/
theorem code_nonneg_of_checkWrite {memory : ByteArray} {address : UInt32} {data : Bytes}
    (hsize : memory.size < 2 ^ 63) (h : checkWrite memory address data = .ok ()) :
    0 ≤ Int64.ofNat data.length := by
  -- Only the length modulo 2 ^ 64 is checked, but that is all that the code tells of it.
  have hbound := checkWrite_eq_ok_iff.mp h
  have hmemory := toNat_size_le memory
  rw [code_nonneg_iff]
  omega

/-- A code that is not negative is the length. -/
theorem toInt_code {n : Nat} (hlength : n < 2 ^ 64) (hcode : 0 ≤ Int64.ofNat n) :
    (Int64.ofNat n).toInt = n := by
  rw [code_nonneg_iff, Nat.mod_eq_of_lt hlength] at hcode
  exact Int64.toInt_ofNat_of_lt hcode

end LedgerSandbox.GuestMemory
