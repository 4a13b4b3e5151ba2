import LedgerSandbox.Host.Call
import LedgerSandbox.Proofs.Host.Memory

/-!
# Copies to and from guest memory

Everything that the host and a guest pass each other is copied out of the guest's memory or
into it. A copy is made just if its range lies within the memory, taken as unbounded numbers
(`GuestMemory.exists_read_eq_ok_iff`, `GuestMemory.write_eq_ok_iff`). It then takes all of the
range and no more, so nothing is cut short at the end of the memory.

From this the laws of copies follow for all ranges, be they empty, at the very end of the memory
or across each other (`GuestMemory.copies_exact`): what was written is read back, ranges apart
from it are read as before, and to write back what was just read changes nothing.
-/

namespace LedgerSandbox.GuestMemory

variable {memory memory' : ByteArray} {address length : UInt32} {data bytes : Bytes}
  {e : HostError}

/-! ## The check of a range -/

/-- What the check of a range comes to, in unbounded numbers. -/
structure RangeChecked (size : UInt64) (address : UInt32) (length : UInt64) : Prop where
  accepted_iff : (∃ stop, validateRange size address length = .ok stop) ↔
    address.toNat + length.toNat ≤ size.toNat
  /-- The end is the sum, which has not wrapped around. -/
  stop_eq : ∀ stop, validateRange size address length = .ok stop →
    stop.toNat = address.toNat + length.toNat
  refused : ∀ e, validateRange size address length = .error e → e = .badPointer

theorem exists_validateRange_eq_ok_iff {size : UInt64} {address : UInt32} {length : UInt64} :
    (∃ stop, validateRange size address length = .ok stop) ↔
      address.toNat + length.toNat ≤ size.toNat := by
  constructor
  · rintro ⟨stop, hstop⟩
    obtain ⟨heq, hle⟩ := validateRange_eq_ok_iff.mp hstop
    exact heq ▸ hle
  · intro hle
    have hword : address.toNat + length.toNat < 2 ^ 64 := Nat.lt_of_le_of_lt hle size.toNat_lt
    have hsum := UInt64.toNat_ofNat_of_lt' hword
    exact ⟨_, validateRange_eq_ok_iff.mpr ⟨hsum, Nat.le_trans (Nat.le_of_eq hsum) hle⟩⟩

theorem validateRange_error {size : UInt64} {address : UInt32} {length : UInt64}
    (h : validateRange size address length = .error e) : e = .badPointer := by
  unfold validateRange at h
  cases hsum : checkedAdd address.toUInt64 length with
  | none =>
    rw [hsum] at h
    exact (Except.error.inj h).symm
  | some stop =>
    rw [hsum] at h
    dsimp only at h
    split at h
    · exact (Except.error.inj h).symm
    · cases h

theorem validateRange_eq_error_iff {size : UInt64} {address : UInt32} {length : UInt64} :
    validateRange size address length = .error e ↔
      e = .badPointer ∧ size.toNat < address.toNat + length.toNat := by
  rw [← Nat.not_le, ← exists_validateRange_eq_ok_iff]
  cases h : validateRange size address length with
  | ok stop => simp
  | error e' =>
    obtain rfl := validateRange_error h
    simp [eq_comm]

theorem rangeChecked (size : UInt64) (address : UInt32) (length : UInt64) :
    RangeChecked size address length where
  accepted_iff := exists_validateRange_eq_ok_iff
  stop_eq _ h := (validateRange_eq_ok_iff.mp h).1
  refused _ := validateRange_error

/-! ## Single copies -/

theorem read_eq_error_iff (hsize : memory.size < 2 ^ 64) :
    read memory address length = .error e ↔
      e = .badPointer ∧ memory.size < address.toNat + length.toNat := by
  have hrange : read memory address length = .error e ↔
      validateRange (size memory) address length.toUInt64 = .error e := by
    unfold read
    cases validateRange (size memory) address length.toUInt64 with
    | ok stop => exact iff_of_false (fun h => nomatch h) fun h => nomatch h
    | error e' =>
      exact ⟨fun h => congrArg Except.error (Except.error.inj h),
        fun h => congrArg Except.error (Except.error.inj h)⟩
  rw [hrange, validateRange_eq_error_iff, toNat_size hsize, UInt32.toNat_toUInt64]

theorem exists_read_eq_ok_iff (hsize : memory.size < 2 ^ 64) :
    (∃ bytes, read memory address length = .ok bytes) ↔
      address.toNat + length.toNat ≤ memory.size := by
  rw [← Nat.not_lt]
  cases h : read memory address length with
  | ok bytes =>
    refine iff_of_true ⟨bytes, rfl⟩ fun hlt => ?_
    rw [(read_eq_error_iff hsize).mpr ⟨rfl, hlt⟩] at h
    cases h
  | error e =>
    refine iff_of_false (fun ⟨_, hok⟩ => nomatch hok) ?_
    exact fun hnot => hnot ((read_eq_error_iff hsize).mp h).2

/-- Data is written where there is room for it. -/
theorem write_eq_ok_iff (hsize : memory.size < 2 ^ 64) (hdata : data.length < 2 ^ 64) :
    write memory address data = .ok memory' ↔
      address.toNat + data.length ≤ memory.size ∧ memory' = store memory address.toNat data := by
  rw [← checkWrite_eq_ok_iff_room hsize hdata]
  unfold write
  cases checkWrite memory address data with
  | ok _ =>
    refine ⟨fun h => ⟨rfl, (Except.ok.inj h).symm⟩, fun h => ?_⟩
    exact congrArg Except.ok h.2.symm
  | error e => exact iff_of_false (fun h => nomatch h) fun h => nomatch h.1

/-- A write of the host leaves a memory as it is that the data does not fit into. -/
theorem writeGuest_of_error {σ : Type} (h : write memory address data = .error e)
    (host : HostState σ) :
    Caller.writeGuest address data ⟨some memory, host⟩ = .error e ⟨some memory, host⟩ := by
  unfold write at h
  unfold Caller.writeGuest
  dsimp only
  cases hcheck : checkWrite memory address data with
  | ok _ =>
    rw [hcheck] at h
    cases h
  | error e' =>
    rw [hcheck] at h
    exact congrArg (EStateM.Result.error · _) (Except.error.inj h)

/-! ## Copies after a write -/

/-- Memories with the same bytes are the same memory. -/
theorem ext_byte? (h : ∀ i, byte? memory i = byte? memory' i) : memory = memory' := by
  have hbytes : Bytes.ofByteArray memory = Bytes.ofByteArray memory' := List.ext_getElem? h
  rw [← Bytes.toByteArray_ofByteArray memory, hbytes, Bytes.toByteArray_ofByteArray]

/-- Whether no byte of a range is in another one. -/
def Apart (start count start' count' : Nat) : Prop :=
  ∀ i, start ≤ i → i < start + count → i < start' ∨ start' + count' ≤ i

theorem Replaced.holds_of_apart {index index' : Nat} (h : Replaced memory index data memory')
    (hapart : Apart index' bytes.length index data.length) (hholds : Holds memory index' bytes) :
    Holds memory' index' bytes where
  room := h.size ▸ hholds.room
  bytes offset hoffset := by
    rw [← hholds.bytes offset hoffset]
    exact h.others _ (hapart _ (Nat.le_add_right _ _) (Nat.add_lt_add_left hoffset _))

/-- Reads of ranges apart from what is written come to the same as before. -/
theorem Replaced.read_eq {index : Nat} (h : Replaced memory index data memory')
    (hsize : memory.size < 2 ^ 64)
    (hapart : Apart address.toNat length.toNat index data.length) :
    read memory' address length = read memory address length := by
  have hsize' : memory'.size < 2 ^ 64 := h.size ▸ hsize
  cases hread : read memory address length with
  | ok bytes =>
    obtain ⟨hlength, hholds⟩ := holds_of_read hread
    exact (read_eq_ok_iff hsize').mpr ⟨hlength, h.holds_of_apart (hlength ▸ hapart) hholds⟩
  | error e =>
    rw [read_eq_error_iff hsize] at hread
    rwa [read_eq_error_iff hsize', h.size]

/-- What a memory holds already may be stored there again. -/
theorem store_eq_self {index : Nat} (h : Holds memory index bytes) :
    store memory index bytes = memory := by
  refine ext_byte? fun i => ?_
  by_cases hinside : index ≤ i ∧ i < index + bytes.length
  · obtain ⟨offset, rfl⟩ := Nat.exists_eq_add_of_le hinside.1
    have hoffset : offset < bytes.length := Nat.lt_of_add_lt_add_left hinside.2
    rw [byte?_store_of_inside h.room hoffset, h.bytes offset hoffset]
  · exact byte?_store_of_outside memory (by omega)

/-! ## The laws of copies -/

/-- What a memory is like once data has been written at an address. -/
structure Written (memory : ByteArray) (address : UInt32) (data : Bytes) (memory' : ByteArray) :
    Prop where
  size : memory'.size = memory.size
  /-- The data is there, also if it is too long to be read at once. -/
  holds : Holds memory' address.toNat data
  read_back : ∀ length : UInt32, length.toNat = data.length → read memory' address length = .ok data
  elsewhere : ∀ address' length : UInt32,
    Apart address'.toNat length.toNat address.toNat data.length →
    read memory' address' length = read memory address' length
  /-- What can be read is the same as before. -/
  readable : ∀ address' length, (∃ bytes, read memory' address' length = .ok bytes) ↔
    ∃ bytes, read memory address' length = .ok bytes

theorem written_store (hsize : memory.size < 2 ^ 64)
    (hroom : address.toNat + data.length ≤ memory.size) :
    Written memory address data (store memory address.toNat data) := by
  have hreplaced := replaced_store hroom
  have hsize' : (store memory address.toNat data).size < 2 ^ 64 := hreplaced.size ▸ hsize
  refine ⟨hreplaced.size, hreplaced.holds, fun length hlength => ?_, fun address' length hapart => ?_,
    fun address' length => ?_⟩
  · exact (read_eq_ok_iff hsize').mpr ⟨hlength.symm, hreplaced.holds⟩
  · exact hreplaced.read_eq hsize hapart
  · rw [exists_read_eq_ok_iff hsize', exists_read_eq_ok_iff hsize, hreplaced.size]

/-- The laws of copies for a memory. -/
structure CopiesExact (memory : ByteArray) : Prop where
  /-- An accepted range is a part of the memory, from its start up to its end, and is as long as
  the copy. -/
  slice : ∀ (address : UInt32) (length stop : UInt64),
    validateRange (size memory) address length = .ok stop →
    address.toNat ≤ stop.toNat ∧ stop.toNat ≤ memory.size ∧
      stop.toNat - address.toNat = length.toNat
  readable_iff : ∀ address length : UInt32, (∃ bytes, read memory address length = .ok bytes) ↔
    address.toNat + length.toNat ≤ memory.size
  read : ∀ address length bytes, read memory address length = .ok bytes →
    bytes.length = length.toNat ∧ Holds memory address.toNat bytes
  writable_iff : ∀ (address : UInt32) data, data.length < 2 ^ 64 →
    ((∃ memory', write memory address data = .ok memory') ↔
      address.toNat + data.length ≤ memory.size)
  written : ∀ address data memory', data.length < 2 ^ 64 →
    write memory address data = .ok memory' → Written memory address data memory'
  /-- A write that is refused leaves the memory of the guest alone. -/
  refused : ∀ address data e, write memory address data = .error e →
    ∀ (σ : Type) (host : HostState σ),
      Caller.writeGuest address data ⟨some memory, host⟩ = .error e ⟨some memory, host⟩
  restored : ∀ address length bytes, GuestMemory.read memory address length = .ok bytes →
    write memory address bytes = .ok memory

/-- **Copies are exact.** A range is accepted just if it lies within the memory, whatever the
sizes, and copies of accepted ranges obey the laws of reading and writing. -/
theorem copies_exact :
    (∀ size address length, RangeChecked size address length) ∧
      ∀ memory : ByteArray, memory.size < 2 ^ 64 → CopiesExact memory := by
  refine ⟨rangeChecked, fun memory hsize => ?_⟩
  refine {
    slice := fun address length stop hstop => ?_
    readable_iff := fun address length => exists_read_eq_ok_iff hsize
    read := fun address length bytes => holds_of_read
    writable_iff := fun address data hdata => ?_
    written := fun address data memory' hdata hwrite => ?_
    refused := fun address data e herror σ host => writeGuest_of_error herror host
    restored := fun address length bytes hread => ?_ }
  · obtain ⟨heq, hle⟩ := validateRange_eq_ok_iff.mp hstop
    rw [toNat_size hsize] at hle
    exact ⟨by omega, hle, by omega⟩
  · constructor
    · rintro ⟨memory', hwrite⟩
      exact ((write_eq_ok_iff hsize hdata).mp hwrite).1
    · intro hroom
      exact ⟨_, (write_eq_ok_iff hsize hdata).mpr ⟨hroom, rfl⟩⟩
  · obtain ⟨hroom, rfl⟩ := (write_eq_ok_iff hsize hdata).mp hwrite
    exact written_store hsize hroom
  · obtain ⟨hlength, hholds⟩ := holds_of_read hread
    have hdata : bytes.length < 2 ^ 64 := by
      have hword := length.toNat_lt
      omega
    exact (write_eq_ok_iff hsize hdata).mpr ⟨hholds.room, (store_eq_self hholds).symm⟩

/-- In a memory of four bytes, two bytes fit at address 2, right up to the end. -/
theorem copies_exact_fourBytes :
    (Bytes.toByteArray [1, 2, 3, 4]).size < 2 ^ 64 ∧
      Written (Bytes.toByteArray [1, 2, 3, 4]) 2 [0xAA, 0xBB]
        (Bytes.toByteArray [1, 2, 0xAA, 0xBB]) := by
  have hsize : (Bytes.toByteArray [1, 2, 3, 4]).size < 2 ^ 64 := by decide
  exact ⟨hsize, (copies_exact.2 _ hsize).written 2 [0xAA, 0xBB] _ (by decide) rfl⟩

end LedgerSandbox.GuestMemory
