import LedgerSandbox.Proofs.Host.Range

/-!
# Reading and writing guest memory

What is read from a memory is what the memory holds in the range (`read_eq_ok_iff`), and what
is written replaces the bytes of the range and no others (`Replaced`, `replaced_store`).
Nothing is asked of the ranges: they may be empty, at the very end of the memory, or overlap
with others.
-/

namespace LedgerSandbox.GuestMemory

/-- The byte of a memory at an index, if the memory is that long. -/
def byte? (memory : ByteArray) (index : Nat) : Option UInt8 := (Bytes.ofByteArray memory)[index]?

/-- Whether a memory has room for bytes from an index on, and holds them there. -/
structure Holds (memory : ByteArray) (index : Nat) (bytes : Bytes) : Prop where
  room : index + bytes.length ≤ memory.size
  bytes : ∀ offset < bytes.length, byte? memory (index + offset) = bytes[offset]?

/-- Whether a memory differs from an earlier one in that it holds data from an index on, and
in nothing else. -/
structure Replaced (memory : ByteArray) (index : Nat) (data : Bytes) (memory' : ByteArray) :
    Prop where
  size : memory'.size = memory.size
  holds : Holds memory' index data
  others : ∀ i, i < index ∨ index + data.length ≤ i → byte? memory' i = byte? memory i

variable {memory : ByteArray} {index : Nat} {data bytes : Bytes} {address length : UInt32}

/-! ## Storing -/

theorem size_set {b : UInt8} (h : index < memory.size) :
    (memory.set index b h).size = memory.size := by
  show (memory.data.set index b h).size = memory.data.size
  exact Array.size_set h

theorem byte?_set {b : UInt8} (h : index < memory.size) (i : Nat) :
    byte? (memory.set index b h) i = if index = i then some b else byte? memory i := by
  show (memory.data.set index b h).toList[i]? = _
  rw [Array.toList_set, List.getElem?_set]
  split
  case isTrue heq =>
    have hlength : index < memory.data.toList.length := h
    rw [if_pos (heq ▸ hlength)]
  case isFalse hne => rfl

theorem size_store (memory : ByteArray) (index : Nat) (data : Bytes) :
    (store memory index data).size = memory.size := by
  induction data generalizing memory index with
  | nil => rfl
  | cons b rest ih =>
    rw [store, ih]
    split
    · exact size_set _
    · rfl

/-- Storing leaves all other bytes alone. -/
theorem byte?_store_of_outside (memory : ByteArray) {i : Nat}
    (h : i < index ∨ index + data.length ≤ i) :
    byte? (store memory index data) i = byte? memory i := by
  induction data generalizing memory index with
  | nil => rfl
  | cons b rest ih =>
    rw [List.length_cons] at h
    rw [store, ih _ (by omega)]
    split
    · rw [byte?_set, if_neg (by omega)]
    · rfl

/-- Stored bytes are there, if there is room for all of them. -/
theorem byte?_store_of_inside (hroom : index + data.length ≤ memory.size) {offset : Nat}
    (h : offset < data.length) :
    byte? (store memory index data) (index + offset) = data[offset]? := by
  induction data generalizing memory index offset with
  | nil => cases h
  | cons b rest ih =>
    rw [List.length_cons] at h hroom
    rw [store, dif_pos (by omega)]
    cases offset with
    | zero =>
      -- What follows is stored further up.
      rw [byte?_store_of_outside _ (by omega), byte?_set]
      exact if_pos rfl
    | succ offset =>
      have hrest : index + 1 + rest.length ≤ (memory.set index b (by omega)).size := by
        rw [size_set]
        omega
      have hnext : index + (offset + 1) = index + 1 + offset := by omega
      rw [List.getElem?_cons_succ, hnext]
      exact ih hrest (Nat.lt_of_succ_lt_succ h)

theorem replaced_store (hroom : index + data.length ≤ memory.size) :
    Replaced memory index data (store memory index data) where
  size := size_store memory index data
  holds := ⟨by rwa [size_store], fun _ h => byte?_store_of_inside hroom h⟩
  others _ h := byte?_store_of_outside memory h

/-! ## Reading -/

theorem ofByteArray_extract (memory : ByteArray) (start stop : Nat) :
    Bytes.ofByteArray (memory.extract start stop) =
      ((Bytes.ofByteArray memory).drop start).take (stop - start) := by
  show (memory.extract start stop).data.toList = _
  rw [ByteArray.data_extract, Array.toList_extract]
  rfl

/-- The same said of the bytes as a list. -/
theorem holds_iff_take_drop : Holds memory index bytes ↔
    index + bytes.length ≤ memory.size ∧
      ((Bytes.ofByteArray memory).drop index).take bytes.length = bytes := by
  refine ⟨fun h => ⟨h.room, List.ext_getElem? fun i => ?_⟩, fun ⟨hroom, hbytes⟩ => ⟨hroom, ?_⟩⟩
  · rw [List.getElem?_take]
    split
    case isTrue hi =>
      rw [List.getElem?_drop]
      exact h.bytes i hi
    case isFalse hi => exact (List.getElem?_eq_none (Nat.not_lt.mp hi)).symm
  · intro offset hoffset
    rw [byte?, ← List.getElem?_drop, ← List.getElem?_take_of_lt hoffset, hbytes]

/-- What is read is what the memory holds in the range. -/
theorem holds_of_read (h : read memory address length = .ok bytes) :
    bytes.length = length.toNat ∧ Holds memory address.toNat bytes := by
  unfold read at h
  cases hrange : validateRange (size memory) address length.toUInt64 with
  | error e =>
    rw [hrange] at h
    cases h
  | ok stop =>
    rw [hrange] at h
    obtain ⟨hstop, hbound⟩ := validateRange_eq_ok_iff.mp hrange
    rw [UInt32.toNat_toUInt64] at hstop
    have hmemory := toNat_size_le memory
    have hbytes : ((Bytes.ofByteArray memory).drop address.toNat).take length.toNat = bytes := by
      have hextract := Except.ok.inj h
      rw [ofByteArray_extract, hstop, Nat.add_sub_cancel_left] at hextract
      exact hextract
    have hlength : bytes.length = length.toNat := by
      have hwhole : (Bytes.ofByteArray memory).length = memory.size := Array.length_toList
      rw [← hbytes, List.length_take, List.length_drop]
      omega
    refine ⟨hlength, holds_iff_take_drop.mpr ⟨by omega, ?_⟩⟩
    rwa [hlength]

/-- **Reading is exact**: what the memory holds in a range, and nothing else, is read. -/
theorem read_eq_ok_iff (hsize : memory.size < 2 ^ 64) :
    read memory address length = .ok bytes ↔
      bytes.length = length.toNat ∧ Holds memory address.toNat bytes := by
  refine ⟨holds_of_read, fun ⟨hlength, hholds⟩ => ?_⟩
  have hroom := hholds.room
  have hword : address.toNat + length.toUInt64.toNat < 2 ^ 64 := by
    rw [UInt32.toNat_toUInt64]
    omega
  have hrange : validateRange (size memory) address length.toUInt64 =
      .ok (UInt64.ofNat (address.toNat + length.toUInt64.toNat)) := by
    rw [validateRange_eq_ok_iff, UInt64.toNat_ofNat_of_lt' hword, toNat_size hsize,
      UInt32.toNat_toUInt64]
    omega
  have hbytes := (holds_iff_take_drop.mp hholds).2
  unfold read
  rw [hrange]
  show Except.ok (Bytes.ofByteArray (memory.extract _ _)) = .ok bytes
  rw [ofByteArray_extract, UInt64.toNat_ofNat_of_lt' hword, UInt32.toNat_toUInt64,
    Nat.add_sub_cancel_left, ← hlength, hbytes]

/-! ## Writing -/

/-- Data can be written where there is room for it. -/
theorem checkWrite_eq_ok_iff_room (hsize : memory.size < 2 ^ 64) (hdata : data.length < 2 ^ 64) :
    checkWrite memory address data = .ok () ↔ address.toNat + data.length ≤ memory.size := by
  rw [checkWrite_eq_ok_iff, Nat.mod_eq_of_lt hdata, toNat_size hsize]

/-- There is room for what can be written. -/
theorem room_of_checkWrite (hdata : data.length < 2 ^ 64)
    (h : checkWrite memory address data = .ok ()) :
    address.toNat + data.length ≤ memory.size := by
  have hbound := checkWrite_eq_ok_iff.mp h
  rw [Nat.mod_eq_of_lt hdata] at hbound
  exact Nat.le_trans hbound (toNat_size_le memory)

end LedgerSandbox.GuestMemory
