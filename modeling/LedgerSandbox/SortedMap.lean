import LedgerSandbox.Bytes

/-!
# Maps sorted by key

A finite map from byte strings, kept as its entries in strictly ascending key
order. The order is part of the type, so a map has one form only: two maps that
hold the same entries are equal, and listing a map never depends on the history
of insertions that built it.
-/

namespace LedgerSandbox

/-- A finite map from byte strings to `α`, its entries in ascending key order. -/
@[ext] structure SortedMap (α : Type) where
  /-- The entries, in strictly ascending key order. -/
  entries : List (Bytes × α)
  sorted : entries.Pairwise fun a b => a.1 < b.1

namespace SortedMap

variable {α β : Type}

/-- The value of the first entry with the given key. -/
def lookupIn (key : Bytes) : List (Bytes × α) → Option α
  | [] => none
  | e :: rest => if e.1 = key then some e.2 else lookupIn key rest

/-- Puts an entry in its place among sorted entries, replacing one with its key. -/
def insertIn (key : Bytes) (value : α) : List (Bytes × α) → List (Bytes × α)
  | [] => [(key, value)]
  | e :: rest =>
    if key < e.1 then (key, value) :: e :: rest
    else if key = e.1 then (key, value) :: rest
    else e :: insertIn key value rest

theorem mem_insertIn {key : Bytes} {value : α} {l : List (Bytes × α)} {e : Bytes × α}
    (h : e ∈ insertIn key value l) : e = (key, value) ∨ e ∈ l := by
  induction l with
  | nil => simpa [insertIn] using h
  | cons a rest ih =>
    simp only [insertIn] at h
    split at h
    · simpa using h
    · split at h
      · rcases List.mem_cons.mp h with h | h
        · exact .inl h
        · exact .inr (List.mem_cons_of_mem _ h)
      · rcases List.mem_cons.mp h with h | h
        · exact .inr (h ▸ List.mem_cons_self)
        · exact (ih h).imp_right (List.mem_cons_of_mem _)

/-- Keys that are neither below nor equal are above. -/
theorem lt_of_not_lt_of_ne {a b : Bytes} (h : ¬ a < b) (hne : a ≠ b) : b < a := by
  rcases Std.lt_trichotomy a b with h' | h' | h'
  · exact absurd h' h
  · exact absurd h' hne
  · exact h'

theorem sorted_insertIn {key : Bytes} {value : α} {l : List (Bytes × α)}
    (h : l.Pairwise fun a b => a.1 < b.1) :
    (insertIn key value l).Pairwise fun a b => a.1 < b.1 := by
  induction l with
  | nil => simp [insertIn]
  | cons a rest ih =>
    obtain ⟨ha, hrest⟩ := List.pairwise_cons.mp h
    simp only [insertIn]
    split
    · rename_i hlt
      refine List.pairwise_cons.mpr ⟨fun e he => ?_, h⟩
      rcases List.mem_cons.mp he with rfl | he
      · exact hlt
      · exact List.lt_trans hlt (ha e he)
    · split
      · rename_i heq
        refine List.pairwise_cons.mpr ⟨fun e he => ?_, hrest⟩
        exact heq ▸ ha e he
      · rename_i hlt hne
        refine List.pairwise_cons.mpr ⟨fun e he => ?_, ih hrest⟩
        rcases mem_insertIn he with rfl | he
        · exact lt_of_not_lt_of_ne hlt hne
        · exact ha e he

/-- The map without entries. -/
def empty : SortedMap α := ⟨[], .nil⟩

instance : EmptyCollection (SortedMap α) := ⟨empty⟩

instance : Inhabited (SortedMap α) := ⟨∅⟩

/-- The value under a key. -/
def get? (m : SortedMap α) (key : Bytes) : Option α := lookupIn key m.entries

/-- The map with a value put under a key, replacing what was there. -/
def insert (m : SortedMap α) (key : Bytes) (value : α) : SortedMap α :=
  ⟨insertIn key value m.entries, sorted_insertIn m.sorted⟩

/-- The map without the entry under a key. -/
def erase (m : SortedMap α) (key : Bytes) : SortedMap α :=
  ⟨m.entries.filter fun e => e.1 ≠ key, m.sorted.filter _⟩

/-- The number of entries. -/
def size (m : SortedMap α) : Nat := m.entries.length

/-- The entries with `start ≤ key < stop`, in ascending key order. -/
def range (m : SortedMap α) (start stop : Bytes) : List (Bytes × α) :=
  m.entries.filter fun e => start ≤ e.1 ∧ e.1 < stop

/-- The map of a list of entries; of two with one key the later one stays. -/
def ofList (entries : List (Bytes × α)) : SortedMap α :=
  entries.foldl (fun m e => m.insert e.1 e.2) ∅

end SortedMap

end LedgerSandbox
