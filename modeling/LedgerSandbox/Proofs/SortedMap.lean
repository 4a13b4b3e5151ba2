import LedgerSandbox.SortedMap
import Mathlib.Data.List.Induction
import Mathlib.Data.List.Sort

/-!
# Sorted maps as partial functions

What a look-up finds after an insertion and an erasure, and that a look-up finds just
the entries (`mem_entries_iff`). Since entries are kept in order, the look-ups determine the
map (`ext_get?`), and a list of entries that is in order already is a map as it stands
(`entries_ofList`).
-/

namespace LedgerSandbox.SortedMap

variable {α : Type}

theorem lookupIn_insertIn (key key' : Bytes) (value : α) (l : List (Bytes × α)) :
    lookupIn key' (insertIn key value l) = if key' = key then some value else lookupIn key' l := by
  induction l with
  | nil => simp [insertIn, lookupIn, eq_comm]
  | cons e rest ih =>
    unfold insertIn
    by_cases hlt : key < e.1
    · simp [hlt, lookupIn, eq_comm]
    · by_cases heq : key = e.1
      · rw [if_neg hlt, if_pos heq]
        by_cases hkey : key' = key
        · simp [lookupIn, hkey]
        · have hne : e.1 ≠ key' := fun h => hkey (h.symm.trans heq.symm)
          simp [lookupIn, hkey, Ne.symm hkey, hne]
      · rw [if_neg hlt, if_neg heq, lookupIn, lookupIn, ih]
        by_cases hkey : e.1 = key'
        · have hne : key' ≠ key := fun h => heq (h.symm.trans hkey.symm)
          rw [if_pos hkey, if_neg hne, if_pos hkey]
        · rw [if_neg hkey, if_neg hkey]

theorem lookupIn_filter_ne (key key' : Bytes) (l : List (Bytes × α)) :
    lookupIn key' (l.filter fun e => e.1 ≠ key) = if key' = key then none else lookupIn key' l := by
  induction l with
  | nil => simp [lookupIn]
  | cons e rest ih =>
    rw [List.filter_cons]
    by_cases heq : e.1 = key
    · rw [if_neg (by simpa using heq), ih]
      by_cases hkey : key' = key
      · rw [if_pos hkey, if_pos hkey]
      · rw [if_neg hkey, if_neg hkey, lookupIn, if_neg (fun h => hkey (h.symm.trans heq))]
    · rw [if_pos (by simpa using heq), lookupIn, lookupIn, ih]
      by_cases hkey : e.1 = key'
      · rw [if_pos hkey, if_pos hkey, if_neg (fun h => heq (hkey.trans h))]
      · rw [if_neg hkey, if_neg hkey]

@[simp] theorem get?_empty (key : Bytes) : (∅ : SortedMap α).get? key = none := rfl

theorem get?_insert (m : SortedMap α) (key key' : Bytes) (value : α) :
    (m.insert key value).get? key' = if key' = key then some value else m.get? key' :=
  lookupIn_insertIn key key' value m.entries

theorem get?_erase (m : SortedMap α) (key key' : Bytes) :
    (m.erase key).get? key' = if key' = key then none else m.get? key' :=
  lookupIn_filter_ne key key' m.entries

theorem mem_of_lookupIn {key : Bytes} {value : α} {l : List (Bytes × α)}
    (h : lookupIn key l = some value) : (key, value) ∈ l := by
  induction l with
  | nil => simp [lookupIn] at h
  | cons e rest ih =>
    rw [lookupIn] at h
    by_cases hkey : e.1 = key
    · rw [if_pos hkey] at h
      obtain rfl := Option.some.inj h
      exact hkey ▸ List.mem_cons_self
    · rw [if_neg hkey] at h
      exact List.mem_cons_of_mem _ (ih h)

/-- A look-up finds the entries of a map and nothing else. -/
theorem mem_entries_iff {m : SortedMap α} {key : Bytes} {value : α} :
    (key, value) ∈ m.entries ↔ m.get? key = some value := by
  obtain ⟨l, hsorted⟩ := m
  refine ⟨fun hmem => ?_, mem_of_lookupIn⟩
  show lookupIn key l = some value
  induction l with
  | nil => exact absurd hmem List.not_mem_nil
  | cons e rest ih =>
    obtain ⟨hfirst, hrest⟩ := List.pairwise_cons.mp hsorted
    rcases List.mem_cons.mp hmem with rfl | hmem
    · rw [lookupIn, if_pos rfl]
    · have hlt : e.1 < key := hfirst _ hmem
      have hne : e.1 ≠ key := fun h => List.lt_irrefl key (h ▸ hlt)
      rw [lookupIn, if_neg hne]
      exact ih hrest hmem

/-- Lists in strictly ascending order of some bytes are determined by their members. -/
theorem eq_of_ascending {β : Type} {bytes : β → Bytes} {l l' : List β}
    (h : l.Pairwise fun a b => bytes a < bytes b) (h' : l'.Pairwise fun a b => bytes a < bytes b)
    (hmem : ∀ b, b ∈ l ↔ b ∈ l') : l = l' := by
  have : Std.Irrefl fun a b => bytes a < bytes b := ⟨fun a => List.lt_irrefl (bytes a)⟩
  have : Std.Antisymm fun a b => bytes a < bytes b :=
    ⟨fun a b hab hba => absurd (List.lt_trans hab hba) (List.lt_irrefl (bytes a))⟩
  exact h.eq_of_mem_iff h' hmem

/-- Maps with the same look-ups are the same map. -/
theorem ext_get? {m n : SortedMap α} (h : ∀ key, m.get? key = n.get? key) : m = n := by
  refine SortedMap.ext (eq_of_ascending m.sorted n.sorted ?_)
  rintro ⟨key, value⟩
  rw [mem_entries_iff, mem_entries_iff, h key]

/-! ## Ranges -/

theorem mem_range_iff {m : SortedMap α} {start stop key : Bytes} {value : α} :
    (key, value) ∈ m.range start stop ↔
      start ≤ key ∧ key < stop ∧ m.get? key = some value := by
  rw [range, List.mem_filter, mem_entries_iff, decide_eq_true_iff]
  constructor
  · rintro ⟨hvalue, hstart, hstop⟩
    exact ⟨hstart, hstop, hvalue⟩
  · rintro ⟨hstart, hstop, hvalue⟩
    exact ⟨hvalue, hstart, hstop⟩

theorem sorted_range (m : SortedMap α) (start stop : Bytes) :
    (m.range start stop).Pairwise fun a b => a.1 < b.1 := m.sorted.filter _

/-! ## Lists of entries in order -/

theorem insertIn_of_forall_lt {key : Bytes} {value : α} {l : List (Bytes × α)}
    (h : ∀ e ∈ l, e.1 < key) : insertIn key value l = l ++ [(key, value)] := by
  induction l with
  | nil => rfl
  | cons e rest ih =>
    have hlt : e.1 < key := h e List.mem_cons_self
    have hnot : ¬ key < e.1 := fun hgt => List.lt_irrefl key (List.lt_trans hgt hlt)
    have hne : key ≠ e.1 := fun heq => List.lt_irrefl key (heq ▸ hlt)
    rw [insertIn, if_neg hnot, if_neg hne, ih fun d hd => h d (List.mem_cons_of_mem _ hd)]
    rfl

theorem entries_ofList {l : List (Bytes × α)} (h : l.Pairwise fun a b => a.1 < b.1) :
    (ofList l).entries = l := by
  -- The entry at the end is inserted last, above all others.
  induction l using List.reverseRecOn with
  | nil => rfl
  | append_singleton l e ih =>
    obtain ⟨hl, -, hlast⟩ := List.pairwise_append.mp h
    have hstep : (ofList (l ++ [e])).entries = insertIn e.1 e.2 (ofList l).entries := by
      unfold ofList
      rw [List.foldl_append]
      rfl
    rw [hstep, ih hl]
    exact insertIn_of_forall_lt fun d hd => hlast d hd e List.mem_cons_self

end LedgerSandbox.SortedMap
