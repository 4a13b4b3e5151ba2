import LedgerSandbox.Archive.Zip
import LedgerSandbox.Proofs.Archive.Limit
import Mathlib.Data.List.Dedup
import Mathlib.Data.Option.Basic
import Mathlib.Data.String.Basic

/-!
# What an archive holds

An archive shows the entries of its directory; of several with one name it shows the last
(`shown`). The number of entries that is reported is the number of these
(`entryCount_eq_length_shown`).

An entry holds some content if it can be read to its end without an error (`Entry.Holds`).
Reading is done with a limit, and this is the content that it gives, if it is within the limit
(`Entry.read?_eq_some_iff`).
-/

namespace LedgerSandbox.Archive

/-! ## The content of an entry -/

namespace Entry

/-- The data of an entry as it is stored, behind its header and the name and extra fields that
follow the header. -/
def stored (entry : Entry) (data : ByteArray) : ByteArray :=
  let start := entry.header + 30 + littleEndian data (entry.header + 26) 2 +
    littleEndian data (entry.header + 28) 2
  data.extract start (start + entry.storedSize)

/-- Whether data stored by the method of an entry stands for some content. -/
def Unpacks (entry : Entry) (stored content : ByteArray) : Prop :=
  entry.method = 0 ∧ content = stored ∨ entry.method = 8 ∧ Inflates stored content

/-- Whether an entry can be read to its end without an error, and what its content then is. -/
structure Holds (entry : Entry) (data content : ByteArray) : Prop where
  plain : entry.isEncrypted = false
  marked : hasMark data entry.header headerMark
  header : entry.header + 30 ≤ data.size
  unpacks : entry.Unpacks (entry.stored data) content
  checksum : crc32 content = entry.checksum

variable {entry : Entry} {data content : ByteArray} {limit : Nat}

/-- What passes the check of an unpacked content. -/
theorem check_eq_some_iff {out : ByteArray} (hlimit : content.size ≤ limit) :
    (Option.bind (guard (limit < out.size || crc32 out = entry.checksum)) fun _ => pure out) =
      some content ↔ content = out ∧ crc32 content = entry.checksum := by
  simp only [Option.bind_eq_some_iff, Option.guard_eq_some', exists_const, Bool.or_eq_true,
    decide_eq_true_eq, Option.pure_def, Option.some.injEq]
  constructor
  · rintro ⟨hexceeded | hchecksum, rfl⟩
    · omega
    · exact ⟨rfl, hchecksum⟩
  · rintro ⟨rfl, hchecksum⟩
    exact ⟨.inr hchecksum, rfl⟩

theorem unpacks_of_eq_zero {stored : ByteArray} (h : entry.method = 0) :
    entry.Unpacks stored content ↔ content = stored := by
  simp [Unpacks, h]

theorem unpacks_of_eq_eight {stored : ByteArray} (h : entry.method = 8) :
    entry.Unpacks stored content ↔ Inflates stored content := by
  simp [Unpacks, h]

/-- **Reading with a limit** gives the content of an entry, if this is within the limit. -/
theorem read?_eq_some_iff (hlimit : content.size ≤ limit) :
    entry.read? data limit = some content ↔ entry.Holds data content := by
  have hholds : entry.Holds data content ↔ (!entry.isEncrypted) = true ∧
      (hasMark data entry.header headerMark && decide (entry.header + 30 ≤ data.size)) = true ∧
        entry.Unpacks (entry.stored data) content ∧ crc32 content = entry.checksum := by
    rw [Bool.not_eq_true', Bool.and_eq_true, decide_eq_true_eq]
    exact ⟨fun h => ⟨h.plain, ⟨h.marked, h.header⟩, h.unpacks, h.checksum⟩,
      fun ⟨hplain, ⟨hmarked, hheader⟩, hunpacks, hchecksum⟩ =>
        ⟨hplain, hmarked, hheader, hunpacks, hchecksum⟩⟩
  rw [hholds]
  unfold read?
  simp only [Option.bind_eq_bind, Option.bind_eq_some_iff, Option.guard_eq_some', exists_and_left,
    exists_const]
  refine and_congr_right fun _ => and_congr_right fun _ => ?_
  split
  case isTrue hmethod =>
    rw [unpacks_of_eq_zero hmethod, Option.bind_some, check_eq_some_iff hlimit]
    rfl
  case isFalse hstored =>
    split
    case isTrue hmethod =>
      rw [unpacks_of_eq_eight hmethod, ← inflate_eq_ok_iff hlimit, Option.bind_eq_some_iff]
      simp only [check_eq_some_iff hlimit]
      constructor
      · rintro ⟨out, hout, rfl, hchecksum⟩
        exact ⟨Except.eq_ok_of_toOption hout, hchecksum⟩
      · rintro ⟨hcontent, hchecksum⟩
        exact ⟨content, congrArg Except.toOption hcontent, rfl, hchecksum⟩
    case isFalse hmethod =>
      simp [Unpacks, hstored, hmethod]

end Entry

/-! ## The entries of an archive -/

/-- The entries that an archive shows: those that no later one replaces. -/
def shown (entries : List Entry) : List Entry := entries.pwFilter (·.name ≠ ·.name)

theorem map_name_shown (entries : List Entry) :
    (shown entries).map (·.name) = (entries.map (·.name)).dedup := by
  unfold List.dedup shown
  rw [List.pwFilter_map]

/-- In a sorted list, different texts are found by looking at neighbours. -/
theorem countSorted_eq_length_dedup {names : List String} (h : names.Pairwise (· ≤ ·)) :
    countSorted names = names.dedup.length := by
  induction names using countSorted.induct with
  | case1 => rfl
  | case2 a => simp [countSorted]
  | case3 a b rest ih =>
    obtain ⟨hfirst, hrest⟩ := List.pairwise_cons.mp h
    rw [countSorted, ih hrest]
    by_cases hab : a = b
    · subst hab
      rw [if_pos rfl, List.dedup_cons_of_mem (a := a) List.mem_cons_self, Nat.zero_add]
    · -- A text that equalled `a` further on would have `b` in between.
      have hnew : a ∉ b :: rest := by
        intro hmem
        have hle : b ≤ a := by
          rcases List.mem_cons.mp hmem with rfl | hmem
          · exact absurd rfl hab
          · exact (List.pairwise_cons.mp hrest).1 a hmem
        exact hab (le_antisymm (hfirst b List.mem_cons_self) hle)
      rw [if_neg hab, List.dedup_cons_of_notMem hnew, List.length_cons, Nat.add_comm]

/-- The entries that are counted are those that are shown. -/
theorem entryCount_eq_length_shown (entries : List Entry) :
    entryCount entries = (shown entries).length := by
  let names := entries.map (·.name)
  let sorted := names.mergeSort fun a b => a ≤ b
  have hsorted : sorted.Pairwise (· ≤ ·) := by
    have htrans : ∀ a b c : String, decide (a ≤ b) → decide (b ≤ c) → decide (a ≤ c) := by
      simpa using fun a b c => le_trans
    have htotal : ∀ a b : String, decide (a ≤ b) || decide (b ≤ a) := by
      simpa using le_total
    simpa using List.pairwise_mergeSort htrans htotal names
  have hperm : sorted.Perm names := List.mergeSort_perm names _
  calc entryCount entries = sorted.dedup.length := countSorted_eq_length_dedup hsorted
    _ = names.dedup.length := hperm.dedup.length_eq
    _ = (shown entries).length := by rw [← map_name_shown, List.length_map]

theorem getLast?_shown (entries : List Entry) : (shown entries).getLast? = entries.getLast? := by
  induction entries with
  | nil => rfl
  | cons entry rest ih =>
    by_cases hnew : ∀ later ∈ shown rest, entry.name ≠ later.name
    · have hshown : shown (entry :: rest) = entry :: shown rest := List.pwFilter_cons_of_pos hnew
      rw [hshown, List.getLast?_cons, List.getLast?_cons, ih]
    · have hshown : shown (entry :: rest) = shown rest := List.pwFilter_cons_of_neg hnew
      have hrest : rest ≠ [] := by
        rintro rfl
        exact hnew fun later h => nomatch h
      rw [hshown, ih, List.getLast?_cons_of_ne_nil hrest]

/-- An archive that shows one entry shows the last one of its directory. -/
theorem shown_eq_singleton_iff {entries : List Entry} {entry : Entry} :
    shown entries = [entry] ↔ entryCount entries = 1 ∧ entries.getLast? = some entry := by
  rw [entryCount_eq_length_shown, ← getLast?_shown, List.length_eq_one_iff]
  constructor
  · intro h
    rw [h]
    exact ⟨⟨entry, rfl⟩, rfl⟩
  · rintro ⟨⟨other, hother⟩, hlast⟩
    rw [hother] at hlast ⊢
    rw [← Option.some.inj hlast]
    rfl

end LedgerSandbox.Archive
