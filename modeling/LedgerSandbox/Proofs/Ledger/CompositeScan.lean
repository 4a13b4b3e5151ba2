import LedgerSandbox.Ledger.Memory
import LedgerSandbox.Proofs.Ledger.Keys
import LedgerSandbox.Proofs.SortedMap

/-!
# Scans of composite keys

In the byte order, a key is in the range of a scan just if it continues the start of the range
below the encoding of U+10FFFF (`CompositeKey.mem_scan_iff`). Components that do not start with
this character are always below it (`CompositeKey.flatMap_component_lt_maxChar`), and the start
of the range can end only where a component does (`CompositeKey.flatMap_component_prefix_iff`).
So a scan finds the composite keys whose first components are the given ones
(`CompositeKey.scan_exact`).

Since the byte that ends components is the least one, components are ordered as their texts are
(`CompositeKey.component_lt_iff`).
-/

namespace LedgerSandbox.CompositeKey

/-! ## The order of keys -/

theorem append_lt_append_iff {start xs ys : Bytes} : start ++ xs < start ++ ys ↔ xs < ys := by
  induction start with
  | nil => rfl
  | cons b start ih => simpa using ih

theorem append_range_iff {start key stop : Bytes} :
    start ≤ key ∧ key < start ++ stop ↔ ∃ rest, key = start ++ rest ∧ rest < stop := by
  induction start generalizing key with
  | nil => simp [List.nil_le]
  | cons b start ih =>
    cases key with
    | nil => simp
    | cons c key =>
      rw [List.cons_append, List.cons_le_cons_iff, List.cons_lt_cons_iff]
      constructor
      · -- The first bytes are equal, since neither may be below the other.
        rintro ⟨hstart | ⟨rfl, hstart⟩, hstop | ⟨hbyte, hstop⟩⟩
        · exact absurd hstop (UInt8.lt_asymm hstart)
        · exact absurd hbyte (UInt8.ne_of_lt hstart).symm
        · exact absurd hstop (UInt8.lt_irrefl b)
        · obtain ⟨rest, rfl, hrest⟩ := ih.mp ⟨hstart, hstop⟩
          exact ⟨rest, rfl, hrest⟩
      · rintro ⟨rest, heq, hrest⟩
        obtain ⟨rfl, rfl⟩ := List.cons.inj heq
        obtain ⟨hstart, hstop⟩ := ih.mpr ⟨rest, rfl, hrest⟩
        exact ⟨.inr ⟨rfl, hstart⟩, .inr ⟨rfl, hstop⟩⟩

/-- The keys in the range of a scan are those that continue its start below the encoding of
the greatest character. -/
theorem mem_scan_iff {start key : Key} :
    start ≤ key ∧ key < rangeEnd start ↔
      ∃ rest, key = start ++ rest ∧ rest < encodeUtf8 (String.singleton maxChar) :=
  append_range_iff

theorem ofNat_cons_lt_iff {m n : Nat} (hm : m < 0x100) (hn : n < 0x100) {xs ys : Bytes} :
    UInt8.ofNat m :: xs < UInt8.ofNat n :: ys ↔ m < n ∨ m = n ∧ xs < ys := by
  rw [List.cons_lt_cons_iff, UInt8.lt_iff_toNat_lt, ← UInt8.toNat_inj, UInt8.toNat_ofNat',
    UInt8.toNat_ofNat', Nat.mod_eq_of_lt hm, Nat.mod_eq_of_lt hn]

/-- The encoding of every other character is below that of the greatest one. -/
theorem utf8EncodeChar_append_lt_maxChar {c : Char} (h : c ≠ maxChar) (rest : Bytes) :
    String.utf8EncodeChar c ++ rest < encodeUtf8 (String.singleton maxChar) := by
  have hmax : encodeUtf8 (String.singleton maxChar) =
      [UInt8.ofNat 0xF4, UInt8.ofNat 0x8F, UInt8.ofNat 0xBF, UInt8.ofNat 0xBF] := by decide
  have hlt : c.val.toNat < 0x10FFFF := by
    have hvalid : c.val.toNat < 0xD800 ∨ 0xDFFF < c.val.toNat ∧ c.val.toNat < 0x110000 := c.valid
    have hne : c.val.toNat ≠ 0x10FFFF := by
      intro heq
      refine h (Char.ext (UInt32.toNat_inj.mp ?_))
      rw [heq]
      rfl
    omega
  rw [hmax]
  unfold String.utf8EncodeChar
  dsimp only
  generalize c.val.toNat = v at hlt
  -- A shorter encoding starts with a smaller byte.
  split
  · rw [List.cons_append, ofNat_cons_lt_iff (by omega) (by omega)]
    omega
  · split
    · rw [List.cons_append, ofNat_cons_lt_iff (by omega) (by omega)]
      omega
    · split
      · rw [List.cons_append, ofNat_cons_lt_iff (by omega) (by omega)]
        omega
      · simp only [List.cons_append]
        rw [ofNat_cons_lt_iff (by omega) (by omega), ofNat_cons_lt_iff (by omega) (by omega),
          ofNat_cons_lt_iff (by omega) (by omega), ofNat_cons_lt_iff (by omega) (by omega)]
        omega

/-- A component without the greatest character stays below it, whatever follows. -/
theorem component_append_lt_maxChar {text : String} (h : maxChar ∉ text.toList) (rest : Bytes) :
    component text ++ rest < encodeUtf8 (String.singleton maxChar) := by
  rw [component, encodeUtf8_eq_flatMap, List.append_assoc]
  cases hchars : text.toList with
  | nil =>
    have hmax : encodeUtf8 (String.singleton maxChar) = [0xF4, 0x8F, 0xBF, 0xBF] := by decide
    rw [hmax, List.flatMap_nil, List.nil_append, List.singleton_append, List.cons_lt_cons_iff]
    exact .inl (by decide)
  | cons c more =>
    rw [hchars] at h
    have hc : c ≠ maxChar := fun heq => h (heq ▸ List.mem_cons_self)
    rw [List.flatMap_cons, List.append_assoc]
    exact utf8EncodeChar_append_lt_maxChar hc _

theorem flatMap_component_lt_maxChar {texts : List String}
    (h : ∀ text ∈ texts, maxChar ∉ text.toList) :
    texts.flatMap component < encodeUtf8 (String.singleton maxChar) := by
  cases texts with
  | nil => decide
  | cons text rest =>
    rw [List.flatMap_cons]
    exact component_append_lt_maxChar (h text List.mem_cons_self) _

theorem concat_nul_lt_iff {xs ys : Bytes} (hx : 0 ∉ xs) (hy : 0 ∉ ys) :
    xs ++ [0] < ys ++ [0] ↔ xs < ys := by
  have hpos : ∀ {b : UInt8} {bs : Bytes}, 0 ∉ b :: bs → 0 < b := by
    intro b bs h
    refine UInt8.pos_iff_ne_zero.mpr fun hb => h ?_
    rw [hb]
    exact List.mem_cons_self
  induction xs generalizing ys with
  | nil =>
    cases ys with
    | nil => simp
    | cons y ys => simp [List.cons_lt_cons_iff, hpos hy]
  | cons x xs ih =>
    cases ys with
    | nil =>
      have hnot : ¬ x < 0 := UInt8.not_lt.mpr (UInt8.zero_le)
      have hne : x ≠ 0 := (UInt8.ne_of_lt (hpos hx)).symm
      simp [List.cons_lt_cons_iff, hnot, hne]
    | cons y ys =>
      have hrest : xs ++ [0] < ys ++ [0] ↔ xs < ys :=
        ih (fun h => hx (List.mem_cons_of_mem _ h)) fun h => hy (List.mem_cons_of_mem _ h)
      rw [List.cons_append, List.cons_append, List.cons_lt_cons_iff, List.cons_lt_cons_iff, hrest]

/-- Components are ordered as their texts are. -/
theorem component_lt_iff {a b : String} (ha : 0 ∉ encodeUtf8 a) (hb : 0 ∉ encodeUtf8 b) :
    component a < component b ↔ encodeUtf8 a < encodeUtf8 b :=
  concat_nul_lt_iff ha hb

/-! ## Components as beginnings -/

theorem nul_mem_encodeUtf8_iff {text : String} : 0 ∈ encodeUtf8 text ↔ delimiter ∈ text.toList :=
  ascii_mem_encodeUtf8_iff (c := delimiter) (by decide)

/-- **Components are compared whole.** The bytes of one list of components start those of another
one just if the lists start alike: no component is cut in between. -/
theorem flatMap_component_prefix_iff {xs ys : List String}
    (hx : ∀ text ∈ xs, delimiter ∉ text.toList) (hy : ∀ text ∈ ys, delimiter ∉ text.toList) :
    xs.flatMap component <+: ys.flatMap component ↔ xs <+: ys := by
  induction xs generalizing ys with
  | nil => simp
  | cons x xs ih =>
    cases ys with
    | nil => simp [component]
    | cons y ys =>
      have hrest : xs.flatMap component <+: ys.flatMap component ↔ xs <+: ys :=
        ih (fun text h => hx text (List.mem_cons_of_mem _ h))
          fun text h => hy text (List.mem_cons_of_mem _ h)
      rw [List.cons_prefix_cons, ← hrest, List.flatMap_cons, List.flatMap_cons]
      constructor
      · rintro ⟨more, hmore⟩
        have hcut : encodeUtf8 x ++ 0 :: (xs.flatMap component ++ more) =
            encodeUtf8 y ++ 0 :: ys.flatMap component := by
          simpa [component] using hmore
        -- Both are cut at the first zero byte.
        obtain ⟨hfirst, htail⟩ := append_cons_inj
          (fun hmem => hx x List.mem_cons_self (nul_mem_encodeUtf8_iff.mp hmem))
          (fun hmem => hy y List.mem_cons_self (nul_mem_encodeUtf8_iff.mp hmem)) hcut
        exact ⟨encodeUtf8_injective hfirst, more, htail⟩
      · rintro ⟨rfl, hmore⟩
        exact (List.prefix_append_right_inj _).mpr hmore

/-! ## Scans of a ledger in memory -/

variable {index : String} {parts : List String} {start : Key}

theorem scan_inMemory (h : create index parts = .ok start) (s : MemoryLedger) :
    scan index parts s = .ok ((s.contents.range start (rangeEnd start)).map .ok) s := by
  unfold scan
  rw [h]
  rfl

/-- A key is in the range of a scan for other components just if these come first in it. -/
theorem scanned_iff {index' : String} {parts' : List String} {key : Key}
    (h : create index parts = .ok start) (h' : create index' parts' = .ok key) :
    (∃ rest, key = start ++ rest ∧ rest < encodeUtf8 (String.singleton maxChar)) ↔
      index' = index ∧ parts <+: parts' := by
  obtain ⟨hfree, rfl⟩ := create_eq_ok_iff.mp h
  obtain ⟨hfree', rfl⟩ := create_eq_ok_iff.mp h'
  have hprefix : index :: parts <+: index' :: parts' ↔ index' = index ∧ parts <+: parts' := by
    rw [List.cons_prefix_cons, eq_comm]
  rw [← hprefix]
  constructor
  · rintro ⟨rest, hrest, -⟩
    refine (flatMap_component_prefix_iff (unreserved_iff.mp hfree).1
      (unreserved_iff.mp hfree').1).mp ⟨rest, ?_⟩
    exact (List.tail_eq_of_cons_eq hrest).symm
  · rintro ⟨more, hmore⟩
    refine ⟨more.flatMap component, ?_, flatMap_component_lt_maxChar fun text htext => ?_⟩
    · rw [← hmore, List.flatMap_append]
      rfl
    · refine (unreserved_iff.mp hfree').2 text ?_
      rw [← hmore]
      exact List.mem_append_right _ htext

/-- What a scan for an index and leading parts finds, `start` being their key. -/
structure ScanExact (index : String) (parts : List String) (start : Key)
    (contents : Key → Option Value) (entries : List (Key × Value)) : Prop where
  ascending : entries.Pairwise fun a b => a.1 < b.1
  mem_iff : ∀ key value, (key, value) ∈ entries ↔ contents key = some value ∧
    ∃ rest, key = start ++ rest ∧ rest < encodeUtf8 (String.singleton maxChar)
  /-- Of the composite keys in the ledger, those with this index and these leading parts. -/
  composite_iff : ∀ index' parts' key value, create index' parts' = .ok key →
    contents key = some value → ((key, value) ∈ entries ↔ index' = index ∧ parts <+: parts')
  start_prefix : ∀ entry ∈ entries, start <+: entry.1

/-- **Scans are exact.** -/
theorem scan_exact (h : create index parts = .ok start) (s : MemoryLedger) :
    ∃ entries, scan index parts s = .ok (entries.map .ok) s ∧
      ScanExact index parts start s.contents.get? entries := by
  have hmem : ∀ key value, (key, value) ∈ s.contents.range start (rangeEnd start) ↔
      s.contents.get? key = some value ∧
        ∃ rest, key = start ++ rest ∧ rest < encodeUtf8 (String.singleton maxChar) := by
    intro key value
    rw [SortedMap.mem_range_iff, ← and_assoc, mem_scan_iff, and_comm]
  refine ⟨_, scan_inMemory h s, ?_⟩
  exact {
    ascending := s.contents.sorted_range start (rangeEnd start)
    mem_iff := hmem
    composite_iff := by
      intro index' parts' key value h' hvalue
      rw [hmem, scanned_iff h h']
      exact and_iff_right hvalue
    start_prefix := by
      rintro ⟨key, value⟩ hentry
      obtain ⟨-, rest, hrest, -⟩ := (hmem key value).mp hentry
      exact ⟨rest, hrest.symm⟩ }

/-- The key of the index `i` with the parts `a` and U+10FFFE. -/
def topKey : Key := [0, 0x69, 0, 0x61, 0, 0xF4, 0x8F, 0xBF, 0xBE, 0]

/-- The key of the index `i` with the part `ab`. -/
def longerKey : Key := [0, 0x69, 0, 0x61, 0x62, 0]

def twoRecords : MemoryLedger where
  contents := SortedMap.ofList [(topKey, [1]), (longerKey, [2])]

/-- A scan for the part `a` finds the parts that follow it, but not the longer part. -/
theorem scan_exact_twoRecords :
    create "i" ["a"] = .ok [0, 0x69, 0, 0x61, 0] ∧
      ∃ entries, scan "i" ["a"] twoRecords = .ok (entries.map .ok) twoRecords ∧
        ScanExact "i" ["a"] [0, 0x69, 0, 0x61, 0] twoRecords.contents.get? entries ∧
        (topKey, [1]) ∈ entries ∧ (longerKey, [2]) ∉ entries := by
  have hstart : create "i" ["a"] = .ok [0, 0x69, 0, 0x61, 0] := rfl
  have htop : create "i" ["a", String.singleton (Char.ofNat 0x10FFFE)] = .ok topKey := rfl
  have hlonger : create "i" ["ab"] = .ok longerKey := rfl
  obtain ⟨entries, hscan, hexact⟩ := scan_exact hstart twoRecords
  refine ⟨hstart, entries, hscan, hexact, ?_, ?_⟩
  · exact (hexact.composite_iff _ _ topKey [1] htop (by decide)).mpr ⟨rfl, by simp⟩
  · rw [hexact.composite_iff _ _ longerKey [2] hlonger (by decide)]
    decide

end LedgerSandbox.CompositeKey
