import LedgerSandbox.Proofs.Ledger.CompositeScan
import LedgerSandbox.Proofs.Transaction.Reachable

/-!
# Listing the installed modules

A listing scans the ledger for the keys of records and takes the names out of them. On a
well-formed ledger the range of the scan holds records only, whatever keys guests have used
(`IsEntry.isRecord_of_scanned`), and the records stand in the order of their names
(`Registry.recordBytes_lt_iff`). So a listing on a ledger in memory that was empty at first
gives the names of the installed modules in ascending order (`Session.listing_exact`).
-/

namespace LedgerSandbox

open ModuleName (Accepted)

namespace Registry

/-! ## The keys of records -/

/-- What the keys of all records start with. -/
def recordStart : Key := 0 :: CompositeKey.component recordIndex

theorem recordBytes_eq (name : String) :
    recordBytes name = recordStart ++ CompositeKey.component name := rfl

theorem create_recordIndex : CompositeKey.create recordIndex [] = .ok recordStart := by
  rfl

/-- Records stand in the order of their names. -/
theorem recordBytes_lt_iff {a b : String} (ha : Accepted a) (hb : Accepted b) :
    recordBytes a < recordBytes b ↔ encodeUtf8 a < encodeUtf8 b := by
  rw [recordBytes_eq, recordBytes_eq, CompositeKey.append_lt_append_iff,
    CompositeKey.component_lt_iff ha.nul_not_mem hb.nul_not_mem]

theorem recordBytes_scanned {name : String} (h : Accepted name) :
    recordStart ≤ recordBytes name ∧ recordBytes name < CompositeKey.rangeEnd recordStart := by
  have hmax : CompositeKey.maxChar ∉ name.toList := by
    intro hmem
    have hres := (ModuleName.accepted_iff.mp h).2 _ hmem
    exact absurd hres (by decide)
  have hlt := CompositeKey.component_append_lt_maxChar hmax []
  rw [List.append_nil] at hlt
  exact CompositeKey.mem_scan_iff.mpr ⟨_, recordBytes_eq name, hlt⟩

theorem nameOfRecord_recordBytes {name : String} (h : Accepted name) (value : Value) :
    nameOfRecord (.ok (recordBytes name, value)) = .ok name := by
  have hsplit : CompositeKey.split (recordBytes name) = .ok (recordIndex, [name]) :=
    CompositeKey.split_create (recordKey_of_accepted h)
  unfold nameOfRecord
  dsimp only
  rw [hsplit]

end Registry

/-- What a scan for records comes across on a well-formed ledger is records. -/
theorem IsEntry.isRecord_of_scanned {limits : HostLimits} {contents : Key → Option Value}
    {key : Key} {value : Value} (h : IsEntry limits contents key value)
    (hstart : Registry.recordStart ≤ key)
    (hstop : key < CompositeKey.rangeEnd Registry.recordStart) :
    ∃ name, Accepted name ∧ key = Registry.recordBytes name := by
  cases h with
  | record hname hkey => exact ⟨_, hname, hkey⟩
  | guest hname hkey _ _ _ =>
    -- Every key in the range starts with U+0000, and no guest key does.
    obtain ⟨rest, hrest, -⟩ := CompositeKey.mem_scan_iff.mp ⟨hstart, hstop⟩
    rw [hkey] at hrest
    exact absurd hrest (guestKey_ne_nul_cons hname _ _)

/-- Entries under keys of records, as the list of their names. -/
theorem exists_names {entries : List (Key × Value)}
    (h : ∀ e ∈ entries, ∃ name, Accepted name ∧ e.1 = Registry.recordBytes name) :
    ∃ names : List String, (∀ name ∈ names, Accepted name) ∧
      entries.map Prod.fst = names.map Registry.recordBytes := by
  induction entries with
  | nil => exact ⟨[], by simp, rfl⟩
  | cons e rest ih =>
    obtain ⟨name, hname, hkey⟩ := h e List.mem_cons_self
    obtain ⟨names, hnames, hkeys⟩ := ih fun d hd => h d (List.mem_cons_of_mem _ hd)
    refine ⟨name :: names, List.forall_mem_cons.mpr ⟨hname, hnames⟩, ?_⟩
    rw [List.map_cons, List.map_cons, hkey, hkeys]

/-- The name in an item of a scan depends on the key alone. -/
theorem map_nameOfRecord {entries : List (Key × Value)} {names : List String}
    (hnames : ∀ name ∈ names, Accepted name)
    (hkeys : entries.map Prod.fst = names.map Registry.recordBytes) :
    (entries.map fun e => Registry.nameOfRecord (.ok e)) = names.map .ok := by
  have hkey : (fun e : Key × Value => Registry.nameOfRecord (.ok e)) =
      (fun key => Registry.nameOfRecord (.ok (key, []))) ∘ Prod.fst := by
    funext e
    rfl
  rw [hkey, ← List.map_map, hkeys, List.map_map]
  exact List.map_congr_left fun name hname => Registry.nameOfRecord_recordBytes (hnames name hname) []

namespace Registry

/-! ## Names in order -/

/-- Whether names are in strictly ascending order of their bytes. -/
def Ascending (names : List String) : Prop :=
  names.Pairwise fun a b => encodeUtf8 a < encodeUtf8 b

theorem list_inMemory (s : Session MemoryLedger) :
    list s = .ok ((s.ledger.contents.range recordStart (CompositeKey.rangeEnd recordStart)).map
      fun e => nameOfRecord (.ok e)) s := by
  unfold list
  rw [bind_apply, Session.onLedger, CompositeKey.scan_inMemory create_recordIndex]
  show EStateM.Result.ok (((s.ledger.contents.range _ _).map Except.ok).map nameOfRecord) s = _
  rw [List.map_map]
  rfl

/-- **Listings find the records.** -/
theorem list_of_wellFormed {limits : HostLimits} {s : Session MemoryLedger}
    (h : WellFormed limits s.ledger.contents.get?) :
    ∃ names : List String, list s = .ok (names.map .ok) s ∧ Ascending names ∧
      ∀ name, name ∈ names ↔ ∃ bytecode, lookup name s = .ok bytecode s := by
  have hrecords : ∀ e ∈ s.ledger.contents.range recordStart (CompositeKey.rangeEnd recordStart),
      ∃ name, Accepted name ∧ e.1 = recordBytes name := by
    rintro ⟨key, value⟩ he
    obtain ⟨hstart, hstop, hvalue⟩ := SortedMap.mem_range_iff.mp he
    exact (h key value hvalue).isRecord_of_scanned hstart hstop
  obtain ⟨names, hnames, hkeys⟩ := exists_names hrecords
  refine ⟨names, ?_, ?_, fun name => ?_⟩
  · rw [list_inMemory, map_nameOfRecord hnames hkeys]
  · have hsorted := s.ledger.contents.sorted_range recordStart (CompositeKey.rangeEnd recordStart)
    have hpairs : (names.map recordBytes).Pairwise (· < ·) := by
      rw [← hkeys, List.pairwise_map]
      exact hsorted
    rw [List.pairwise_map] at hpairs
    exact hpairs.imp_of_mem fun ha hb hlt =>
      (recordBytes_lt_iff (hnames _ ha) (hnames _ hb)).mp hlt
  · have hmem : name ∈ names ↔ recordBytes name ∈ names.map recordBytes := by
      rw [List.mem_map_of_injective fun a b heq => recordBytes_inj.mp heq]
    rw [hmem, ← hkeys, List.mem_map]
    constructor
    · rintro ⟨⟨key, bytecode⟩, he, hkey : key = recordBytes name⟩
      subst hkey
      obtain ⟨other, hother, hsame : recordBytes name = recordBytes other⟩ := hrecords _ he
      obtain rfl := recordBytes_inj.mp hsame
      obtain ⟨-, -, hrecord⟩ := SortedMap.mem_range_iff.mp he
      exact ⟨bytecode, lookup_eq_ok_iff.mpr ⟨hother, hrecord⟩⟩
    · rintro ⟨bytecode, hlookup⟩
      obtain ⟨hname, hrecord⟩ := lookup_eq_ok_iff.mp hlookup
      obtain ⟨hstart, hstop⟩ := recordBytes_scanned hname
      exact ⟨_, SortedMap.mem_range_iff.mpr ⟨hstart, hstop, hrecord⟩, rfl⟩

end Registry

/-! ## After any history -/

namespace Session

/-- Whether a module is installed under a name. -/
def Installed (s : Session MemoryLedger) (name : String) : Prop :=
  ∃ bytecode, Registry.lookup name s = .ok bytecode s

theorem installed_after_iff {start : Session MemoryLedger} {requests : List Request} {name : String}
    (hempty : start.ledger = ⟨∅⟩) :
    Installed (after requests start) name ↔
      ∃ i bytecode, InstalledAt start requests i name bytecode := by
  unfold Installed
  constructor
  · rintro ⟨bytecode, hlookup⟩
    obtain ⟨-, hrecord⟩ := Registry.lookup_eq_ok_iff.mp hlookup
    obtain ⟨i, hi⟩ := (record_after_iff hempty).mp hrecord
    exact ⟨i, bytecode, hi⟩
  · rintro ⟨i, bytecode, hi⟩
    exact ⟨bytecode, Registry.lookup_eq_ok_iff.mpr ⟨hi.accepted, (record_after_iff hempty).mpr ⟨i, hi⟩⟩⟩

theorem submit_list {r : Request} (hr : r.order = .ok .list) {s : Session MemoryLedger}
    {names : List String} (h : Registry.list s = .ok (names.map .ok) s) :
    submit r s = (.ofPayload (listing names), s) := by
  rw [submit_eq, hr]
  dsimp only [carryOut]
  unfold list
  rw [bind_apply, h]
  dsimp only
  rw [Except.mapM_id_map_ok]
  rfl

/-- What is listed after a history of transactions. -/
structure Listed (start : Session MemoryLedger) (requests : List Request) (names : List String) :
    Prop where
  listed : Registry.list (after requests start) = .ok (names.map .ok) (after requests start)
  ascending : Registry.Ascending names
  mem_iff : ∀ name, name ∈ names ↔ Installed (after requests start) name
  /-- The names are those of the installations that have succeeded. -/
  history : ∀ name, name ∈ names ↔ ∃ i bytecode, InstalledAt start requests i name bytecode
  /-- Neither the order of the installations nor anything else on the ledger matters. -/
  determined : ∀ names', Registry.Ascending names' →
    (∀ name, name ∈ names' ↔ Installed (after requests start) name) → names' = names
  answered : ∀ r : Request, r.function = "list" ∨ r.function = "installedChaincodes" →
    submit r (after requests start) =
      (⟨true, names.flatMap fun name => encodeUtf8 name ++ [0x0A]⟩, after requests start)

theorem exists_list_after {start : Session MemoryLedger} (hempty : start.ledger = ⟨∅⟩)
    (requests : List Request) :
    ∃ names : List String,
      Registry.list (after requests start) = .ok (names.map .ok) (after requests start) ∧
        Registry.Ascending names ∧ ∀ name, name ∈ names ↔ Installed (after requests start) name :=
  Registry.list_of_wellFormed (wellFormed_after hempty requests)

/-- **Listings are exact and in order.** -/
theorem listing_exact (sandbox : Sandbox) (requests : List Request) :
    ∃ names, Listed ⟨sandbox, ⟨∅⟩⟩ requests names := by
  have hempty : (⟨sandbox, ⟨∅⟩⟩ : Session MemoryLedger).ledger = ⟨∅⟩ := rfl
  obtain ⟨names, hlist, hascending, hmem⟩ := exists_list_after hempty requests
  refine ⟨names, hlist, hascending, hmem, fun name => ?_, fun names' hascending' hmem' => ?_,
    fun r hr => ?_⟩
  · rw [hmem, installed_after_iff hempty]
  · refine SortedMap.eq_of_ascending hascending' hascending fun name => ?_
    rw [hmem, hmem']
  · exact submit_list (Request.order_eq_list_iff.mpr hr) hlist

end Session

end LedgerSandbox
