import LedgerSandbox.Ledger.Faulty
import LedgerSandbox.Proofs.Ledger.WholeScan
import LedgerSandbox.Proofs.Transaction.Order

/-!
# Listings on ledgers with faults

A listing reads a scan for records to its end. It succeeds just if the scan delivers all of its
entries and each of them is a record, and then it tells all of their names. Otherwise the first
faulty item of the scan makes the whole listing fail (`Session.submit_list_answer`).

Together with what scans through overlays tell (`Layers.merged_range`), no fault of a ledger
makes a scan or a listing shorter without a failure that says so
(`Session.scans_never_truncate`).
-/

namespace LedgerSandbox

open CompositeKey (create rangeEnd scan)
open Scan (Delivers Reports)

variable {σ : Type}

/-! ## The names in a scan -/

namespace Registry

/-- Whether an entry is a record with the given name. -/
def IsRecord (entry : Key × Value) (name : String) : Prop :=
  ∃ index others, CompositeKey.split entry.1 = .ok (index, name :: others)

theorem nameOfRecord_eq_ok_iff {item : Except LedgerError (Key × Value)} {name : String} :
    nameOfRecord item = .ok name ↔ ∃ entry, item = .ok entry ∧ IsRecord entry name := by
  cases item with
  | error e => exact iff_of_false (fun h => nomatch h) fun ⟨_, h, _⟩ => nomatch h
  | ok entry =>
    have hsame : (∃ other, Except.ok entry = (.ok other : Except LedgerError _) ∧
        IsRecord other name) ↔ IsRecord entry name := by simp
    rw [hsame]
    unfold nameOfRecord IsRecord
    dsimp only
    split
    case h_1 e hsplit => simp [hsplit]
    case h_2 index first others hsplit => simp [hsplit]
    case h_3 index hsplit => simp [hsplit]

/-- Items give names just if they are records of these names. -/
theorem map_nameOfRecord_eq_iff {items : Scan} {names : List String} :
    items.map nameOfRecord = names.map .ok ↔
      ∃ entries, items = entries.map .ok ∧ List.Forall₂ IsRecord entries names := by
  induction items generalizing names with
  | nil => cases names with
    | nil => simp
    | cons name rest => simp
  | cons item items ih => cases names with
    | nil => simp
    | cons name rest =>
      rw [List.map_cons, List.map_cons, List.cons.injEq, nameOfRecord_eq_ok_iff, ih]
      constructor
      · rintro ⟨⟨entry, rfl, hentry⟩, entries, rfl, hentries⟩
        exact ⟨entry :: entries, rfl, .cons hentry hentries⟩
      · rintro ⟨entries, hitems, hrecords⟩
        cases hrecords with
        | @cons entry _ entries _ hentry hentries =>
          obtain ⟨hitem, hrest⟩ := List.cons.inj hitems
          exact ⟨⟨entry, hitem, hentry⟩, entries, hrest, hentries⟩

end Registry

open Registry (IsRecord nameOfRecord recordIndex)

namespace Session

/-! ## Answers to listings -/

/-- How a listing is answered, given the scan for records. -/
inductive ListAnswer (scanned : EStateM.Result LedgerError σ Scan) : Response → Prop
  /-- All entries are records, and all of their names are told. -/
  | whole {entries : List (Key × Value)} {names : List String} : Delivers entries scanned →
    List.Forall₂ IsRecord entries names → ListAnswer scanned (.ofPayload (listing names))
  | refused {e : LedgerError} {s : σ} : scanned = .error e s →
    ListAnswer scanned (.ofFailure (.ledger e))
  /-- The first faulty item is a failure of the ledger. -/
  | broken {before : List (Key × Value)} {names : List String} {e : LedgerError} {after : Scan}
    {s : σ} : scanned = .ok (before.map .ok ++ .error e :: after) s →
    List.Forall₂ IsRecord before names → ListAnswer scanned (.ofFailure (.ledger e))
  /-- The first faulty item is an entry that is no record. -/
  | stray {before : List (Key × Value)} {names : List String} {entry : Key × Value} {after : Scan}
    {s : σ} {failure : Failure} : scanned = .ok (before.map .ok ++ .ok entry :: after) s →
    List.Forall₂ IsRecord before names → nameOfRecord (.ok entry) = .error failure →
    ListAnswer scanned (.ofFailure failure)

theorem ListAnswer.success_of_reports {scanned : EStateM.Result LedgerError σ Scan}
    {response : Response} {e : LedgerError} (h : ListAnswer scanned response)
    (he : Reports e scanned) : response.success = false := by
  cases h with
  | whole hdelivers _ => exact absurd he hdelivers.not_reports
  | refused _ => rfl
  | broken _ _ => rfl
  | stray _ _ _ => rfl

theorem ListAnswer.eq_of_refused {scanned : EStateM.Result LedgerError σ Scan} {response : Response}
    {e : LedgerError} {s : σ} (h : ListAnswer scanned response) (he : scanned = .error e s) :
    response = .ofFailure (.ledger e) := by
  subst he
  cases h with
  | whole hdelivers _ => cases hdelivers
  | refused heq =>
    cases heq
    rfl
  | broken heq _ => cases heq
  | stray heq _ _ => cases heq

variable [Ledger σ]

/-- **Listings are whole or fail.** -/
theorem submit_list_answer {r : Request} (hr : r.order = .ok .list) (s : Session σ) :
    ListAnswer (scan recordIndex [] s.ledger) (submit r s).1 := by
  rw [submit_eq, hr]
  dsimp only [carryOut]
  unfold list Registry.list
  rw [bind_apply, bind_apply, onLedger]
  cases hscan : (scan recordIndex [] s.ledger : EStateM.Result LedgerError σ Scan) with
  | error e l => exact .refused rfl
  | ok items l =>
    rcases Except.exists_eq_map_ok_or_error (items.map nameOfRecord) with
      ⟨names, hnames⟩ | ⟨names, failure, later, hnames⟩
    · obtain ⟨entries, rfl, hentries⟩ := Registry.map_nameOfRecord_eq_iff.mp hnames
      dsimp only [pure_apply]
      rw [hnames, Except.mapM_id_map_ok]
      exact .whole (.mk l) hentries
    · dsimp only [pure_apply]
      rw [hnames, Except.mapM_id_of_error]
      obtain ⟨first, rest, rfl, hfirst, hrest⟩ := List.map_eq_append_iff.mp hnames
      obtain ⟨item, after, rfl, hitem, -⟩ := List.map_eq_cons_iff.mp hrest
      obtain ⟨before, rfl, hbefore⟩ := Registry.map_nameOfRecord_eq_iff.mp hfirst
      cases item with
      | error e =>
        obtain rfl : Failure.ledger e = failure := Except.error.inj hitem
        exact .broken rfl hbefore
      | ok entry => exact .stray rfl hbefore hitem

/-! ## Under overlays -/

/-- Whether a request asks for a listing. -/
def AsksForListing (r : Request) : Prop :=
  r.function = "list" ∨ r.function = "installedChaincodes"

/-- How scans and listings come out on a ledger under overlays, whatever its faults. -/
structure NeverTruncated (l : Layers σ) : Prop where
  range : ∀ start stop, start ≤ stop →
    Layers.Merged l.overlays start stop (Ledger.range start stop l.base) (Ledger.range start stop l)
  composite : ∀ index parts start, create index parts = .ok start →
    Layers.Merged l.overlays start (rangeEnd start) (scan index parts l.base) (scan index parts l)
  /-- A scan for what cannot be a component is refused. -/
  composite_refused : ∀ index parts e, create index parts = .error e →
    Reports e (scan index parts l)
  listed : ∀ sandbox r, AsksForListing r →
    ListAnswer (scan recordIndex [] l) (submit r ⟨sandbox, l⟩).1
  /-- A failure of the ledger makes the listing fail, and under an overlay for this very
  reason. -/
  list_failed : ∀ sandbox r, AsksForListing r → ∀ e, Reports e (scan recordIndex [] l.base) →
    (submit r ⟨sandbox, l⟩).1.success = false ∧
      (l.overlays ≠ [] → (submit r ⟨sandbox, l⟩).1 = .ofFailure (.ledger e))

/-- **Scans never truncate silently**: neither ranges, nor scans for components, nor listings. -/
theorem scans_never_truncate (l : Layers σ) : NeverTruncated l := by
  have hlisted : ∀ sandbox r, AsksForListing r →
      ListAnswer (scan recordIndex [] l) (submit r ⟨sandbox, l⟩).1 := by
    intro sandbox r hr
    exact submit_list_answer (Request.order_eq_list_iff.mpr hr) ⟨sandbox, l⟩
  refine {
    range := fun start stop h => Layers.merged_range h l
    composite := fun index parts start h => Layers.merged_scan h l
    composite_refused := fun index parts e h => ?_
    listed := hlisted
    list_failed := fun sandbox r hr e he => ?_ }
  · unfold scan
    rw [h]
    exact .refused _
  · have hmerged : Layers.Merged l.overlays _ _ (scan recordIndex [] l.base) (scan recordIndex [] l) :=
      Layers.merged_scan rfl l
    refine ⟨(hlisted sandbox r hr).success_of_reports (hmerged.failed e he), fun hne => ?_⟩
    obtain ⟨t, ht⟩ := hmerged.failed_whole e he hne
    exact (hlisted sandbox r hr).eq_of_refused ht

/-- The scan breaks off after the first of two records, and the overlay deletes both. -/
example :
    let records : MemoryLedger := ⟨SortedMap.ofList
      [(Registry.recordBytes "a", []), (Registry.recordBytes "b", [])]⟩
    let deletes : Overlay := SortedMap.ofList
      [(Registry.recordBytes "a", none), (Registry.recordBytes "b", none)]
    (submit ⟨"list", []⟩
      ⟨{ config := {} }, (⟨⟨records, { failAfterEntries := some 1 }⟩, [deletes]⟩ :
        Layers (Faulty MemoryLedger))⟩).1 =
      .ofFailure (.ledger (.backend "injected iterator failure")) := by
  decide +kernel

end Session

end LedgerSandbox
