import LedgerSandbox.Proofs.Ledger.CompositeScan
import LedgerSandbox.Proofs.Ledger.Overlay

/-!
# Whole scans

A scan may be refused, and it may go wrong after any number of entries. Whoever reads it to its
end either learns of a failure (`Scan.Reports`) or gets all of the entries (`Scan.Delivers`), and
never both (`Scan.delivers_or_reports`, `Scan.Delivers.not_reports`).

Through a stack of overlays a scan stays honest, whatever ledger is at the bottom
(`Layers.merged_range`). If the scan below delivers its entries, then the scan through the
overlays delivers what is seen through them in the whole of the range. If the scan below reports
a failure, then so does the scan through the overlays, even where these would hide every entry
that is missing.
-/

namespace LedgerSandbox

variable {σ : Type}

/-! ## What a scan tells -/

namespace Scan

/-- Whether a scan delivers some entries and no failure. -/
inductive Delivers (entries : List (Key × Value)) : EStateM.Result LedgerError σ Scan → Prop
  | mk (s : σ) : Delivers entries (.ok (entries.map .ok) s)

/-- Whether the first failure that a scan reports is the given one. -/
inductive Reports (e : LedgerError) : EStateM.Result LedgerError σ Scan → Prop
  | refused (s : σ) : Reports e (.error e s)
  /-- The scan goes wrong after some entries. -/
  | broken (before : List (Key × Value)) (after : Scan) (s : σ) :
    Reports e (.ok (before.map .ok ++ .error e :: after) s)

theorem delivers_or_reports (r : EStateM.Result LedgerError σ Scan) :
    (∃ entries, Delivers entries r) ∨ ∃ e, Reports e r := by
  cases r with
  | error e s => exact .inr ⟨e, .refused s⟩
  | ok scan s =>
    rcases Except.exists_eq_map_ok_or_error scan with ⟨entries, rfl⟩ | ⟨before, e, after, rfl⟩
    · exact .inl ⟨entries, .mk s⟩
    · exact .inr ⟨e, .broken before after s⟩

variable {entries : List (Key × Value)} {e : LedgerError} {l : Layers σ}
  {action : EStateM LedgerError σ Scan}

theorem Delivers.not_reports {r : EStateM.Result LedgerError σ Scan} (h : Delivers entries r) :
    ¬ Reports e r := by
  intro he
  cases h with
  | mk s =>
    generalize hscan : entries.map Except.ok = scan at he
    cases he with
    | broken before after =>
      have hmem : .error e ∈ entries.map Except.ok := by
        rw [hscan]
        exact List.mem_append_right _ List.mem_cons_self
      obtain ⟨entry, -, hentry⟩ := List.mem_map.mp hmem
      cases hentry

theorem Delivers.onBase (h : Delivers entries (action l.base)) :
    Delivers entries (Layers.onBase action l) := by
  unfold Layers.onBase
  generalize action l.base = r at h
  cases h
  exact .mk _

theorem Reports.onBase (h : Reports e (action l.base)) : Reports e (Layers.onBase action l) := by
  unfold Layers.onBase
  generalize action l.base = r at h
  cases h
  case refused => exact .refused _
  case broken => exact .broken _ _ _

end Scan

open Scan (Delivers Reports)

namespace Layers

variable [Ledger σ] {start stop : Key} {entries : List (Key × Value)} {e : LedgerError} {base : σ}

/-! ## Scans through overlays -/

/-- The entries of a range with the changes of overlays merged into them, those of the lowest
overlay first. -/
def mergedThrough (start stop : Key) (overlays : List Overlay) (entries : List (Key × Value)) :
    List (Key × Value) :=
  overlays.foldr (fun o below => (o.merge start stop below).entries) entries

/-- Merging overlays into the whole of a range gives the whole of what is seen through them. -/
theorem isRange_mergedThrough {m : Key → Option Value} (h : IsRange m start stop entries)
    (overlays : List Overlay) :
    IsRange (overlays.foldr Overlay.covering m) start stop
      (mergedThrough start stop overlays entries) := by
  induction overlays with
  | nil => exact h
  | cons o below ih => exact Overlay.isRange_merge ih o

theorem scanThrough_cons (h : start ≤ stop) (o : Overlay) (below : List Overlay) :
    scanThrough (σ := σ) start stop (o :: below) = do
      match Scan.entries (← scanThrough start stop below) with
      | .error e => throw e
      | .ok entries => return (o.merge start stop entries).entries.map .ok := by
  rw [scanThrough]
  exact if_neg (List.not_lt.mpr h)

theorem scanThrough_delivers (h : start ≤ stop) (hbase : Delivers entries (Ledger.range start stop base))
    (overlays : List Overlay) :
    Delivers (mergedThrough start stop overlays entries) (scanThrough start stop overlays base) := by
  induction overlays with
  | nil => exact hbase
  | cons o below ih =>
    rw [scanThrough_cons h, bind_apply]
    generalize scanThrough start stop below base = r at ih
    cases ih
    dsimp only
    rw [Scan.entries, Except.mapM_id_map_ok]
    exact .mk _

/-- An overlay passes a failure of the layers below on, as a failure of the whole scan. -/
theorem scanThrough_cons_reports (h : start ≤ stop) {below : List Overlay}
    (hbelow : Reports e (scanThrough start stop below base)) (o : Overlay) :
    ∃ t, scanThrough start stop (o :: below) base = .error e t := by
  rw [scanThrough_cons h, bind_apply]
  generalize scanThrough start stop below base = r at hbelow
  cases hbelow with
  | refused t => exact ⟨t, rfl⟩
  | broken before after t =>
    dsimp only
    rw [Scan.entries, Except.mapM_id_of_error]
    exact ⟨t, rfl⟩

theorem scanThrough_reports (h : start ≤ stop) (hbase : Reports e (Ledger.range start stop base))
    (overlays : List Overlay) : Reports e (scanThrough start stop overlays base) := by
  induction overlays with
  | nil => exact hbase
  | cons o below ih =>
    obtain ⟨t, ht⟩ := scanThrough_cons_reports h ih o
    rw [ht]
    exact .refused t

/-! ## What a scan through overlays tells -/

/-- How a scan through overlays comes out, given how it comes out below them. -/
structure Merged (overlays : List Overlay) (start stop : Key)
    (below : EStateM.Result LedgerError σ Scan)
    (through : EStateM.Result LedgerError (Layers σ) Scan) : Prop where
  /-- If the entries below are all that there are in the range, then those delivered are all that
  are seen through the overlays. -/
  complete : ∀ entries, Delivers entries below → ∃ merged, Delivers merged through ∧
    ∀ m, IsRange m start stop entries → IsRange (overlays.foldr Overlay.covering m) start stop merged
  failed : ∀ e, Reports e below → Reports e through
  /-- Not even the first entries are delivered through an overlay. -/
  failed_whole : ∀ e, Reports e below → overlays ≠ [] → ∃ t, through = .error e t

/-- **Scans do not truncate.** -/
theorem merged_range (h : start ≤ stop) (l : Layers σ) :
    Merged l.overlays start stop (Ledger.range start stop l.base) (Ledger.range start stop l) where
  complete entries hbase :=
    ⟨_, (scanThrough_delivers h hbase l.overlays).onBase, fun _ hm => isRange_mergedThrough hm _⟩
  failed _ hbase := (scanThrough_reports h hbase l.overlays).onBase
  failed_whole e hbase hne := by
    obtain ⟨base, overlays⟩ := l
    obtain ⟨o, below, rfl⟩ := List.exists_cons_of_ne_nil hne
    obtain ⟨t, ht⟩ := scanThrough_cons_reports h (scanThrough_reports h hbase below) o
    refine ⟨⟨t, o :: below⟩, ?_⟩
    show onBase (scanThrough start stop (o :: below)) ⟨base, o :: below⟩ = _
    rw [onBase, ht]

/-- A scan for components is one of a range. -/
theorem merged_scan {index : String} {parts : List String}
    (h : CompositeKey.create index parts = .ok start) (l : Layers σ) :
    Merged l.overlays start (CompositeKey.rangeEnd start) (CompositeKey.scan index parts l.base)
      (CompositeKey.scan index parts l) := by
  have hlt := (CompositeKey.mem_scan_iff.mpr ⟨[], (List.append_nil start).symm, by decide⟩).2
  unfold CompositeKey.scan
  rw [h]
  exact merged_range (List.le_of_lt hlt) l

end Layers

end LedgerSandbox
