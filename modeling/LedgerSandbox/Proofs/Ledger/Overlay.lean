import LedgerSandbox.Proofs.Except
import LedgerSandbox.Proofs.Ledger.Dependable

/-!
# Seeing through overlays

Over a ledger in memory, an overlay shows its own changes, and elsewhere what lies below it
(`Overlay.covering`). A stack of overlays shows at its top what is seen through all of them
(`Layers.contents`), and this map tells what every operation at the top does: reads and scans
answer from it (`Layers.get_eq`, `Layers.scanThrough_ok`), a write changes it at one key
(`Layers.contents_changed`), and a commit takes the top overlay off without changing it
(`Layers.contents_committed`).
-/

namespace LedgerSandbox

/-! ## Seeing through an overlay -/

/-- Whether a list of entries is the part of a map between two bounds, in key order. -/
structure IsRange (m : Key → Option Value) (start stop : Key) (entries : List (Key × Value)) :
    Prop where
  ascending : entries.Pairwise fun a b => a.1 < b.1
  mem_iff : ∀ key value, (key, value) ∈ entries ↔ start ≤ key ∧ key < stop ∧ m key = some value

theorem IsRange.eq_nil {m : Key → Option Value} {start stop : Key} {entries : List (Key × Value)}
    (h : IsRange m start stop entries) (hle : stop ≤ start) : entries = [] := by
  rw [List.eq_nil_iff_forall_not_mem]
  rintro ⟨key, value⟩ hmem
  obtain ⟨hstart, hstop, -⟩ := (h.mem_iff key value).mp hmem
  have hlt : start < stop := Std.lt_of_le_of_lt hstart hstop
  exact absurd hlt (List.not_lt.mpr hle)

namespace Overlay

/-- What is seen through an overlay: its changes, and what lies below it elsewhere. -/
def covering (o : Overlay) (below : Key → Option Value) : Key → Option Value :=
  fun key => (o.get? key).getD (below key)

@[simp] theorem covering_empty (below : Key → Option Value) : (∅ : Overlay).covering below = below := rfl

theorem covering_insert (o : Overlay) (below : Key → Option Value) (key : Key) (change : Option Value) :
    covering (o.insert key change) below = Function.update (o.covering below) key change := by
  funext key'
  unfold covering
  rw [SortedMap.get?_insert, Function.update_apply]
  by_cases hkey : key' = key
  · rw [if_pos hkey, if_pos hkey]
    rfl
  · rw [if_neg hkey, if_neg hkey]

/-- The changes of an overlay, made one by one, give what is seen through it. -/
theorem applied_entries (o : Overlay) (below : Key → Option Value) :
    applied below o.entries = o.covering below := by
  funext key
  unfold covering
  cases hget : o.get? key with
  | none =>
    refine applied_of_not_mem fun c hc heq => ?_
    have hfound : o.get? c.1 = some c.2 := SortedMap.mem_entries_iff.mp hc
    rw [heq, hget] at hfound
    cases hfound
  | some change =>
    have hmem : (key, change) ∈ o.entries := SortedMap.mem_entries_iff.mpr hget
    exact applied_of_mem (keys_ne_of_ascending o.sorted) hmem

theorem get?_foldl_applyChange (changes : List Change) (m : SortedMap Value) :
    (changes.foldl (fun m c => applyChange m c.1 c.2) m).get? = applied m.get? changes := by
  induction changes generalizing m with
  | nil => rfl
  | cons c rest ih =>
    rw [List.foldl_cons, ih, get?_applyChange]
    rfl

/-- Merging an overlay into a part of a map gives that part of what is seen through it. -/
theorem isRange_merge {m : Key → Option Value} {start stop : Key} {below : List (Key × Value)}
    (h : IsRange m start stop below) (o : Overlay) :
    IsRange (o.covering m) start stop (o.merge start stop below).entries where
  ascending := (o.merge start stop below).sorted
  mem_iff key value := by
    have hbelow : (SortedMap.ofList below).get? key = some value ↔
        start ≤ key ∧ key < stop ∧ m key = some value := by
      rw [← SortedMap.mem_entries_iff, SortedMap.entries_ofList h.ascending, h.mem_iff]
    have hkeys := keys_ne_of_ascending (o.sorted_range start stop)
    rw [SortedMap.mem_entries_iff, merge, get?_foldl_applyChange]
    -- The merged changes are those of keys within the bounds.
    by_cases hchange : ∃ c ∈ o.range start stop, c.1 = key
    · obtain ⟨⟨_, change⟩, hc, rfl⟩ := hchange
      obtain ⟨hstart, hstop, hget⟩ := SortedMap.mem_range_iff.mp hc
      rw [applied_of_mem hkeys hc, covering, hget, Option.getD_some]
      exact ⟨fun hvalue => ⟨hstart, hstop, hvalue⟩, fun hvalue => hvalue.2.2⟩
    · rw [applied_of_not_mem fun c hc heq => hchange ⟨c, hc, heq⟩, hbelow]
      refine and_congr_right fun hstart => and_congr_right fun hstop => ?_
      cases hget : o.get? key with
      | none => rw [covering, hget, Option.getD_none]
      | some change =>
        have hc : (key, change) ∈ o.range start stop :=
          SortedMap.mem_range_iff.mpr ⟨hstart, hstop, hget⟩
        exact absurd ⟨_, hc, rfl⟩ hchange

end Overlay

/-! ## The top of a stack -/

namespace Layers

/-- What a stack shows at its top. -/
def contents (l : Layers MemoryLedger) : Key → Option Value :=
  l.overlays.foldr Overlay.covering l.base.contents.get?

/-- Whether no overlay holds a change of the empty key, which would not be accepted at the
bottom. -/
def Committable (l : Layers MemoryLedger) : Prop := ∀ o ∈ l.overlays, ∀ c ∈ o.entries, c.1 ≠ []

/-- The stack after a change at its top. -/
def changed (l : Layers MemoryLedger) (c : Change) : Layers MemoryLedger :=
  match l.overlays with
  | [] => { l with base := ⟨Overlay.applyChange l.base.contents c.1 c.2⟩ }
  | o :: below => { l with overlays := o.insert c.1 c.2 :: below }

variable {l : Layers MemoryLedger}

theorem getD_find? (key : Key) (overlays : List Overlay) (m : Key → Option Value) :
    (Overlay.find? key overlays).getD (m key) = overlays.foldr Overlay.covering m key := by
  induction overlays with
  | nil => rfl
  | cons o below ih =>
    rw [List.foldr_cons, Overlay.covering, ← ih, Overlay.find?]
    cases o.get? key with
    | none => rfl
    | some change => rfl

theorem get_eq {key : Key} (hkey : key ≠ []) (l : Layers MemoryLedger) :
    Ledger.get key l = .ok (l.contents key) l := by
  rw [get_apply, contents, ← getD_find?]
  cases Overlay.find? key l.overlays with
  | some found => rfl
  | none =>
    dsimp only [onBase]
    rw [MemoryLedger.get_apply, if_neg hkey]
    rfl

theorem write_eq {key : Key} (hkey : key ≠ []) (change : Option Value) (l : Layers MemoryLedger) :
    Ledger.write key change l = .ok () (l.changed (key, change)) := by
  obtain ⟨base, overlays⟩ := l
  cases overlays with
  | cons o below =>
    cases change with
    | some value => rfl
    | none => rfl
  | nil =>
    rw [write_onBase, onBase, MemoryLedger.write_apply, if_neg hkey]
    rfl

theorem contents_changed (l : Layers MemoryLedger) (c : Change) :
    (l.changed c).contents = Function.update l.contents c.1 c.2 := by
  unfold changed contents
  cases l.overlays with
  | nil => exact Overlay.get?_applyChange l.base.contents c.1 c.2
  | cons o below => exact Overlay.covering_insert o _ c.1 c.2

theorem length_changed (l : Layers MemoryLedger) (c : Change) :
    (l.changed c).overlays.length = l.overlays.length := by
  unfold changed
  cases l.overlays with
  | nil => rfl
  | cons o below => rfl

theorem Committable.changed (h : Committable l) {c : Change} (hkey : c.1 ≠ []) :
    Committable (l.changed c) := by
  obtain ⟨base, overlays⟩ := l
  unfold Layers.changed
  cases overlays with
  | nil => exact h
  | cons o below =>
    intro o' ho' d hd
    rcases List.mem_cons.mp ho' with rfl | ho'
    · rcases SortedMap.mem_insertIn hd with rfl | hd
      · exact hkey
      · exact h o List.mem_cons_self d hd
    · exact h o' (List.mem_cons_of_mem _ ho') d hd

theorem scanThrough_ok (start stop : Key) (overlays : List Overlay) (base : MemoryLedger) :
    ∃ entries, scanThrough start stop overlays base = .ok (entries.map .ok) base ∧
      IsRange (overlays.foldr Overlay.covering base.contents.get?) start stop entries := by
  induction overlays with
  | nil =>
    refine ⟨base.contents.range start stop, rfl, base.contents.sorted_range start stop, ?_⟩
    exact fun key value => SortedMap.mem_range_iff
  | cons o below ih =>
    obtain ⟨entries, hscan, hrange⟩ := ih
    have hmerged := Overlay.isRange_merge hrange o
    rw [scanThrough]
    by_cases hlt : stop < start
    · -- The layers below are not asked, and would have nothing to tell.
      have hnil := hmerged.eq_nil (List.le_of_lt hlt)
      rw [hnil] at hmerged
      exact ⟨[], by rw [if_pos hlt]; rfl, hmerged⟩
    · refine ⟨_, ?_, hmerged⟩
      rw [if_neg hlt, bind_apply, hscan]
      dsimp only
      rw [Scan.entries, Except.mapM_id_map_ok]
      rfl

/-! ### Many changes -/

/-- The stack after some changes at its top, the first change first. -/
def changedAll (l : Layers MemoryLedger) (changes : List Change) : Layers MemoryLedger :=
  changes.foldl changed l

theorem applyAll_eq {changes : List Change} (h : ∀ c ∈ changes, c.1 ≠ [])
    (l : Layers MemoryLedger) : applyAll changes l = .ok () (l.changedAll changes) := by
  induction changes generalizing l with
  | nil => rfl
  | cons c rest ih =>
    rw [applyAll_cons, bind_apply, write_eq (h c List.mem_cons_self)]
    exact ih (fun d hd => h d (List.mem_cons_of_mem _ hd)) (l.changed c)

theorem contents_changedAll (l : Layers MemoryLedger) (changes : List Change) :
    (l.changedAll changes).contents = applied l.contents changes := by
  induction changes generalizing l with
  | nil => rfl
  | cons c rest ih =>
    show ((l.changed c).changedAll rest).contents = _
    rw [ih, contents_changed]
    rfl

theorem length_changedAll (l : Layers MemoryLedger) (changes : List Change) :
    (l.changedAll changes).overlays.length = l.overlays.length := by
  induction changes generalizing l with
  | nil => rfl
  | cons c rest ih => exact (ih (l.changed c)).trans (length_changed l c)

theorem Committable.changedAll (h : Committable l) {changes : List Change}
    (hkeys : ∀ c ∈ changes, c.1 ≠ []) : Committable (l.changedAll changes) := by
  induction changes generalizing l with
  | nil => exact h
  | cons c rest ih =>
    exact ih (h.changed (hkeys c List.mem_cons_self)) fun d hd => hkeys d (List.mem_cons_of_mem _ hd)

theorem commit_eq {base : MemoryLedger} {o : Overlay} {below : List Overlay}
    (h : ∀ c ∈ o.entries, c.1 ≠ []) :
    commit (⟨base, o :: below⟩ : Layers MemoryLedger) =
      .ok () (changedAll ⟨base, below⟩ o.entries).stage := by
  unfold commit
  dsimp only
  rw [applyAll_eq h]

/-- A commit moves what the top shows one layer down. -/
theorem contents_committed (l : Layers MemoryLedger) (o : Overlay) :
    (l.changedAll o.entries).contents = contents ⟨l.base, o :: l.overlays⟩ := by
  rw [contents_changedAll, Overlay.applied_entries]
  rfl

end Layers

end LedgerSandbox
