import LedgerSandbox.Proofs.Ledger.View
import LedgerSandbox.Proofs.SortedMap
import Mathlib.Data.List.Induction

/-!
# What an overlay buffers

An overlay that has received a history of changes holds the last change of every key that
occurs in it, in ascending key order (`Overlay.lastChanges_replay`). `Staged` carries this
through a run on an overlay: the overlay holds what the writes issued so far come down to,
and the ledger below it has been read, but not written.
-/

namespace LedgerSandbox

/-- The last change of a key in a history. -/
def lastChange (key : Key) (history : List Change) : Option (Option Value) :=
  SortedMap.lookupIn key history.reverse

/-- What a history comes down to: the keys in it, each of them once and in ascending order,
with their last changes. -/
structure LastChanges (history changes : List Change) : Prop where
  ascending : changes.Pairwise fun a b => a.1 < b.1
  mem_iff : ∀ key change, (key, change) ∈ changes ↔ lastChange key history = some change

namespace Overlay

/-- The overlay that buffers a history of changes. -/
def replay (history : List Change) : Overlay :=
  history.foldl (fun o c => o.insert c.1 c.2) ∅

theorem replay_concat (history : List Change) (c : Change) :
    replay (history ++ [c]) = (replay history).insert c.1 c.2 := by
  unfold replay
  rw [List.foldl_append]
  rfl

theorem get?_replay (history : List Change) (key : Key) :
    (replay history).get? key = lastChange key history := by
  -- The change at the end is the last one of its key, and the one inserted last.
  induction history using List.reverseRecOn with
  | nil => rfl
  | append_singleton history c ih =>
    rw [replay_concat, SortedMap.get?_insert, ih, lastChange, lastChange, List.reverse_concat,
      SortedMap.lookupIn]
    by_cases hkey : c.1 = key
    · rw [if_pos hkey, if_pos hkey.symm]
    · rw [if_neg hkey, if_neg (Ne.symm hkey)]

/-- **The last write wins.** An overlay holds what its history comes down to. -/
theorem lastChanges_replay (history : List Change) :
    LastChanges history (replay history).entries where
  ascending := (replay history).sorted
  mem_iff key change := by rw [SortedMap.mem_entries_iff, get?_replay]

theorem mem_of_mem_replay {history : List Change} {c : Change}
    (h : c ∈ (replay history).entries) : c ∈ history := by
  have hlast := ((lastChanges_replay history).mem_iff c.1 c.2).mp h
  exact List.mem_reverse.mp (SortedMap.mem_of_lookupIn hlast)

end Overlay

/-! ## Runs on an overlay -/

variable {σ : Type} [Ledger σ]

/-- A recorded ledger with one overlay, and the same without the record: the overlay holds
what the record comes down to, which are changes that the guest may make, and the ledger
below has been read at most. -/
structure Staged (name : String) (limits : HostLimits) (base : σ) (r : Recorded (Layers σ))
    (l : Layers σ) : Prop where
  inner : r.inner = l
  base : ReadOnly base l.base
  overlays : l.overlays = [Overlay.replay r.changes]
  guest : ∀ c ∈ r.changes, IsGuestChange name limits c

namespace Staged

variable {name : String} {limits : HostLimits} {base : σ}

theorem get (key : Key) :
    Simulates (Staged name limits base) (Ledger.get key) (Ledger.get key) := by
  rintro ⟨l, writes⟩ _ ⟨rfl, hbase, hoverlays, hguest⟩
  have hread := hbase.get key
  show SameResult _ (Recorded.onInner (Ledger.get key) ⟨l, writes⟩) (Ledger.get key l)
  unfold Recorded.onInner
  dsimp only at hbase hoverlays hread ⊢
  rw [Layers.get_apply]
  cases Overlay.find? key l.overlays with
  | some found => exact .ok found ⟨rfl, hbase, hoverlays, hguest⟩
  | none =>
    dsimp only
    unfold Layers.onBase
    cases hres : (Ledger.get key l.base : EStateM.Result LedgerError σ (Option Value)) with
    | ok found s =>
      rw [hres] at hread
      exact .ok found ⟨rfl, hread, hoverlays, hguest⟩
    | error e s =>
      rw [hres] at hread
      exact .error e ⟨rfl, hread, hoverlays, hguest⟩

theorem buffer {key : Key} {change : Option Value} (h : IsGuestChange name limits (key, change)) :
    Simulates (Staged name limits base)
      (Recorded.receive key change (Layers.buffer key change)) (Layers.buffer key change) := by
  rintro ⟨⟨l, overlays⟩, writes⟩ _ ⟨rfl, hbase, hoverlays, hguest⟩
  dsimp only at hbase hoverlays
  unfold Recorded.receive Layers.buffer
  rw [hoverlays]
  refine .ok () ⟨rfl, hbase, ?_, fun c hc => ?_⟩
  · rw [Recorded.changes_concat _ ⟨⟨l, overlays⟩, writes⟩, Overlay.replay_concat]
    rfl
  · rw [Recorded.changes_concat _ ⟨⟨l, overlays⟩, writes⟩] at hc
    rcases List.mem_append.mp hc with hc | hc
    · exact hguest c hc
    · rw [List.mem_singleton.mp hc]
      exact h

theorem ledgerSim (name : String) (limits : HostLimits) (base : σ) :
    LedgerSim name limits (Staged name limits base) where
  get _ _ := get _
  put key _ hkey hvalue := buffer ⟨key, rfl, hkey, fun _ h => Option.some.inj h ▸ hvalue⟩
  delete key hkey := buffer ⟨key, rfl, hkey, fun _ h => nomatch h⟩

end Staged

end LedgerSandbox
