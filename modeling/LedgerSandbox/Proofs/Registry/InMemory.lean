import LedgerSandbox.Proofs.Registry.WritePhase

/-!
# The registry on a ledger in memory

A ledger in memory refuses the empty key only, which the registry never uses. There an
installation is all or nothing: it fails and leaves the ledger as it is, or it makes all of
the planned changes under a name that had no record before (`Registry.install_inMemory`). A
look-up finds the record of the name (`Registry.lookup_inMemory`).
-/

namespace LedgerSandbox

/-! ## Changes in memory -/

namespace MemoryLedger

theorem finalState_get (key : Key) (l : MemoryLedger) : finalState (Ledger.get key l) = l := by
  rw [get_apply]
  split
  · rfl
  · rfl

theorem get_of_ne_nil {key : Key} (h : key ≠ []) (l : MemoryLedger) :
    Ledger.get key l = .ok (l.contents.get? key) l := by
  rw [get_apply, if_neg h]

theorem eq_of_readOnly {l k : MemoryLedger} (h : ReadOnly l k) : k = l :=
  h.observe ⟨id, finalState_get⟩

/-- Changes of keys that are not empty are all made. -/
theorem applyAll_ok {changes : List Change} (h : ∀ c ∈ changes, c.1 ≠ []) (l : MemoryLedger) :
    ∃ k, Layers.applyAll changes l = .ok () k ∧
      k.contents.get? = applied l.contents.get? changes := by
  induction changes generalizing l with
  | nil => exact ⟨l, rfl, rfl⟩
  | cons c rest ih =>
    have hkey : c.1 ≠ [] := h c List.mem_cons_self
    have hrest : ∀ d ∈ rest, d.1 ≠ [] := fun d hd => h d (List.mem_cons_of_mem _ hd)
    obtain ⟨k, hk, hcontents⟩ := ih hrest ⟨Overlay.applyChange l.contents c.1 c.2⟩
    refine ⟨k, ?_, ?_⟩
    · rw [Layers.applyAll_cons, bind_apply, write_apply, if_neg hkey]
      exact hk
    · rw [hcontents, Overlay.get?_applyChange]
      rfl

end MemoryLedger

namespace Registry

theorem recordBytes_ne_nil (name : String) : recordBytes name ≠ [] := by
  simp [recordBytes]

theorem recordBytes_inj {a b : String} : recordBytes a = recordBytes b ↔ a = b := by
  constructor
  · intro h
    simp only [recordBytes, CompositeKey.component, List.append_cancel_left_eq,
      List.append_cancel_right_eq] at h
    exact encodeUtf8_injective h
  · rintro rfl
    rfl

variable {name : String}

/-! ## Names that are not accepted -/

section

variable {σ : Type} [Ledger σ]

theorem install_rejected (h : ¬ ModuleName.Accepted name) (bytecode : Bytes) (args : List Bytes)
    (s : Session σ) : ∃ failure, install name bytecode args s = .error failure s := by
  unfold install
  cases hvalid : ModuleName.validate name with
  | ok _ => exact absurd hvalid h
  | error failure => exact ⟨failure, rfl⟩

theorem lookup_rejected (h : ¬ ModuleName.Accepted name) (s : Session σ) :
    lookup name s = .error (.notFound name) s := by
  unfold lookup
  cases hvalid : ModuleName.validate name with
  | ok _ => exact absurd hvalid h
  | error failure => rfl

end

/-! ## Look-ups and installations -/

variable {s : Session MemoryLedger}

theorem lookup_inMemory (h : ModuleName.Accepted name) (s : Session MemoryLedger) :
    lookup name s =
      match s.ledger.contents.get? (recordBytes name) with
      | some bytecode => .ok bytecode s
      | none => .error (.notFound name) s := by
  have hvalid : ModuleName.validate name = .ok () := h
  have hkey : recordKey name = .ok (recordBytes name) := recordKey_of_accepted h
  unfold lookup
  simp only [hvalid, findKey, hkey, pure_bind]
  rw [bind_apply, Session.onLedger, MemoryLedger.get_of_ne_nil (recordBytes_ne_nil name)]
  dsimp only
  cases s.ledger.contents.get? (recordBytes name) with
  | none => rfl
  | some bytecode => rfl

theorem lookup_eq_ok_iff {bytecode : Bytes} :
    lookup name s = .ok bytecode s ↔
      ModuleName.Accepted name ∧ s.ledger.contents.get? (recordBytes name) = some bytecode := by
  by_cases hname : ModuleName.Accepted name
  · rw [lookup_inMemory hname]
    cases s.ledger.contents.get? (recordBytes name) with
    | none => simp
    | some found => simp [hname]
  · simp [lookup_rejected hname, hname]

theorem lookup_eq_notFound_iff :
    lookup name s = .error (.notFound name) s ↔
      (ModuleName.Accepted name → s.ledger.contents.get? (recordBytes name) = none) := by
  by_cases hname : ModuleName.Accepted name
  · rw [lookup_inMemory hname]
    cases s.ledger.contents.get? (recordBytes name) with
    | none => simp
    | some found => simp [hname]
  · simp [lookup_rejected hname, hname]

/-- A name with a record is taken: nothing is compiled and nothing is run. -/
theorem install_taken (h : ModuleName.Accepted name) {old : Value}
    (hrecord : s.ledger.contents.get? (recordBytes name) = some old) (bytecode : Bytes)
    (args : List Bytes) : install name bytecode args s = .error (.alreadyExists name) s := by
  rw [install_accepted h, MemoryLedger.get_of_ne_nil (recordBytes_ne_nil name), hrecord]

/-- **All or nothing.** An installation fails without an effect, or it makes all of the
planned changes, under a name without a record. -/
theorem install_inMemory (name : String) (bytecode : Bytes) (args : List Bytes)
    (s : Session MemoryLedger) :
    (∃ failure t, install name bytecode args s = .error failure t ∧ t.ledger = s.ledger) ∨
      ∃ t, install name bytecode args s = .ok () t ∧ ModuleName.Accepted name ∧
        s.ledger.contents.get? (recordBytes name) = none ∧
        t.ledger.contents.get? =
          applied s.ledger.contents.get? (plannedChanges name bytecode args s) := by
  rcases install_phases name bytecode args s with
    ⟨failure, t, hfail, hread⟩ | ⟨t, hsent, hread, hname⟩
  · exact .inl ⟨failure, t, hfail, MemoryLedger.eq_of_readOnly hread⟩
  · have hkeys : ∀ c ∈ plannedChanges name bytecode args s, c.1 ≠ [] := by
      intro c hc
      rcases List.mem_append.mp hc with hc | hc
      · obtain ⟨key, hkey, -, -⟩ :=
          isGuestChange_stagedWrites name bytecode args s (Overlay.mem_of_mem_replay hc)
        rw [hkey]
        exact guestKey_ne_nil name key
      · rw [List.mem_singleton.mp hc]
        exact recordBytes_ne_nil name
    obtain ⟨l, happlied, hcontents⟩ := MemoryLedger.applyAll_ok hkeys t.ledger
    have hok : install name bytecode args s = .ok () ⟨t.sandbox, l⟩ := by
      rw [hsent, Session.onLedger, happlied]
    refine .inr ⟨⟨t.sandbox, l⟩, hok, hname, ?_, ?_⟩
    · -- Had there been a record, the installation would have stopped at it.
      cases hrecord : s.ledger.contents.get? (recordBytes name) with
      | none => rfl
      | some old =>
        rw [install_taken hname hrecord] at hok
        cases hok
    · rw [← MemoryLedger.eq_of_readOnly hread]
      exact hcontents

end Registry

end LedgerSandbox
