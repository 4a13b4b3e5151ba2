import LedgerSandbox.Proofs.Ledger.Dependable
import LedgerSandbox.Proofs.Registry.Install
import LedgerSandbox.Proofs.Sandbox.Failures

/-!
# The write phase of an installation

An installation that gets as far as to write sends its ledger the planned changes, one by
one, until one is refused (`Registry.install_reception`). The ledger sees no transaction.
What a refusal leaves behind are the changes accepted before it, and nothing takes them
back (`Registry.failed_install_contents`).

The record of the module is the last of the changes. It therefore marks a completed
installation: wherever it stands, all writes of the initializer are in place
(`Registry.record_is_commit_marker`).
-/

namespace LedgerSandbox

variable {σ : Type} [Ledger σ]

namespace Registry

/-! ## What the ledger receives -/

/-- What the ledger receives from an installation: nothing, some of the planned changes up
to one that it refuses, or all of them. -/
inductive Reception (name : String) (bytecode : Bytes) (args : List Bytes) (s : Session σ) :
    EStateM.Result Failure (Session (Recorded σ)) Unit → Prop
  | nothing (failure : Failure) (t : Session (Recorded σ)) :
    t.ledger.writes = [] → ReadOnly s.ledger t.ledger.inner →
    Reception name bytecode args s (.error failure t)
  | part (accepted : List (WriteRecord σ)) (w : WriteRecord σ) (rest : List Change)
      (e : LedgerError) (t : Session (Recorded σ)) :
    ModuleName.Accepted name → t.ledger.writes = accepted ++ [w] →
    accepted.map WriteRecord.asked ++ w.asked :: rest = plannedChanges name bytecode args s →
    (∀ w ∈ accepted, w.refusal = none) → w.refusal = some e →
    Reception name bytecode args s (.error (.ledger e) t)
  | everything (t : Session (Recorded σ)) :
    ModuleName.Accepted name →
    t.ledger.writes.map WriteRecord.asked = plannedChanges name bytecode args s →
    (∀ w ∈ t.ledger.writes, w.refusal = none) →
    Reception name bytecode args s (.ok () t)

theorem install_reception (name : String) (bytecode : Bytes) (args : List Bytes) (s : Session σ) :
    Reception name bytecode args s (install name bytecode args s.recorded) := by
  have hplan : plannedChanges name bytecode args s.recorded = plannedChanges name bytecode args s := by
    rw [plannedChanges, plannedChanges, stagedWrites_recorded]
  rcases install_phases name bytecode args s.recorded with
    ⟨failure, t, hfail, hread⟩ | ⟨t, hsent, hread, hname⟩
  · rw [hfail]
    exact .nothing failure t hread.writes hread.inner
  · have hwrites : t.ledger.writes = [] := hread.writes
    rw [hsent, hplan]
    unfold Session.onLedger
    have hdelivery := Recorded.applyAll_delivery (plannedChanges name bytecode args s) t.ledger
    generalize Layers.applyAll (plannedChanges name bytecode args s) t.ledger = result at hdelivery
    cases hdelivery with
    | complete received inner hasked hall =>
      rw [hwrites]
      exact .everything _ hname hasked hall
    | stopped accepted w rest inner e hasked hall hw =>
      rw [hwrites]
      exact .part accepted w rest e _ hname rfl hasked hall hw

namespace Reception

variable {name : String} {bytecode : Bytes} {args : List Bytes} {s : Session σ}
  {result : EStateM.Result Failure (Session (Recorded σ)) Unit}

/-- What is received, if anything is, comes from a delivery of the planned changes. -/
theorem cases_delivery (h : Reception name bytecode args s result) :
    received result = [] ∨ ModuleName.Accepted name ∧
      ∃ d, Recorded.Delivery (plannedChanges name bytecode args s) (.start s.ledger) d ∧
        received result = (finalState d).writes := by
  unfold received
  cases h with
  | nothing failure t hwrites _ => exact .inl (by rw [finalState_error, hwrites])
  | part accepted w rest e t hname hwrites hplan hall hw =>
    refine .inr ⟨hname, _, .stopped accepted w rest t.ledger.inner e hplan hall hw, ?_⟩
    rw [finalState_error, finalState_error, hwrites]
    rfl
  | everything t hname hplan hall =>
    exact .inr ⟨hname, _, .complete t.ledger.writes t.ledger.inner hplan hall, rfl⟩

theorem asked_first (h : Reception name bytecode args s result) :
    (received result).map WriteRecord.asked <+: plannedChanges name bytecode args s := by
  rcases h.cases_delivery with hnil | ⟨-, d, hdelivery, hreceived⟩
  · rw [hnil]
    exact List.nil_prefix
  · rw [hreceived]
    exact hdelivery.asked_first rfl

/-- Only the last of the received writes can be a refused one. -/
theorem in_order (h : Reception name bytecode args s result) (earlier : List (WriteRecord σ))
    (w : WriteRecord σ) (later : List (WriteRecord σ))
    (hsplit : received result = earlier ++ w :: later) : ∀ v ∈ earlier, v.refusal = none := by
  rcases h.cases_delivery with hnil | ⟨-, d, hdelivery, hreceived⟩
  · rw [hnil] at hsplit
    simp at hsplit
  · exact hdelivery.in_order rfl (hreceived.symm.trans hsplit)

/-- The accepted writes are first ones of the planned changes. -/
theorem accepted_first (h : Reception name bytecode args s result) :
    Recorded.accepted (received result) <+: plannedChanges name bytecode args s ∧
      (Recorded.accepted (received result) = [] ∨ ModuleName.Accepted name) := by
  rcases h.cases_delivery with hnil | ⟨hname, d, hdelivery, hreceived⟩
  · rw [hnil]
    exact ⟨List.nil_prefix, .inl rfl⟩
  · rw [hreceived]
    exact ⟨hdelivery.accepted_first rfl, .inr hname⟩

theorem ok_iff (h : Reception name bytecode args s result) :
    (∃ t, result = .ok () t) ↔
      (received result).map WriteRecord.asked = plannedChanges name bytecode args s ∧
        ∀ w ∈ received result, w.refusal = none := by
  unfold received
  cases h with
  | nothing failure t hwrites _ =>
    rw [finalState_error, hwrites]
    simp [plannedChanges]
  | part accepted w rest e t _ hwrites _ _ hw =>
    rw [finalState_error, hwrites]
    simp [hw]
  | everything t _ hplan hall => exact ⟨fun _ => ⟨hplan, hall⟩, fun _ => ⟨t, rfl⟩⟩

end Reception

/-- Recording the writes does not change how an installation ends. -/
theorem install_recorded {name : String} {bytecode : Bytes} {args : List Bytes} {s : Session σ}
    {r : EStateM.Result Failure (Session σ) Unit} (h : install name bytecode args s = r) :
    SameResult (SessionRel s.sandbox.config fun (r : Recorded σ) l => r.inner = l)
      (install name bytecode args s.recorded) r :=
  h ▸ Recorded.install_forget s.sandbox.config name bytecode args ⟨rfl, rfl, rfl⟩

/-! ## The planned changes -/

variable (name : String) (bytecode : Bytes) (args : List Bytes) (s : Session σ)

theorem isGuestChange_stagedWrites {c : Change} (h : c ∈ stagedWrites name bytecode args s) :
    IsGuestChange name s.sandbox.config.limits c :=
  (staged_stagedRun name bytecode args s).final.ledger.guest c h

variable {name}

/-- No write of an initializer touches the record. -/
theorem ne_recordBytes_of_mem_replay (hname : ModuleName.Accepted name) {c : Change}
    (h : c ∈ (Overlay.replay (stagedWrites name bytecode args s)).entries) :
    c.1 ≠ recordBytes name := by
  obtain ⟨key, hkey, -, -⟩ :=
    isGuestChange_stagedWrites name bytecode args s (Overlay.mem_of_mem_replay h)
  rw [hkey]
  exact guestKey_ne_recordBytes hname key name

theorem plannedChanges_pairwise (hname : ModuleName.Accepted name) :
    (plannedChanges name bytecode args s).Pairwise fun a b => a.1 ≠ b.1 := by
  refine List.pairwise_append.mpr ⟨?_, List.pairwise_singleton _ _, fun c hc d hd => ?_⟩
  · exact keys_ne_of_ascending (Overlay.replay _).sorted
  · rw [List.mem_singleton.mp hd]
    exact ne_recordBytes_of_mem_replay bytecode args s hname hc

variable {bytecode args s}

/-- A failed installation has had fewer than the planned changes accepted. -/
theorem accepted_of_failed {failure : Failure} {t : Session σ}
    (hfail : install name bytecode args s = .error failure t) :
    ∃ n < (plannedChanges name bytecode args s).length,
      Recorded.accepted (received (install name bytecode args s.recorded)) =
        (plannedChanges name bytecode args s).take n ∧
      (0 < n → ModuleName.Accepted name) := by
  have hrec := install_recorded hfail
  have hreception := install_reception name bytecode args s
  have hpos : 0 < (plannedChanges name bytecode args s).length := by simp [plannedChanges]
  unfold received
  generalize install name bytecode args s.recorded = result at hrec hreception
  cases hreception with
  | nothing failure t hwrites _ =>
    refine ⟨0, hpos, ?_, fun h => absurd h (Nat.lt_irrefl 0)⟩
    rw [finalState_error, hwrites]
    rfl
  | part accepted w rest e t hname hwrites hplan hall hw =>
    refine ⟨accepted.length, ?_, ?_, fun _ => hname⟩
    · rw [← hplan]
      simp
    · rw [finalState_error, hwrites, Recorded.accepted_append, Recorded.accepted_eq_map hall, ← hplan]
      simp [Recorded.accepted, hw]
  | everything t _ _ _ => cases hrec

/-- After an installation the ledger holds what the accepted writes make of its contents. -/
theorem contents_install (V : View σ) {r : EStateM.Result Failure (Session σ) Unit}
    (h : install name bytecode args s = r) :
    V.contents (finalState r).ledger = applied (V.contents s.ledger)
      (Recorded.accepted (received (install name bytecode args s.recorded))) := by
  have hnow := (Recorded.install_faithful V name bytecode args s).now
  rw [(install_recorded h).final.ledger] at hnow
  exact hnow

/-- **What a failed installation leaves behind**: the planned changes that the ledger
accepted before it refused one. The ledger is as it was if and only if each of these is
idle, that is, if the ledger held the new value of the key already. -/
theorem failed_install_contents (V : View σ) {failure : Failure} {t : Session σ}
    (hfail : install name bytecode args s = .error failure t) :
    ∃ n < (plannedChanges name bytecode args s).length,
      Recorded.accepted (received (install name bytecode args s.recorded)) =
        (plannedChanges name bytecode args s).take n ∧
      V.contents t.ledger =
        applied (V.contents s.ledger) ((plannedChanges name bytecode args s).take n) ∧
      (V.contents t.ledger = V.contents s.ledger ↔
        ∀ c ∈ (plannedChanges name bytecode args s).take n, V.contents s.ledger c.1 = c.2) := by
  obtain ⟨n, hn, haccepted, hname⟩ := accepted_of_failed hfail
  have hcontents : V.contents t.ledger =
      applied (V.contents s.ledger) ((plannedChanges name bytecode args s).take n) :=
    haccepted ▸ contents_install V hfail
  have hkeys : ((plannedChanges name bytecode args s).take n).Pairwise fun a b => a.1 ≠ b.1 := by
    cases n with
    | zero => exact .nil
    | succ n => exact (plannedChanges_pairwise bytecode args s (hname (by omega))).take
  refine ⟨n, hn, haccepted, hcontents, ?_⟩
  rw [hcontents]
  exact applied_eq_self_iff hkeys

/-- Bytecode of a module whose initializer puts the empty value under the empty key and
returns a number below 64. -/
def putGuest (code : UInt8) : Bytes := [
  0x00, 0x61, 0x73, 0x6D, 0x01, 0x00, 0x00, 0x00,
  -- The types of `__put_state` and of `init`.
  0x01, 0x0D, 0x02, 0x60, 0x04, 0x7F, 0x7F, 0x7F, 0x7F, 0x01, 0x7F, 0x60, 0x00, 0x01, 0x7F,
  -- The import of `__put_state`.
  0x02, 0x13, 0x01, 0x03, 0x65, 0x6E, 0x76, 0x0B, 0x5F, 0x5F, 0x70, 0x75, 0x74, 0x5F, 0x73,
  0x74, 0x61, 0x74, 0x65, 0x00, 0x00,
  -- `init` and a memory, and the exports of both.
  0x03, 0x02, 0x01, 0x01, 0x05, 0x03, 0x01, 0x00, 0x00,
  0x07, 0x11, 0x02, 0x06, 0x6D, 0x65, 0x6D, 0x6F, 0x72, 0x79, 0x02, 0x00, 0x04, 0x69, 0x6E,
  0x69, 0x74, 0x00, 0x01,
  -- The body of `init`.
  0x0A, 0x11, 0x01, 0x0F, 0x00, 0x41, 0x00, 0x41, 0x00, 0x41, 0x00, 0x41, 0x00, 0x10, 0x00,
  0x1A, 0x41, code, 0x0B]

/-- A new sandbox with the default configuration. -/
def newSandbox : Sandbox where
  config := {}

/-- An empty ledger that accepts one more write. -/
def oneWriteLeft : Session (Faulty MemoryLedger) := ⟨newSandbox, ⟨⟨∅⟩, { writesLeft := some 1 }⟩⟩

/-- The ledger accepts the write of the initializer and refuses the record after it. -/
theorem failed_install_leaves_write :
    failure? (install "m" (putGuest 0) [] oneWriteLeft) =
        some (.ledger (.backend "write quota exhausted")) ∧
      (Faulty.view MemoryLedger.view).contents oneWriteLeft.ledger (recordBytes "m") = none ∧
      (Faulty.view MemoryLedger.view).contents
          (finalState (install "m" (putGuest 0) [] oneWriteLeft)).ledger ≠
        (Faulty.view MemoryLedger.view).contents oneWriteLeft.ledger := by
  refine ⟨by decide +kernel, rfl, fun heq => ?_⟩
  have hkept : (Faulty.view MemoryLedger.view).contents
      (finalState (install "m" (putGuest 0) [] oneWriteLeft)).ledger (guestKey "m" []) = some [] := by
    decide +kernel
  rw [heq] at hkept
  cases hkept

theorem failed_install_contents_oneWriteLeft :
    failure? (install "m" (putGuest 0) [] oneWriteLeft) =
        some (.ledger (.backend "write quota exhausted")) ∧
      ∃ n < (plannedChanges "m" (putGuest 0) [] oneWriteLeft).length,
        (Faulty.view MemoryLedger.view).contents
            (finalState (install "m" (putGuest 0) [] oneWriteLeft)).ledger =
          applied ((Faulty.view MemoryLedger.view).contents oneWriteLeft.ledger)
            ((plannedChanges "m" (putGuest 0) [] oneWriteLeft).take n) := by
  have hfail : failure? (install "m" (putGuest 0) [] oneWriteLeft) =
      some (.ledger (.backend "write quota exhausted")) := by decide +kernel
  obtain ⟨n, hn, -, hcontents, -⟩ :=
    failed_install_contents (Faulty.view MemoryLedger.view) (eq_error_of_failure? hfail)
  exact ⟨hfail, n, hn, hcontents⟩

/-! ## The record comes last -/

/-- What an installation asks of its ledger, with a plan of what the writes of the
initializer come down to. -/
structure WritesInOrder (name : String) (bytecode : Bytes) (args : List Bytes) (s : Session σ)
    (plan : List Change) : Prop where
  plan_last : LastChanges (stagedWrites name bytecode args s) plan
  /-- The writes are the first ones of the plan with the record at its end. -/
  asked_first : (received (install name bytecode args s.recorded)).map WriteRecord.asked <+:
    plan ++ [(recordBytes name, some bytecode)]
  /-- A write is issued only if all earlier ones were accepted. -/
  in_order : ∀ earlier w later,
    received (install name bytecode args s.recorded) = earlier ++ w :: later →
    ∀ v ∈ earlier, v.refusal = none
  ok_iff : (∃ t, install name bytecode args s = .ok () t) ↔
    (received (install name bytecode args s.recorded)).map WriteRecord.asked =
        plan ++ [(recordBytes name, some bytecode)] ∧
      ∀ w ∈ received (install name bytecode args s.recorded), w.refusal = none

/-- What the record says about the rest of the plan, on a dependable ledger. -/
structure RecordMarks (V : View σ) (name : String) (bytecode : Bytes) (args : List Bytes)
    (s : Session σ) (plan : List Change) : Prop where
  /-- After every write and in the end: if the record is a new one, the plan is in place. -/
  marked : ∀ l, (∃ w ∈ received (install name bytecode args s.recorded), w.after = l) ∨
      l = (finalState (install name bytecode args s)).ledger →
    V.contents l (recordBytes name) ≠ V.contents s.ledger (recordBytes name) →
    ∀ c ∈ plan, V.contents l c.1 = c.2
  /-- A failed installation leaves the record alone. -/
  kept : ∀ failure t, install name bytecode args s = .error failure t →
    V.contents t.ledger (recordBytes name) = V.contents s.ledger (recordBytes name)
  /-- After a failed installation the name is as free as it was before. -/
  free : ∀ failure t, install name bytecode args s = .error failure t →
    V.contents s.ledger (recordBytes name) = none →
    ∀ s', V.contents s'.ledger (recordBytes name) = V.contents t.ledger (recordBytes name) →
    ∀ bytecode' args' t', install name bytecode' args' s' ≠ .error (.alreadyExists name) t'

/-- An installation finds a name taken only if there is a record of it. -/
theorem contents_of_alreadyExists (V : View σ) {t : Session σ}
    (h : install name bytecode args s = .error (.alreadyExists name) t) :
    V.contents s.ledger (recordBytes name) ≠ none := by
  have hcases := install_cases name bytecode args s
  generalize install name bytecode args s = result at h hcases
  cases hcases with
  | badName _ hvalid =>
    cases h
    obtain ⟨reason, hreason⟩ := ModuleName.validate_error hvalid
    cases hreason
  | unread _ _ _ _ => cases h
  | taken old l _ hget =>
    rw [← V.get_ok hget]
    exact Option.some_ne_none old
  | failed l _ t' _ _ hstaged =>
    cases h
    exact (Session.invoke_fails _ _ _ _ _ _ hstaged).elim
  | refused _ _ _ _ _ _ _ => cases h
  | sent l completion t' _ _ _ _ =>
    unfold Session.onLedger at h
    split at h
    · cases h
    · cases h

/-- Every state that an installation leads through holds what some first ones of the
planned changes make of the old contents. -/
theorem contents_reached (V : View σ) {l : σ}
    (h : (∃ w ∈ received (install name bytecode args s.recorded), w.after = l) ∨
      l = (finalState (install name bytecode args s)).ledger) :
    ∃ changes, changes <+: plannedChanges name bytecode args s ∧
      (changes = [] ∨ ModuleName.Accepted name) ∧
      V.contents l = applied (V.contents s.ledger) changes := by
  obtain ⟨hfirst, hname⟩ := (install_reception name bytecode args s).accepted_first
  rcases h with ⟨w, hw, rfl⟩ | rfl
  · obtain ⟨earlier, later, hsplit⟩ := List.append_of_mem hw
    have hpart : Recorded.accepted (earlier ++ [w]) <+:
        Recorded.accepted (received (install name bytecode args s.recorded)) := by
      rw [hsplit, List.append_cons earlier w later, Recorded.accepted_append _ later]
      exact List.prefix_append _ _
    refine ⟨_, hpart.trans hfirst, ?_,
      (Recorded.install_faithful V name bytecode args s).after earlier w later hsplit⟩
    rcases hname with hnil | hname
    · rw [hnil] at hpart
      exact .inl (List.prefix_nil.mp hpart)
    · exact .inr hname
  · exact ⟨_, hfirst, hname, contents_install V rfl⟩

/-- Once the record has changed, all planned changes have been made. -/
theorem eq_plannedChanges_of_record {contents : Key → Option Value} {changes : List Change}
    (hfirst : changes <+: plannedChanges name bytecode args s)
    (hname : changes = [] ∨ ModuleName.Accepted name)
    (hrecord : applied contents changes (recordBytes name) ≠ contents (recordBytes name)) :
    changes = plannedChanges name bytecode args s := by
  rcases hname with rfl | hname
  · exact absurd rfl hrecord
  · rcases List.prefix_concat_iff.mp hfirst with hall | hfirst
    · exact hall
    · refine absurd (applied_of_not_mem fun c hc => ?_) hrecord
      exact ne_recordBytes_of_mem_replay bytecode args s hname (hfirst.subset hc)

theorem record_of_failed (V : View σ) {failure : Failure} {t : Session σ}
    (hfail : install name bytecode args s = .error failure t) :
    V.contents t.ledger (recordBytes name) = V.contents s.ledger (recordBytes name) := by
  obtain ⟨n, hn, haccepted, -⟩ := accepted_of_failed hfail
  obtain ⟨hfirst, hname⟩ := (install_reception name bytecode args s).accepted_first
  have hcontents : V.contents t.ledger = _ := contents_install V hfail
  -- Otherwise all planned changes were accepted, but a failure comes before that.
  by_contra hrecord
  rw [hcontents] at hrecord
  have hlength := congrArg List.length (eq_plannedChanges_of_record hfirst hname hrecord)
  rw [haccepted, List.length_take] at hlength
  omega

theorem writesInOrder (name : String) (bytecode : Bytes) (args : List Bytes) (s : Session σ) :
    WritesInOrder name bytecode args s
      (Overlay.replay (stagedWrites name bytecode args s)).entries where
  plan_last := Overlay.lastChanges_replay _
  asked_first := (install_reception name bytecode args s).asked_first
  in_order := (install_reception name bytecode args s).in_order
  ok_iff := by
    have hforget := install_recorded (rfl : install name bytecode args s = _)
    refine Iff.trans ?_ (install_reception name bytecode args s).ok_iff
    generalize install name bytecode args s.recorded = r, install name bytecode args s = r' at hforget
    cases hforget with
    | ok _ _ => simp
    | error _ _ => simp

theorem recordMarks (V : View σ) (name : String) (bytecode : Bytes) (args : List Bytes)
    (s : Session σ) :
    RecordMarks V name bytecode args s
      (Overlay.replay (stagedWrites name bytecode args s)).entries where
  marked l hl hrecord c hc := by
    -- The changes made so far include the record, and hence all that was planned before it.
    obtain ⟨changes, hfirst, hname, hcontents⟩ := contents_reached V hl
    rw [hcontents] at hrecord ⊢
    obtain rfl := eq_plannedChanges_of_record hfirst hname hrecord
    have hname : ModuleName.Accepted name := hname.resolve_left (by simp [plannedChanges])
    exact applied_of_mem (plannedChanges_pairwise bytecode args s hname)
      (List.mem_append_left _ hc)
  kept failure t hfail := record_of_failed V hfail
  free failure t hfail hnone s' hs' bytecode' args' t' hinstall := by
    refine contents_of_alreadyExists V hinstall ?_
    rw [hs', record_of_failed V hfail, hnone]

/-- **The record is a commit marker.** -/
theorem record_is_commit_marker (name : String) (bytecode : Bytes) (args : List Bytes)
    (s : Session σ) :
    ∃ plan, WritesInOrder name bytecode args s plan ∧
      ∀ V : View σ, RecordMarks V name bytecode args s plan :=
  ⟨_, writesInOrder name bytecode args s, fun V => recordMarks V name bytecode args s⟩

end Registry

end LedgerSandbox
