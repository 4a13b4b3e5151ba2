import LedgerSandbox.Proofs.Transaction.Footprint

/-!
# Transactions on a ledger in memory

There are three things that a transaction can do to a ledger in memory
(`Session.submit_effect`). It may leave the ledger as it is. It may install a module: then
the name had no record, and the record and all that the initializer wrote are on the ledger
now. Or it may execute a module that is installed: then the guest has changed keys of its
module, and this also if the run failed in the end.
-/

namespace LedgerSandbox

namespace Session

/-- **Everything a transaction can do to a ledger in memory**, with the response to it. -/
inductive Effect (r : Request) (s : Session MemoryLedger) (response : Response)
    (t : Session MemoryLedger) : Prop
  | nothing : t.ledger = s.ledger →
    (∀ name bytecode args, r.order = .ok (.install name bytecode args) → response.success = false) →
    Effect r s response t
  | installed {name : String} {bytecode : Bytes} {args : List Bytes} (changes : List Change) :
    r.order = .ok (.install name bytecode args) → response.success = true →
    ModuleName.Accepted name →
    s.ledger.contents.get? (Registry.recordBytes name) = none →
    (∀ c ∈ changes, IsGuestChange name s.sandbox.config.limits c) →
    t.ledger.contents.get? = applied s.ledger.contents.get?
      (changes ++ [(Registry.recordBytes name, some bytecode)]) →
    Effect r s response t
  | executed {name entry : String} {args : List Bytes} {bytecode : Bytes} (changes : List Change) :
    r.order = .ok (.execute name entry args) → ModuleName.Accepted name →
    s.ledger.contents.get? (Registry.recordBytes name) = some bytecode →
    (∀ c ∈ changes, IsGuestChange name s.sandbox.config.limits c) →
    t.ledger.contents.get? = applied s.ledger.contents.get? changes →
    Effect r s response t

variable {r : Request} {s : Session MemoryLedger}

theorem submit_install_effect {name : String} {bytecode : Bytes} {args : List Bytes}
    (horder : r.order = .ok (.install name bytecode args)) : Effect r s (submit r s).1 (submit r s).2 := by
  rw [submit_eq, horder]
  dsimp only
  rw [carryOut_install]
  rcases Registry.install_inMemory name bytecode args s with
    ⟨failure, t, hfail, hledger⟩ | ⟨t, hok, hname, hfree, hcontents⟩
  · rw [hfail]
    exact .nothing hledger fun _ _ _ _ => rfl
  · rw [hok]
    refine .installed _ horder rfl hname hfree (fun c hc => ?_) hcontents
    exact Registry.isGuestChange_stagedWrites name bytecode args s (Overlay.mem_of_mem_replay hc)

theorem submit_execute_effect {name entry : String} {args : List Bytes}
    (horder : r.order = .ok (.execute name entry args)) : Effect r s (submit r s).1 (submit r s).2 := by
  have hnothing : ∀ name' bytecode' args', r.order = .ok (.install name' bytecode' args') →
      (submit r s).1.success = false := by
    intro name' bytecode' args' hinstall
    rw [horder] at hinstall
    cases hinstall
  by_cases hname : ModuleName.Accepted name
  · cases hrecord : s.ledger.contents.get? (Registry.recordBytes name) with
    | none =>
      refine .nothing ?_ hnothing
      rw [submit_session horder, carryOut_execute, Registry.lookup_inMemory hname, hrecord]
      rfl
    | some bytecode =>
      obtain ⟨changes, hallowed, hcontents⟩ :=
        carryOut_reached MemoryLedger.view MemoryLedger.keepsInScans (.execute name entry args) s
      refine .executed changes horder hname hrecord (fun c hc => ?_) ?_
      · cases hallowed c hc with
        | guest _ _ hguest => exact hguest
      · rw [submit_session horder]
        exact hcontents
  · refine .nothing ?_ hnothing
    rw [submit_session horder, carryOut_rejected_execute hname]

/-- A listing reads the ledger only. -/
theorem submit_list_effect (horder : r.order = .ok .list) : Effect r s (submit r s).1 (submit r s).2 := by
  have served : OrderServed s.sandbox.config.limits
      (fun l k : MemoryLedger => l = k ∧ l = s.ledger) .list :=
    .list fun start stop => .of_invariant fun l h => h
  refine .nothing ?_ fun name bytecode args hinstall => ?_
  · rw [submit_session horder]
    exact ledger_invariant (carryOut_simulates served.sim) rfl
  · rw [horder] at hinstall
    cases hinstall

theorem submit_effect (r : Request) (s : Session MemoryLedger) :
    Effect r s (submit r s).1 (submit r s).2 := by
  cases horder : r.order with
  | error failure =>
    rw [submit_unreadable horder]
    exact .nothing rfl fun _ _ _ _ => rfl
  | ok order =>
    cases order with
    | install name bytecode args => exact submit_install_effect horder
    | execute name entry args => exact submit_execute_effect horder
    | list => exact submit_list_effect horder

/-! ## What becomes of the records -/

/-- Whether a request is to install bytecode as a module, and succeeds. -/
def Installs (r : Request) (s : Session MemoryLedger) (name : String) (bytecode : Bytes) : Prop :=
  (∃ args, r.order = .ok (.install name bytecode args)) ∧ (submit r s).1.success = true

/-- Changes by a guest leave all records alone. -/
theorem applied_guest_record {name : String} {limits : HostLimits} {changes : List Change}
    (hname : ModuleName.Accepted name) (h : ∀ c ∈ changes, IsGuestChange name limits c)
    (contents : Key → Option Value) (other : String) :
    applied contents changes (Registry.recordBytes other) = contents (Registry.recordBytes other) := by
  refine applied_of_not_mem fun c hc => ?_
  obtain ⟨key, hkey, -, -⟩ := h c hc
  rw [hkey]
  exact guestKey_ne_recordBytes hname key other

/-- The records after a transaction are those before it and the one it has installed. -/
theorem record_submit_iff (r : Request) (s : Session MemoryLedger) (name : String)
    (bytecode : Bytes) :
    (submit r s).2.ledger.contents.get? (Registry.recordBytes name) = some bytecode ↔
      s.ledger.contents.get? (Registry.recordBytes name) = some bytecode ∨
        Installs r s name bytecode := by
  have heffect := submit_effect r s
  unfold Installs
  generalize (submit r s).1 = response, (submit r s).2 = t at heffect
  cases heffect with
  | nothing hledger hfail =>
    rw [hledger]
    constructor
    · exact .inl
    · rintro (h | ⟨⟨args, horder⟩, hsuccess⟩)
      · exact h
      · rw [hfail name bytecode args horder] at hsuccess
        cases hsuccess
  | @installed name' bytecode' args' changes horder hsuccess hname hfree hguest hcontents =>
    rw [hcontents, applied_append]
    show Function.update _ _ _ _ = _ ↔ _
    by_cases heq : name = name'
    · subst heq
      rw [Function.update_self, hfree, horder]
      simp [hsuccess, eq_comm]
    · have hne : Registry.recordBytes name ≠ Registry.recordBytes name' :=
        fun h => heq (Registry.recordBytes_inj.mp h)
      rw [Function.update_of_ne hne, applied_guest_record hname hguest, horder]
      simp [Ne.symm heq]
  | @executed name' entry args bytecode' changes horder hname hrecord hguest hcontents =>
    rw [hcontents, applied_guest_record hname hguest, horder]
    simp

/-- Only a name without a record can be installed. -/
theorem Installs.fresh {name : String} {bytecode : Bytes} (h : Installs r s name bytecode) :
    ModuleName.Accepted name ∧ s.ledger.contents.get? (Registry.recordBytes name) = none := by
  obtain ⟨⟨args, horder⟩, hsuccess⟩ := h
  have heffect := submit_effect r s
  cases heffect with
  | nothing _ hfail =>
    rw [hfail name bytecode args horder] at hsuccess
    cases hsuccess
  | installed _ horder' _ hname hfree _ _ =>
    rw [horder] at horder'
    cases horder'
    exact ⟨hname, hfree⟩
  | executed _ horder' _ _ _ _ =>
    rw [horder] at horder'
    cases horder'

/-- An installation under a name with a record is refused, in whatever sandbox: the
bytecode is not even looked at. -/
theorem submit_taken {name : String} {bytecode : Bytes} {args : List Bytes} {old : Value}
    (horder : r.order = .ok (.install name bytecode args)) (hname : ModuleName.Accepted name)
    (hrecord : s.ledger.contents.get? (Registry.recordBytes name) = some old) :
    submit r s = (.ofFailure (.alreadyExists name), s) := by
  rw [submit_eq, horder]
  dsimp only
  rw [carryOut_install, Registry.install_taken hname hrecord]

end Session

end LedgerSandbox
