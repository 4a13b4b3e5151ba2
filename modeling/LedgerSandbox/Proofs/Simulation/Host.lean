import LedgerSandbox.Proofs.Ledger.Keys
import LedgerSandbox.Proofs.Simulation.Action
import LedgerSandbox.Sandbox

/-!
# Runs over related hosts

A guest meets the ledger through the host alone. If two hosts serve the six host
functions alike, along some relation of their states, then a guest that runs on the one
does what it does on the other: it reads the same values, spends the same fuel, ends
the same way, and leaves related hosts. `HostSim` says the former of the operations of
the host, and `HostSim.execute` concludes the latter for whole runs of any module.

Most relations speak of the ledger only. `LedgerSim` says what they need: the guest keys
of one module, within the limits, are read, written and deleted alike (`hostSim_hostRel`).
-/

namespace LedgerSandbox

variable {σ τ : Type}

/-! ## Operations of the host -/

namespace HostState

theorem returnResult_eq (result : Bytes) (h : HostState σ) :
    returnResult result h =
      if h.limits.maxResultLen < result.length then .error (.resultTooLarge result.length) h
      else .ok () { h with invocation := { h.invocation with captured := some result } } := by
  by_cases hresult : h.limits.maxResultLen < result.length
  · simp [returnResult, hresult]
  · simp [returnResult, hresult]

variable [Ledger σ]

theorem getState_eq (key : Key) (h : HostState σ) :
    getState key h =
      if h.limits.maxKeyLen < key.length then .error (.keyTooLarge key.length) h
      else onLedger (Ledger.get (guestKey h.invocation.moduleName key)) h := by
  by_cases hkey : h.limits.maxKeyLen < key.length
  · simp [getState, checkKey, hkey]
  · simp [getState, checkKey, hkey, Invocation.namespacedKey_eq]

theorem putState_eq (key : Key) (value : Value) (h : HostState σ) :
    putState key value h =
      if h.limits.maxKeyLen < key.length then .error (.keyTooLarge key.length) h
      else if h.limits.maxValueLen < value.length then .error (.valueTooLarge value.length) h
      else onLedger (Ledger.put (guestKey h.invocation.moduleName key) value) h := by
  by_cases hkey : h.limits.maxKeyLen < key.length
  · simp [putState, checkKey, hkey]
  · by_cases hvalue : h.limits.maxValueLen < value.length
    · simp [putState, checkKey, hkey, hvalue]
    · simp [putState, checkKey, hkey, hvalue, Invocation.namespacedKey_eq]

theorem deleteState_eq (key : Key) (h : HostState σ) :
    deleteState key h =
      if h.limits.maxKeyLen < key.length then .error (.keyTooLarge key.length) h
      else onLedger (Ledger.delete (guestKey h.invocation.moduleName key)) h := by
  by_cases hkey : h.limits.maxKeyLen < key.length
  · simp [deleteState, checkKey, hkey]
  · simp [deleteState, checkKey, hkey, Invocation.namespacedKey_eq]

end HostState

/-! ## Relations of the ledger -/

/-- Two hosts that serve the same module, under the same limits, on related ledgers. -/
structure HostRel (name : String) (limits : HostLimits) (R : σ → τ → Prop)
    (h : HostState σ) (k : HostState τ) : Prop where
  invocation : h.invocation = k.invocation
  limits_eq : h.limits = k.limits
  log : h.log = k.log
  ledger : R h.ledger k.ledger
  moduleName : h.invocation.moduleName = name
  limits : h.limits = limits

theorem HostRel.onLedger {name : String} {limits : HostLimits} {R : σ → τ → Prop} {α : Type}
    {x : EStateM LedgerError σ α} {y : EStateM LedgerError τ α} (hxy : Simulates R x y) :
    Simulates (HostRel name limits R) (HostState.onLedger x) (HostState.onLedger y) := by
  intro h k rel
  have hres := hxy rel.ledger
  unfold HostState.onLedger
  generalize x h.ledger = r, y k.ledger = r' at hres
  cases hres with
  | ok a hR => exact .ok a { rel with ledger := hR }
  | error e hR => exact .error _ { rel with ledger := hR }

/-- Two guests with the same memory on related hosts. -/
structure CallerRel (S : HostState σ → HostState τ → Prop) (c : Caller σ) (d : Caller τ) : Prop where
  memory : c.memory = d.memory
  host : S c.host d.host

namespace CallerRel

variable {S : HostState σ → HostState τ → Prop}

theorem readGuest (address length : UInt32) :
    Simulates (CallerRel S) (Caller.readGuest address length) (Caller.readGuest address length) := by
  refine .get_bind fun c d rel => ?_
  rw [rel.memory]
  cases d.memory with
  | none => exact .error _ rel
  | some memory =>
    cases hread : GuestMemory.read memory address length with
    | ok bytes => simpa [hread] using SameResult.ok bytes rel
    | error e => simpa [hread] using SameResult.error e rel

theorem writeGuest (address : UInt32) (data : Bytes) :
    Simulates (CallerRel S) (Caller.writeGuest address data) (Caller.writeGuest address data) := by
  rintro ⟨memory, h⟩ ⟨_, k⟩ ⟨rfl, rel⟩
  cases memory with
  | none => exact .error _ ⟨rfl, rel⟩
  | some memory =>
    cases hcheck : GuestMemory.checkWrite memory address data with
    | ok _ => simpa [Caller.writeGuest, hcheck] using SameResult.ok () ⟨rfl, rel⟩
    | error e => simpa [Caller.writeGuest, hcheck] using SameResult.error e ⟨rfl, rel⟩

theorem onHost {α : Type} {x : EStateM HostError (HostState σ) α}
    {y : EStateM HostError (HostState τ) α} (hxy : Simulates S x y) :
    Simulates (CallerRel S) (Caller.onHost x) (Caller.onHost y) := by
  intro c d rel
  have hres := hxy rel.host
  unfold Caller.onHost
  generalize x c.host = r, y d.host = r' at hres
  cases hres with
  | ok a hS => exact .ok a ⟨rel.memory, hS⟩
  | error e hS => exact .error e ⟨rel.memory, hS⟩

end CallerRel

variable [Ledger σ] [Ledger τ]

/-- A relation of ledgers along which the guest keys of one module, within the limits, are
read, written and deleted alike. -/
structure LedgerSim (name : String) (limits : HostLimits) (R : σ → τ → Prop) : Prop where
  get : ∀ key, key.length ≤ limits.maxKeyLen →
    Simulates R (Ledger.get (guestKey name key)) (Ledger.get (guestKey name key))
  put : ∀ key value, key.length ≤ limits.maxKeyLen → value.length ≤ limits.maxValueLen →
    Simulates R (Ledger.put (guestKey name key) value) (Ledger.put (guestKey name key) value)
  delete : ∀ key, key.length ≤ limits.maxKeyLen →
    Simulates R (Ledger.delete (guestKey name key)) (Ledger.delete (guestKey name key))

/-- A relation of hosts that all operations of the host keep. -/
structure HostSim (S : HostState σ → HostState τ → Prop) : Prop where
  args : ∀ {h k}, S h k → h.invocation.args = k.invocation.args
  print : ∀ message {h k}, S h k → S (h.print message) (k.print message)
  getState : ∀ key, Simulates S (HostState.getState key) (HostState.getState key)
  putState : ∀ key value, Simulates S (HostState.putState key value) (HostState.putState key value)
  deleteState : ∀ key, Simulates S (HostState.deleteState key) (HostState.deleteState key)
  returnResult : ∀ result, Simulates S (HostState.returnResult result) (HostState.returnResult result)

/-- A relation of ledgers that guest keys keep is kept by all operations of the host. -/
theorem hostSim_hostRel {name : String} {limits : HostLimits} {R : σ → τ → Prop}
    (sim : LedgerSim name limits R) : HostSim (HostRel name limits R) where
  args rel := by rw [rel.invocation]
  print message h k rel := by
    unfold HostState.print
    rw [← rel.limits_eq, ← rel.invocation, ← rel.log]
    split
    · exact rel
    · exact ⟨rfl, rfl, rfl, rel.ledger, rel.moduleName, rel.limits⟩
  getState key h k rel := by
    rw [HostState.getState_eq, HostState.getState_eq, ← rel.limits_eq, ← rel.invocation,
      rel.limits, rel.moduleName]
    split
    · exact .error _ rel
    · exact HostRel.onLedger (sim.get key (by omega)) rel
  putState key value h k rel := by
    rw [HostState.putState_eq, HostState.putState_eq, ← rel.limits_eq, ← rel.invocation,
      rel.limits, rel.moduleName]
    split
    · exact .error _ rel
    · split
      · exact .error _ rel
      · exact HostRel.onLedger (sim.put key value (by omega) (by omega)) rel
  deleteState key h k rel := by
    rw [HostState.deleteState_eq, HostState.deleteState_eq, ← rel.limits_eq, ← rel.invocation,
      rel.limits, rel.moduleName]
    split
    · exact .error _ rel
    · exact HostRel.onLedger (sim.delete key (by omega)) rel
  returnResult result h k rel := by
    rw [HostState.returnResult_eq, HostState.returnResult_eq, ← rel.limits_eq, ← rel.invocation]
    split
    · exact .error _ rel
    · exact .ok _ ⟨rfl, rfl, rel.log, rel.ledger, rel.moduleName, rel.limits⟩

/-! ## Host calls -/

namespace HostSim

variable {S : HostState σ → HostState τ → Prop} (sim : HostSim S)

include sim

theorem run (f : HostFunction) (words : List UInt32) :
    Simulates (CallerRel S) (f.run words) (f.run words) := by
  unfold HostFunction.run
  split
  case h_1 address length =>
    refine (CallerRel.readGuest address length).bind fun message => ?_
    refine Simulates.bind (.modify fun c d rel => ?_) fun _ => .pure _
    exact ⟨rel.memory, sim.print message rel.host⟩
  case h_2 index dest =>
    refine .get_bind fun c d rel => ?_
    have hparam : c.host.parameter? index.toNat = d.host.parameter? index.toNat := by
      rw [HostState.parameter?, HostState.parameter?, sim.args rel.host]
    rw [hparam]
    cases d.host.parameter? index.toNat with
    | none => exact .ok _ rel
    | some arg => exact (CallerRel.writeGuest dest arg).bind (fun _ => .pure _) rel
  case h_3 keyAddress keyLength dest =>
    refine (CallerRel.readGuest keyAddress keyLength).bind fun key => ?_
    refine (CallerRel.onHost (sim.getState key)).bind fun found => ?_
    cases found with
    | none => exact .pure _
    | some value => exact (CallerRel.writeGuest dest value).bind fun _ => .pure _
  case h_4 keyAddress keyLength valueAddress valueLength =>
    refine (CallerRel.readGuest keyAddress keyLength).bind fun key => ?_
    refine (CallerRel.readGuest valueAddress valueLength).bind fun value => ?_
    exact (CallerRel.onHost (sim.putState key value)).bind fun _ => .pure _
  case h_5 keyAddress keyLength =>
    refine (CallerRel.readGuest keyAddress keyLength).bind fun key => ?_
    exact (CallerRel.onHost (sim.deleteState key)).bind fun _ => .pure _
  case h_6 address length =>
    refine (CallerRel.readGuest address length).bind fun result => ?_
    exact (CallerRel.onHost (sim.returnResult result)).bind fun _ => .pure _
  case h_7 => exact .pure _

/-- A host call gives the same return code and leaves the same memory and related hosts. -/
theorem call (f : HostFunction) (args : List Wasm.Value) {c : Caller σ} {d : Caller τ}
    (rel : CallerRel S c d) :
    (f.call args c).1 = (f.call args d).1 ∧ CallerRel S (f.call args c).2 (f.call args d).2 := by
  unfold HostFunction.call
  cases args.mapM GuestMemory.argument? with
  | none => exact ⟨rfl, rel⟩
  | some words =>
    have hres := sim.run f words rel
    dsimp only
    generalize f.run words c = r, f.run words d = r' at hres
    cases hres with
    | ok code rel' => exact ⟨rfl, rel'⟩
    | error e rel' => exact ⟨rfl, rel'⟩

theorem callAs (f : HostFunction) (type : Wasm.FuncType) (args : List Wasm.Value)
    {c : Caller σ} {d : Caller τ} (rel : CallerRel S c d) :
    (f.callAs type args c).1 = (f.callAs type args d).1 ∧
      CallerRel S (f.callAs type args c).2 (f.callAs type args d).2 := by
  obtain ⟨hcode, rel'⟩ := sim.call f args rel
  exact ⟨congrArg (HostFunction.encodeResult type) hcode, rel'⟩

end HostSim

end LedgerSandbox
