import LedgerSandbox.Proofs.Host.Range
import LedgerSandbox.Proofs.Ledger.Changes
import LedgerSandbox.Proofs.Simulation.Host
import Mathlib.Data.List.Basic

/-!
# What a host call comes to

A host call is served or it fails. `HostFunction.Serves` says for each of the six functions
when it is served, which code the guest gets and what has become of the guest's memory and of
the host. `HostFunction.Fails` lists the reasons for which calls fail. A call with as many
arguments as the function has parameters is settled in one of the two ways
(`HostFunction.run_settled`), and never in both (`HostFunction.Fails.not_serves`).
-/

namespace LedgerSandbox

variable {σ : Type}

/-! ## Guests and their memory -/

namespace Caller

/-- Whether a guest shows a memory with the given bytes in a range. -/
def Reads (c : Caller σ) (address length : UInt32) (bytes : Bytes) : Prop :=
  ∃ memory, c.memory = some memory ∧ GuestMemory.read memory address length = .ok bytes

/-- Whether a guest shows no memory that a range is within. -/
def Unreadable (c : Caller σ) (address length : UInt32) : Prop :=
  ∀ memory, c.memory = some memory → ∃ e, GuestMemory.read memory address length = .error e

/-- Whether a guest shows a memory, and what it is once data has been written to it. -/
def Writes (c : Caller σ) (address : UInt32) (data : Bytes) (c' : Caller σ) : Prop :=
  ∃ memory, c.memory = some memory ∧ GuestMemory.checkWrite memory address data = .ok () ∧
    c' = ⟨some (GuestMemory.store memory address.toNat data), c.host⟩

/-- Whether a guest shows no memory that data fits in. -/
def Unwritable (c : Caller σ) (address : UInt32) (data : Bytes) : Prop :=
  ∀ memory, c.memory = some memory → ∃ e, GuestMemory.checkWrite memory address data = .error e

/-- A guest with another ledger. -/
def withLedger (c : Caller σ) (ledger : σ) : Caller σ := { c with host := { c.host with ledger } }

variable {c : Caller σ} {address length : UInt32} {data bytes : Bytes}

theorem Unreadable.not_reads (h : c.Unreadable address length) : ¬ c.Reads address length bytes := by
  rintro ⟨memory, hmemory, hread⟩
  obtain ⟨e, he⟩ := h memory hmemory
  rw [hread] at he
  cases he

theorem Unwritable.not_writes {c' : Caller σ} (h : c.Unwritable address data) :
    ¬ c.Writes address data c' := by
  rintro ⟨memory, hmemory, hcheck, -⟩
  obtain ⟨e, he⟩ := h memory hmemory
  rw [hcheck] at he
  cases he

theorem Reads.unique (h : c.Reads address length bytes) {other : Bytes}
    (h' : c.Reads address length other) : bytes = other := by
  obtain ⟨memory, hmemory, hread⟩ := h
  obtain ⟨memory', hmemory', hread'⟩ := h'
  cases hmemory.symm.trans hmemory'
  exact Except.ok.inj (hread.symm.trans hread')

theorem readGuest_cases (c : Caller σ) (address length : UInt32) :
    (∃ bytes, c.Reads address length bytes ∧ readGuest address length c = .ok bytes c) ∨
      ∃ e, c.Unreadable address length ∧ readGuest address length c = .error e c := by
  obtain ⟨memory, host⟩ := c
  cases memory with
  | none =>
    have hunread : Unreadable ⟨none, host⟩ address length := by rintro _ ⟨⟩
    exact .inr ⟨.noMemory, hunread, rfl⟩
  | some memory =>
    cases hread : GuestMemory.read memory address length with
    | ok bytes => exact .inl ⟨bytes, ⟨memory, rfl, hread⟩, by simp [readGuest, hread]⟩
    | error e =>
      have hunread : Unreadable ⟨some memory, host⟩ address length := by
        rintro _ ⟨⟩
        exact ⟨e, hread⟩
      exact .inr ⟨e, hunread, by simp [readGuest, hread]⟩

theorem writeGuest_cases (c : Caller σ) (address : UInt32) (data : Bytes) :
    (∃ c', c.Writes address data c' ∧ writeGuest address data c = .ok () c') ∨
      ∃ e, c.Unwritable address data ∧ writeGuest address data c = .error e c := by
  obtain ⟨memory, host⟩ := c
  cases memory with
  | none =>
    have hunwritable : Unwritable ⟨none, host⟩ address data := by rintro _ ⟨⟩
    exact .inr ⟨.noMemory, hunwritable, rfl⟩
  | some memory =>
    cases hcheck : GuestMemory.checkWrite memory address data with
    | ok _ => exact .inl ⟨_, ⟨memory, rfl, hcheck, rfl⟩, by simp [writeGuest, hcheck]⟩
    | error e =>
      have hunwritable : Unwritable ⟨some memory, host⟩ address data := by
        rintro _ ⟨⟩
        exact ⟨e, hcheck⟩
      exact .inr ⟨e, hunwritable, by simp [writeGuest, hcheck]⟩

theorem onHost_congr {α : Type} {x y : EStateM HostError (HostState σ) α}
    (h : x c.host = y c.host) : onHost x c = onHost y c := by
  unfold onHost
  rw [h]

theorem onHost_of_ok {α : Type} {x : EStateM HostError (HostState σ) α} {a : α}
    {host : HostState σ} (h : x c.host = .ok a host) : onHost x c = .ok a { c with host } := by
  unfold onHost
  rw [h]

theorem onHost_of_error {α : Type} {x : EStateM HostError (HostState σ) α} {e : HostError}
    {host : HostState σ} (h : x c.host = .error e host) :
    onHost x c = .error e { c with host } := by
  unfold onHost
  rw [h]

theorem onHost_onLedger {α : Type} (x : EStateM LedgerError σ α) (c : Caller σ) :
    onHost (HostState.onLedger x) c =
      match x c.host.ledger with
      | .ok a ledger => .ok a (c.withLedger ledger)
      | .error e ledger => .error (.ledger e) (c.withLedger ledger) := by
  cases hres : x c.host.ledger with
  | ok a ledger => simp [onHost, HostState.onLedger, hres, withLedger]
  | error e ledger => simp [onHost, HostState.onLedger, hres, withLedger]

end Caller

/-! ## The functions -/

namespace HostFunction

variable [Ledger σ]

/-- The ledger key that a guest means by one of its keys. -/
abbrev ledgerKey (c : Caller σ) (key : Key) : Key := guestKey c.host.invocation.moduleName key

/-- When a call is served, the code that the guest gets, and what has become of it. -/
inductive Serves : HostFunction → List UInt32 → Caller σ → Int64 → Caller σ → Prop
  | print {address length : UInt32} {c : Caller σ} {message : Bytes} :
    c.Reads address length message →
    Serves .print [address, length] c 0 { c with host := c.host.print message }
  | getParameter {index dest : UInt32} {c c' : Caller σ} {arg : Bytes} :
    c.host.parameter? index.toNat = some arg → c.Writes dest arg c' →
    Serves .getParameter [index, dest] c (Int64.ofNat arg.length) c'
  | getState {address length dest : UInt32} {c c' : Caller σ} {key : Key} {value : Value}
    {ledger : σ} : c.Reads address length key → key.length ≤ c.host.limits.maxKeyLen →
    Ledger.get (ledgerKey c key) c.host.ledger = .ok (some value) ledger →
    (c.withLedger ledger).Writes dest value c' →
    Serves .getState [address, length, dest] c (Int64.ofNat value.length) c'
  | putState {address length valueAddress valueLength : UInt32} {c : Caller σ} {key : Key}
    {value : Value} {ledger : σ} : c.Reads address length key →
    c.Reads valueAddress valueLength value → key.length ≤ c.host.limits.maxKeyLen →
    value.length ≤ c.host.limits.maxValueLen →
    Ledger.put (ledgerKey c key) value c.host.ledger = .ok () ledger →
    Serves .putState [address, length, valueAddress, valueLength] c 0 (c.withLedger ledger)
  | deleteState {address length : UInt32} {c : Caller σ} {key : Key} {ledger : σ} :
    c.Reads address length key → key.length ≤ c.host.limits.maxKeyLen →
    Ledger.delete (ledgerKey c key) c.host.ledger = .ok () ledger →
    Serves .deleteState [address, length] c 0 (c.withLedger ledger)
  | returnResult {address length : UInt32} {c : Caller σ} {result : Bytes} :
    c.Reads address length result → result.length ≤ c.host.limits.maxResultLen →
    Serves .returnResult [address, length] c 0
      { c with host := { c.host with
        invocation := { c.host.invocation with captured := some result } } }

/-- The ranges of memory that a function reads. -/
def sources : HostFunction → List UInt32 → List (UInt32 × UInt32)
  | .print, [address, length] | .deleteState, [address, length]
  | .returnResult, [address, length] | .getState, [address, length, _] => [(address, length)]
  | .putState, [address, length, valueAddress, valueLength] =>
    [(address, length), (valueAddress, valueLength)]
  | _, _ => []

/-- The range of memory in which a function finds a key. -/
def keyRange? : HostFunction → List UInt32 → Option (UInt32 × UInt32)
  | .getState, [address, length, _] | .putState, [address, length, _, _]
  | .deleteState, [address, length] => some (address, length)
  | _, _ => none

/-- Why a call fails, and what has become of the guest. -/
inductive Fails : HostFunction → List UInt32 → Caller σ → Caller σ → Prop
  /-- A range that is to be read is not within a memory of the guest. -/
  | unreadable {f : HostFunction} {words : List UInt32} {c : Caller σ} {address length : UInt32} :
    (address, length) ∈ f.sources words → c.Unreadable address length → Fails f words c c
  /-- The key is too long. -/
  | longKey {f : HostFunction} {words : List UInt32} {c : Caller σ} {address length : UInt32}
    {key : Key} : f.keyRange? words = some (address, length) → c.Reads address length key →
    c.host.limits.maxKeyLen < key.length → Fails f words c c
  /-- The value is too long. -/
  | longValue {address length valueAddress valueLength : UInt32} {c : Caller σ} {value : Value} :
    c.Reads valueAddress valueLength value → c.host.limits.maxValueLen < value.length →
    Fails .putState [address, length, valueAddress, valueLength] c c
  /-- The result is too long. -/
  | longResult {address length : UInt32} {c : Caller σ} {result : Bytes} :
    c.Reads address length result → c.host.limits.maxResultLen < result.length →
    Fails .returnResult [address, length] c c
  /-- There is no argument with the index. -/
  | noParameter {index dest : UInt32} {c : Caller σ} :
    c.host.parameter? index.toNat = none → Fails .getParameter [index, dest] c c
  /-- The argument does not fit in the memory of the guest. -/
  | parameterUnwritable {index dest : UInt32} {c : Caller σ} {arg : Bytes} :
    c.host.parameter? index.toNat = some arg → c.Unwritable dest arg →
    Fails .getParameter [index, dest] c c
  /-- The ledger does not read the key. -/
  | getRefused {address length dest : UInt32} {c : Caller σ} {key : Key} {e : LedgerError}
    {ledger : σ} : c.Reads address length key →
    Ledger.get (ledgerKey c key) c.host.ledger = .error e ledger →
    key.length ≤ c.host.limits.maxKeyLen →
    Fails .getState [address, length, dest] c (c.withLedger ledger)
  /-- The key has no value. -/
  | absent {address length dest : UInt32} {c : Caller σ} {key : Key} {ledger : σ} :
    c.Reads address length key →
    Ledger.get (ledgerKey c key) c.host.ledger = .ok none ledger →
    key.length ≤ c.host.limits.maxKeyLen →
    Fails .getState [address, length, dest] c (c.withLedger ledger)
  /-- The value does not fit in the memory of the guest. -/
  | valueUnwritable {address length dest : UInt32} {c : Caller σ} {key : Key} {value : Value}
    {ledger : σ} : c.Reads address length key →
    Ledger.get (ledgerKey c key) c.host.ledger = .ok (some value) ledger →
    key.length ≤ c.host.limits.maxKeyLen → (c.withLedger ledger).Unwritable dest value →
    Fails .getState [address, length, dest] c (c.withLedger ledger)
  /-- The ledger does not store the value. -/
  | putRefused {address length valueAddress valueLength : UInt32} {c : Caller σ} {key : Key}
    {value : Value} {e : LedgerError} {ledger : σ} : c.Reads address length key →
    c.Reads valueAddress valueLength value →
    Ledger.put (ledgerKey c key) value c.host.ledger = .error e ledger →
    key.length ≤ c.host.limits.maxKeyLen → value.length ≤ c.host.limits.maxValueLen →
    Fails .putState [address, length, valueAddress, valueLength] c (c.withLedger ledger)
  /-- The ledger does not remove the key. -/
  | deleteRefused {address length : UInt32} {c : Caller σ} {key : Key} {e : LedgerError}
    {ledger : σ} : c.Reads address length key →
    Ledger.delete (ledgerKey c key) c.host.ledger = .error e ledger →
    key.length ≤ c.host.limits.maxKeyLen →
    Fails .deleteState [address, length] c (c.withLedger ledger)

/-- What running a function on its arguments can come to. -/
inductive Settled (f : HostFunction) (words : List UInt32) (c : Caller σ) :
    EStateM.Result HostError (Caller σ) Int64 → Prop
  | served {code : Int64} {c' : Caller σ} : Serves f words c code c' →
    Settled f words c (.ok code c')
  | failed {e : HostError} {c' : Caller σ} : Fails f words c c' → Settled f words c (.error e c')
  | absent {c' : Caller σ} : Fails f words c c' → Settled f words c (.ok failureCode c')

variable {f : HostFunction} {words : List UInt32} {c d : Caller σ}

/-! ## Steps of a call -/

theorem settled_readGuest {address length : UInt32}
    {next : Bytes → EStateM HostError (Caller σ) Int64}
    (hsource : (address, length) ∈ f.sources words)
    (hnext : ∀ bytes, c.Reads address length bytes → Settled f words c (next bytes c)) :
    Settled f words c ((Caller.readGuest address length >>= next) c) := by
  rw [bind_apply]
  rcases Caller.readGuest_cases c address length with ⟨bytes, hread, heq⟩ | ⟨e, hread, heq⟩
  · rw [heq]
    exact hnext bytes hread
  · rw [heq]
    exact .failed (.unreadable hsource hread)

theorem settled_writeGuest {dest : UInt32} {data : Bytes} {code : Int64}
    (hfits : ∀ c', d.Writes dest data c' → Serves f words c code c')
    (hunfit : d.Unwritable dest data → Fails f words c d) :
    Settled f words c ((Caller.writeGuest dest data >>= fun _ => pure code) d) := by
  rw [bind_apply]
  rcases Caller.writeGuest_cases d dest data with ⟨c', hwrite, heq⟩ | ⟨e, hwrite, heq⟩
  · rw [heq]
    exact .served (hfits c' hwrite)
  · rw [heq]
    exact .failed (hunfit hwrite)

/-- An operation of the host that checks the key first. -/
theorem settled_key {α : Type} {op : EStateM HostError (HostState σ) α}
    {next : α → EStateM HostError (Caller σ) Int64} {address length : UInt32} {key : Key}
    {r : EStateM.Result HostError (HostState σ) α}
    (hrange : f.keyRange? words = some (address, length)) (hread : c.Reads address length key)
    (hop : op c.host =
      if c.host.limits.maxKeyLen < key.length then .error (.keyTooLarge key.length) c.host else r)
    (hrest : key.length ≤ c.host.limits.maxKeyLen → op c.host = r →
      Settled f words c ((Caller.onHost op >>= next) c)) :
    Settled f words c ((Caller.onHost op >>= next) c) := by
  by_cases hkey : c.host.limits.maxKeyLen < key.length
  · rw [bind_apply, Caller.onHost_of_error (hop.trans (if_pos hkey))]
    exact .failed (.longKey hrange hread hkey)
  · exact hrest (Nat.not_lt.mp hkey) (hop.trans (if_neg hkey))

/-! ## Each function -/

theorem settled_print (address length : UInt32) (c : Caller σ) :
    Settled .print [address, length] c (run .print [address, length] c) :=
  settled_readGuest (by simp [sources]) fun _ hread => .served (.print hread)

theorem settled_getParameter (index dest : UInt32) (c : Caller σ) :
    Settled .getParameter [index, dest] c (run .getParameter [index, dest] c) := by
  simp only [run, bind_apply, get_apply]
  cases hparameter : c.host.parameter? index.toNat with
  | none => exact .absent (.noParameter hparameter)
  | some arg =>
    exact settled_writeGuest (fun c' hwrite => .getParameter hparameter hwrite) fun hunfit =>
      .parameterUnwritable hparameter hunfit

theorem settled_getState (address length dest : UInt32) (c : Caller σ) :
    Settled .getState [address, length, dest] c (run .getState [address, length, dest] c) := by
  refine settled_readGuest (by simp [sources]) fun key hread => ?_
  refine settled_key rfl hread (HostState.getState_eq key c.host) fun hshort hop => ?_
  rw [bind_apply, Caller.onHost_congr hop, Caller.onHost_onLedger]
  cases hget : (Ledger.get (ledgerKey c key) c.host.ledger :
      EStateM.Result LedgerError σ (Option Value)) with
  | error e ledger => exact .failed (.getRefused hread hget hshort)
  | ok found ledger =>
    cases found with
    | none => exact .absent (.absent hread hget hshort)
    | some value =>
      exact settled_writeGuest (fun c' hwrite => .getState hread hshort hget hwrite)
        fun hunfit => .valueUnwritable hread hget hshort hunfit

theorem settled_putState (address length valueAddress valueLength : UInt32) (c : Caller σ) :
    Settled .putState [address, length, valueAddress, valueLength] c
      (run .putState [address, length, valueAddress, valueLength] c) := by
  refine settled_readGuest (by simp [sources]) fun key hread => ?_
  refine settled_readGuest (by simp [sources]) fun value hvalueRead => ?_
  refine settled_key rfl hread (HostState.putState_eq key value c.host) fun hshort hop => ?_
  rw [bind_apply]
  by_cases hvalue : c.host.limits.maxValueLen < value.length
  · rw [Caller.onHost_of_error (hop.trans (if_pos hvalue))]
    exact .failed (.longValue hvalueRead hvalue)
  · have hfits : value.length ≤ c.host.limits.maxValueLen := Nat.not_lt.mp hvalue
    rw [Caller.onHost_congr (hop.trans (if_neg hvalue)), Caller.onHost_onLedger]
    cases hput : (Ledger.put (ledgerKey c key) value c.host.ledger :
        EStateM.Result LedgerError σ Unit) with
    | error e ledger => exact .failed (.putRefused hread hvalueRead hput hshort hfits)
    | ok _ ledger => exact .served (.putState hread hvalueRead hshort hfits hput)

theorem settled_deleteState (address length : UInt32) (c : Caller σ) :
    Settled .deleteState [address, length] c (run .deleteState [address, length] c) := by
  refine settled_readGuest (by simp [sources]) fun key hread => ?_
  refine settled_key rfl hread (HostState.deleteState_eq key c.host) fun hshort hop => ?_
  rw [bind_apply, Caller.onHost_congr hop, Caller.onHost_onLedger]
  cases hdelete : (Ledger.delete (ledgerKey c key) c.host.ledger :
      EStateM.Result LedgerError σ Unit) with
  | error e ledger => exact .failed (.deleteRefused hread hdelete hshort)
  | ok _ ledger => exact .served (.deleteState hread hshort hdelete)

theorem settled_returnResult (address length : UInt32) (c : Caller σ) :
    Settled .returnResult [address, length] c (run .returnResult [address, length] c) := by
  refine settled_readGuest (by simp [sources]) fun result hread => ?_
  rw [bind_apply]
  by_cases hresult : c.host.limits.maxResultLen < result.length
  case pos =>
    rw [Caller.onHost_of_error ((HostState.returnResult_eq result c.host).trans (if_pos hresult))]
    exact .failed (.longResult hread hresult)
  case neg =>
    rw [Caller.onHost_of_ok ((HostState.returnResult_eq result c.host).trans (if_neg hresult))]
    exact .served (.returnResult hread (Nat.not_lt.mp hresult))

/-- **A call is served or fails**, if it has as many arguments as the function takes. -/
theorem run_settled (harity : words.length = f.arity) (c : Caller σ) :
    Settled f words c (f.run words c) := by
  cases f with
  | print =>
    obtain ⟨address, length, rfl⟩ := List.length_eq_two.mp harity
    exact settled_print address length c
  | getParameter =>
    obtain ⟨index, dest, rfl⟩ := List.length_eq_two.mp harity
    exact settled_getParameter index dest c
  | getState =>
    obtain ⟨address, length, dest, rfl⟩ := List.length_eq_three.mp harity
    exact settled_getState address length dest c
  | putState =>
    obtain ⟨address, length, valueAddress, valueLength, rfl⟩ := List.length_eq_four.mp harity
    exact settled_putState address length valueAddress valueLength c
  | deleteState =>
    obtain ⟨address, length, rfl⟩ := List.length_eq_two.mp harity
    exact settled_deleteState address length c
  | returnResult =>
    obtain ⟨address, length, rfl⟩ := List.length_eq_two.mp harity
    exact settled_returnResult address length c

/-! ## Served calls do not fail -/

theorem Serves.reads {code : Int64} (h : Serves f words c code d) :
    ∀ r ∈ f.sources words, ∃ bytes, c.Reads r.1 r.2 bytes := by
  cases h with
  | getParameter => intro r hr; cases hr
  | putState hread hvalueRead =>
    intro r hr
    rcases List.mem_pair.mp hr with rfl | rfl
    · exact ⟨_, hread⟩
    · exact ⟨_, hvalueRead⟩
  | print hread | getState hread | deleteState hread | returnResult hread =>
    intro r hr
    cases List.mem_singleton.mp hr
    exact ⟨_, hread⟩

theorem Serves.key_length_le {code : Int64} {address length : UInt32} {key : Key}
    (h : Serves f words c code d) (hrange : f.keyRange? words = some (address, length))
    (hread : c.Reads address length key) : key.length ≤ c.host.limits.maxKeyLen := by
  cases h with
  | print | getParameter | returnResult => cases hrange
  | getState hkey hshort | deleteState hkey hshort | putState hkey _ hshort =>
    cases hrange
    exact hread.unique hkey ▸ hshort

/-- No call that fails is served. -/
theorem Fails.not_serves {code : Int64} {c' : Caller σ} (h : Fails f words c c') :
    ¬ Serves f words c code d := by
  intro hserves
  cases h with
  | unreadable hsource hunread =>
    obtain ⟨bytes, hread⟩ := hserves.reads _ hsource
    exact hunread.not_reads hread
  | longKey hrange hread hlong =>
    have hshort := hserves.key_length_le hrange hread
    omega
  | longValue hread hlong =>
    cases hserves with
    | putState _ hvalue _ hshort =>
      cases hread.unique hvalue
      omega
  | longResult hread hlong =>
    cases hserves with
    | returnResult hresult hshort =>
      cases hread.unique hresult
      omega
  | noParameter hnone =>
    cases hserves with
    | getParameter hsome => cases hnone.symm.trans hsome
  | parameterUnwritable harg hunfit =>
    cases hserves with
    | getParameter harg' hwrite =>
      cases harg.symm.trans harg'
      exact hunfit.not_writes hwrite
  | getRefused hread hget =>
    cases hserves with
    | getState hkey _ hget' =>
      cases hread.unique hkey
      cases hget.symm.trans hget'
  | absent hread hget =>
    cases hserves with
    | getState hkey _ hget' =>
      cases hread.unique hkey
      cases hget.symm.trans hget'
  | valueUnwritable hread hget _ hunfit =>
    cases hserves with
    | getState hkey _ hget' hwrite =>
      cases hread.unique hkey
      cases hget.symm.trans hget'
      exact hunfit.not_writes hwrite
  | putRefused hread hvalueRead hput =>
    cases hserves with
    | putState hkey hvalue _ _ hput' =>
      cases hread.unique hkey
      cases hvalueRead.unique hvalue
      cases hput.symm.trans hput'
  | deleteRefused hread hdelete =>
    cases hserves with
    | deleteState hkey _ hdelete' =>
      cases hread.unique hkey
      cases hdelete.symm.trans hdelete'

end HostFunction

end LedgerSandbox
