import LedgerSandbox.Proofs.Host.FailedCall
import LedgerSandbox.Proofs.Host.Isolation
import LedgerSandbox.Proofs.Host.Memory
import Mathlib.Logic.Relation

/-!
# Host calls that are served

A guest that gets a code that is not negative was served, and then its call has done what the
table of host functions says, byte for byte, and nothing else (`HostFunction.Effect`). Each of
the rows shows the whole of the caller afterwards, so that what a row does not mention is as it
was before. Ranges of memory may be empty and may overlap in any way: keys and values are
copied out before anything is written.

What was put is read back (`HostFunction.Serves.finds`), as long as nobody writes the key in
between (`HostFunction.Step`).
-/

namespace LedgerSandbox

open GuestMemory (Holds Replaced)

/-- Whether the arguments and the values of the ledger have lengths that fit a machine word, as
everything does that is in the memory of a machine. -/
structure Caller.Sized (c : Caller MemoryLedger) : Prop where
  args : ∀ arg ∈ c.host.invocation.args, arg.length < 2 ^ 64
  values : ∀ key value, c.host.ledger.contents.get? key = some value → value.length < 2 ^ 64

namespace HostFunction

/-! ## The table of host functions -/

/-- Whether a memory holds bytes in a range that a guest names. -/
def InRange (memory : ByteArray) (address length : UInt32) (bytes : Bytes) : Prop :=
  bytes.length = length.toNat ∧ Holds memory address.toNat bytes

/-- The log of a host after a message. One that is too long is dropped. -/
def logAfter (host : HostState MemoryLedger) (message : Bytes) : Array LogEntry :=
  if host.limits.maxPrintLen < message.length then host.log
  else host.log.push ⟨host.invocation.moduleName, Text.decodeLossy message⟩

/-- What a served call does on a memory: the arguments, the code, and the caller afterwards. -/
inductive Effect (c : Caller MemoryLedger) (memory : ByteArray) :
    HostFunction → List UInt32 → Int → Caller MemoryLedger → Prop
  /-- Only the log may grow. -/
  | print {address length : UInt32} {message : Bytes} : InRange memory address length message →
    Effect c memory .print [address, length] 0
      { c with host := { c.host with log := logAfter c.host message } }
  /-- The argument is copied into the memory. -/
  | getParameter {index dest : UInt32} {arg : Bytes} {memory' : ByteArray} :
    c.host.invocation.args[index.toNat]? = some arg →
    Replaced memory dest.toNat arg memory' →
    Effect c memory .getParameter [index, dest] arg.length { c with memory := some memory' }
  /-- The value is copied into the memory. -/
  | getState {address length dest : UInt32} {key : Key} {value : Value} {memory' : ByteArray} :
    InRange memory address length key →
    c.host.ledger.contents.get? (ledgerKey c key) = some value →
    Replaced memory dest.toNat value memory' →
    Effect c memory .getState [address, length, dest] value.length
      { c with memory := some memory' }
  /-- One entry of the ledger gets the value. -/
  | putState {address length valueAddress valueLength : UInt32} {key : Key} {value : Value}
    {ledger : MemoryLedger} : InRange memory address length key →
    InRange memory valueAddress valueLength value →
    ledger.contents.get? =
      Function.update c.host.ledger.contents.get? (ledgerKey c key) (some value) →
    Effect c memory .putState [address, length, valueAddress, valueLength] 0 (c.withLedger ledger)
  /-- One entry of the ledger is removed. -/
  | deleteState {address length : UInt32} {key : Key} {ledger : MemoryLedger} :
    InRange memory address length key →
    ledger.contents.get? = Function.update c.host.ledger.contents.get? (ledgerKey c key) none →
    Effect c memory .deleteState [address, length] 0 (c.withLedger ledger)
  /-- The result takes the place of an earlier one. -/
  | returnResult {address length : UInt32} {result : Bytes} :
    InRange memory address length result →
    Effect c memory .returnResult [address, length] 0
      { c with host := { c.host with
        invocation := { c.host.invocation with captured := some result } } }

variable {f : HostFunction} {words : List UInt32} {args : List Wasm.Value}
  {c c' d : Caller MemoryLedger} {key : Key}

/-! ## One call -/

theorem InRange.unique {memory : ByteArray} {address length : UInt32} {bytes other : Bytes}
    (h : InRange memory address length bytes) (h' : InRange memory address length other) :
    bytes = other := by
  have hbytes := (GuestMemory.holds_iff_take_drop.mp h.2).2
  have hother := (GuestMemory.holds_iff_take_drop.mp h'.2).2
  rw [← hbytes, ← hother, h.1, h'.1]

theorem inRange_of_reads {memory : ByteArray} {address length : UInt32} {bytes : Bytes}
    (hmemory : c.memory = some memory) (h : c.Reads address length bytes) :
    InRange memory address length bytes := by
  obtain ⟨memory', hmemory', hread⟩ := h
  cases hmemory.symm.trans hmemory'
  exact GuestMemory.holds_of_read hread

theorem exists_inRange {address length : UInt32} {bytes : Bytes} (h : c.Reads address length bytes) :
    ∃ memory, c.memory = some memory ∧ InRange memory address length bytes := by
  obtain ⟨memory, hmemory, hread⟩ := h
  exact ⟨memory, hmemory, GuestMemory.holds_of_read hread⟩

theorem replaced_of_writes {dest : UInt32} {data : Bytes} (hdata : data.length < 2 ^ 64)
    (h : c.Writes dest data d) : ∃ memory memory', c.memory = some memory ∧
      Replaced memory dest.toNat data memory' ∧ d = { c with memory := some memory' } := by
  obtain ⟨memory, hmemory, hcheck, rfl⟩ := h
  have hroom := GuestMemory.room_of_checkWrite hdata hcheck
  exact ⟨memory, _, hmemory, GuestMemory.replaced_store hroom, rfl⟩

theorem print_eq (host : HostState MemoryLedger) (message : Bytes) :
    host.print message = { host with log := logAfter host message } := by
  unfold HostState.print logAfter
  split
  · rfl
  · rfl

/-- A ledger in memory is not changed by reads. -/
theorem get?_of_get_ok {k : Key} {l l' : MemoryLedger} {found : Option Value}
    (h : Ledger.get k l = .ok found l') : l.contents.get? k = found ∧ l' = l := by
  rw [MemoryLedger.get_apply] at h
  split at h
  · cases h
  · cases h
    exact ⟨rfl, rfl⟩

/-- **A call that is served has its effect.** -/
theorem Serves.effect {code : Int64} (hsized : c.Sized) (h : Serves f words c code c')
    (hcode : 0 ≤ code) :
    ∃ memory, c.memory = some memory ∧ Effect c memory f words code.toInt c' := by
  cases h with
  | print hread =>
    obtain ⟨memory, hmemory, hmessage⟩ := exists_inRange hread
    rw [print_eq]
    exact ⟨memory, hmemory, .print hmessage⟩
  | getParameter harg hwrite =>
    have hlength := hsized.args _ (List.mem_of_getElem? harg)
    obtain ⟨memory, memory', hmemory, hreplaced, rfl⟩ := replaced_of_writes hlength hwrite
    rw [GuestMemory.toInt_code hlength hcode]
    exact ⟨memory, hmemory, .getParameter harg hreplaced⟩
  | getState hread _ hget hwrite =>
    obtain ⟨hvalue, rfl⟩ := get?_of_get_ok hget
    have hlength := hsized.values _ _ hvalue
    obtain ⟨memory, memory', hmemory, hreplaced, rfl⟩ := replaced_of_writes hlength hwrite
    rw [GuestMemory.toInt_code hlength hcode]
    exact ⟨memory, hmemory, .getState (inRange_of_reads hmemory hread) hvalue hreplaced⟩
  | putState hread hvalueRead _ _ hput =>
    obtain ⟨memory, hmemory, hkey⟩ := exists_inRange hread
    have hvalue := inRange_of_reads hmemory hvalueRead
    exact ⟨memory, hmemory, .putState hkey hvalue (MemoryLedger.view.write_ok hput)⟩
  | deleteState hread _ hdelete =>
    obtain ⟨memory, hmemory, hkey⟩ := exists_inRange hread
    exact ⟨memory, hmemory, .deleteState hkey (MemoryLedger.view.write_ok hdelete)⟩
  | returnResult hread _ =>
    obtain ⟨memory, hmemory, hresult⟩ := exists_inRange hread
    exact ⟨memory, hmemory, .returnResult hresult⟩

/-! ## What happens between two calls -/

/-- Whether a call changes the entry of a key: it puts or deletes the key, and is served. -/
def Changes (f : HostFunction) (args : List Wasm.Value) (c : Caller MemoryLedger) (key : Key) :
    Prop :=
  (f = .putState ∨ f = .deleteState) ∧ 0 ≤ (f.call args c).1 ∧
    ∃ words memory address length, args.mapM GuestMemory.argument? = some words ∧
      f.keyRange? words = some (address, length) ∧ c.memory = some memory ∧
      InRange memory address length key

/-- What can happen while nobody writes a key of the guest. -/
inductive Step (key : Key) (c : Caller MemoryLedger) : Caller MemoryLedger → Prop
  /-- The guest works on its memory. -/
  | guest (memory : Option ByteArray) : Step key c { c with memory }
  /-- The guest calls the host. -/
  | call {f : HostFunction} {args : List Wasm.Value} : ¬ f.Changes args c key →
    Step key c (f.call args c).2
  /-- Others work on the same ledger. -/
  | others {ledger : MemoryLedger} :
    ledger.contents.get? (ledgerKey c key) = c.host.ledger.contents.get? (ledgerKey c key) →
    Step key c (c.withLedger ledger)

/-- Whether an invocation stands to a key as it did before: it means the same entry of the
ledger by it, finds the same there, and is as free to read it. -/
structure SameFor (key : Key) (before after : Caller MemoryLedger) : Prop where
  moduleName : after.host.invocation.moduleName = before.host.invocation.moduleName
  limits : after.host.limits = before.host.limits
  value : after.host.ledger.contents.get? (ledgerKey before key) =
    before.host.ledger.contents.get? (ledgerKey before key)

theorem SameFor.refl (key : Key) (c : Caller MemoryLedger) : SameFor key c c := ⟨rfl, rfl, rfl⟩

theorem SameFor.trans {e : Caller MemoryLedger} (h : SameFor key c d) (h' : SameFor key d e) :
    SameFor key c e := by
  have hkey : ledgerKey d key = ledgerKey c key := by rw [ledgerKey, h.moduleName]
  have hvalue := h'.value
  rw [hkey] at hvalue
  exact ⟨h'.moduleName.trans h.moduleName, h'.limits.trans h.limits, hvalue.trans h.value⟩

/-- Writing another key. -/
theorem sameFor_write {k : Key} {change : Option Value} {ledger : MemoryLedger}
    (h : Ledger.write (ledgerKey c k) change c.host.ledger = .ok () ledger) (hne : k ≠ key) :
    SameFor key c (c.withLedger ledger) := by
  refine ⟨rfl, rfl, ?_⟩
  have hkey : ledgerKey c key ≠ ledgerKey c k :=
    fun heq => hne ((guestKey_right_inj _).mp heq).symm
  have hcontents := congrFun (MemoryLedger.view.write_ok h) (ledgerKey c key)
  rwa [Function.update_of_ne hkey] at hcontents

/-- A served call leaves the entries of other keys alone. -/
theorem Serves.sameFor {code : Int64} (h : Serves f words c code d)
    (hother : f = .putState ∨ f = .deleteState → ∀ address length k,
      f.keyRange? words = some (address, length) → c.Reads address length k → k ≠ key) :
    SameFor key c d := by
  cases h with
  | print =>
    rw [print_eq]
    exact ⟨rfl, rfl, rfl⟩
  | getParameter _ hwrite =>
    obtain ⟨memory, -, -, rfl⟩ := hwrite
    exact ⟨rfl, rfl, rfl⟩
  | getState _ _ hget hwrite =>
    obtain ⟨-, rfl⟩ := get?_of_get_ok hget
    obtain ⟨memory, -, -, rfl⟩ := hwrite
    exact ⟨rfl, rfl, rfl⟩
  | @putState _ _ _ _ _ k value ledger hread _ _ _ hput =>
    have hwrite : Ledger.write (ledgerKey c k) (some value) c.host.ledger = .ok () ledger := hput
    exact sameFor_write hwrite (hother (.inl rfl) _ _ k rfl hread)
  | @deleteState _ _ _ k ledger hread _ hdelete =>
    have hwrite : Ledger.write (ledgerKey c k) none c.host.ledger = .ok () ledger := hdelete
    exact sameFor_write hwrite (hother (.inr rfl) _ _ k rfl hread)
  | returnResult => exact ⟨rfl, rfl, rfl⟩

theorem Fails.sameFor (h : Fails f words c d) : SameFor key c d := by
  have huntouched := h.untouched (o := MemoryLedger.view.observer) MemoryLedger.view.write_error
  refine ⟨by rw [huntouched.invocation], huntouched.limits, ?_⟩
  exact congrFun huntouched.ledger (ledgerKey c key)

theorem sameFor_call (h : ¬ f.Changes args c key) : SameFor key c (f.call args c).2 := by
  rcases f.call_settled args c with heq | ⟨words, hwords, hcall⟩
  · rw [heq]
    exact .refl key c
  · rcases hcall with ⟨code, c', hserves, heq⟩ | ⟨c', hfails, heq⟩
    case inr =>
      rw [heq]
      exact hfails.sameFor
    case inl =>
      rw [heq]
      refine hserves.sameFor fun hwrites address length k hrange hread hk => h ?_
      obtain ⟨memory, hmemory, hkey⟩ := exists_inRange hread
      have hcode : 0 ≤ code := by
        cases hserves with
        | putState | deleteState => decide
        | print | getParameter | getState | returnResult => simp at hwrites
      refine ⟨hwrites, by rwa [heq], words, memory, address, length, hwords, hrange, hmemory, ?_⟩
      exact hk ▸ hkey

/-- One step. -/
theorem Step.sameFor (h : Step key c d) : SameFor key c d := by
  cases h with
  | guest memory => exact ⟨rfl, rfl, rfl⟩
  | call hchanges => exact sameFor_call hchanges
  | others hvalue => exact ⟨rfl, rfl, hvalue⟩

/-- Any number of steps. -/
theorem sameFor_steps (h : Relation.ReflTransGen (Step key) c d) : SameFor key c d := by
  induction h with
  | refl => exact .refl key c
  | tail _ hstep ih => exact ih.trans hstep.sameFor

/-! ## Reading back -/

/-- Whether a guest that gets a key gets a value, wherever in its memory it has the key and
wherever it has room for the value. -/
def Finds (c : Caller MemoryLedger) (key : Key) (value : Value) : Prop :=
  ∀ (args : List Wasm.Value) (memory : ByteArray) (address length dest : UInt32),
    args.mapM GuestMemory.argument? = some [address, length, dest] →
    c.memory = some memory → memory.size < 2 ^ 64 → InRange memory address length key →
    dest.toNat + value.length ≤ memory.size →
    ∃ memory', Replaced memory dest.toNat value memory' ∧
      (call .getState args c).1.toInt = value.length ∧
      (call .getState args c).2 = { c with memory := some memory' }

/-- A served get does what serving it comes to. -/
theorem call_getState {address length dest : UInt32} {value : Value}
    (hwords : args.mapM GuestMemory.argument? = some [address, length, dest])
    (hread : c.Reads address length key) (hshort : key.length ≤ c.host.limits.maxKeyLen)
    (hvalue : c.host.ledger.contents.get? (ledgerKey c key) = some value)
    (hwrite : c.Writes dest value d) : call .getState args c = (Int64.ofNat value.length, d) := by
  have hget : Ledger.get (ledgerKey c key) c.host.ledger = .ok (some value) c.host.ledger := by
    rw [MemoryLedger.get_apply, if_neg (guestKey_ne_nil _ _), hvalue]
  have harity : args.length = HostFunction.getState.arity :=
    (GuestMemory.length_of_mapM_argument? hwords).symm
  rcases call_cases harity c with ⟨hnone, -⟩ | ⟨words, hwords', hcall⟩
  · cases hnone.symm.trans hwords
  · cases hwords.symm.trans hwords'
    rcases hcall with ⟨code, c', hserves, heq⟩ | ⟨c', hfails, -⟩
    · rw [heq]
      cases hserves with
      | getState hread' _ hget' hwrite' =>
        cases hread.unique hread'
        cases hget.symm.trans hget'
        obtain ⟨memory, hmemory, -, rfl⟩ := hwrite
        obtain ⟨memory', hmemory', -, rfl⟩ := hwrite'
        cases hmemory.symm.trans hmemory'
        rfl
    · exact absurd (Serves.getState hread hshort hget hwrite) hfails.not_serves

theorem finds_of_get? {value : Value} (hshort : key.length ≤ c.host.limits.maxKeyLen)
    (hvalue : c.host.ledger.contents.get? (ledgerKey c key) = some value)
    (hlength : value.length < 2 ^ 32) : Finds c key value := by
  intro args memory address length dest hwords hmemory hsize hkey hroom
  have hread : c.Reads address length key :=
    ⟨memory, hmemory, (GuestMemory.read_eq_ok_iff hsize).mpr hkey⟩
  have hcheck : GuestMemory.checkWrite memory dest value = .ok () :=
    (GuestMemory.checkWrite_eq_ok_iff_room hsize (by omega)).mpr hroom
  have hcall := call_getState hwords hread hshort hvalue ⟨memory, hmemory, hcheck, rfl⟩
  rw [hcall]
  exact ⟨_, GuestMemory.replaced_store hroom, Int64.toInt_ofNat_of_lt (by omega), rfl⟩

/-- A value that was put is found, until somebody writes the key again. -/
theorem Serves.finds {code : Int64} {memory : ByteArray}
    {address length valueAddress valueLength : UInt32} {value : Value}
    (h : Serves .putState [address, length, valueAddress, valueLength] c code c')
    (hmemory : c.memory = some memory) (hkey : InRange memory address length key)
    (hvalue : InRange memory valueAddress valueLength value)
    (hsteps : Relation.ReflTransGen (Step key) c' d) : Finds d key value := by
  have hsame := sameFor_steps hsteps
  cases h with
  | @putState _ _ _ _ _ _ _ ledger hread hvalueRead hshort _ hput =>
    cases hkey.unique (inRange_of_reads hmemory hread)
    cases hvalue.unique (inRange_of_reads hmemory hvalueRead)
    have hwrite : Ledger.write (ledgerKey c key) (some value) c.host.ledger = .ok () ledger := hput
    have hput : ledger.contents.get? (ledgerKey c key) = some value := by
      rw [← Function.update_self (ledgerKey c key) (some value) c.host.ledger.contents.get?]
      exact congrFun (MemoryLedger.view.write_ok hwrite) (ledgerKey c key)
    have hname : ledgerKey d key = ledgerKey c key := by
      rw [ledgerKey, hsame.moduleName]
      rfl
    refine finds_of_get? (by rwa [hsame.limits]) ?_ (hvalue.1 ▸ valueLength.toNat_lt)
    rw [hname]
    exact hsame.value.trans hput

/-! ## All calls -/

/-- What a guest can rely on when its calls are served. -/
structure ServedExactly (c : Caller MemoryLedger) : Prop where
  /-- A call with a code that is not negative has done what its row of the table says. -/
  effect : ∀ {f : HostFunction} {args : List Wasm.Value}, 0 ≤ (f.call args c).1 →
    ∃ words memory, args.mapM GuestMemory.argument? = some words ∧ c.memory = some memory ∧
      Effect c memory f words (f.call args c).1.toInt (f.call args c).2
  /-- A value that was put is found, whatever happens before it is asked for. -/
  readBack : ∀ {args : List Wasm.Value} {memory : ByteArray}
    {address length valueAddress valueLength : UInt32} {key : Key} {value : Value},
    0 ≤ (call .putState args c).1 →
    args.mapM GuestMemory.argument? = some [address, length, valueAddress, valueLength] →
    c.memory = some memory → InRange memory address length key →
    InRange memory valueAddress valueLength value →
    ∀ {d : Caller MemoryLedger},
      Relation.ReflTransGen (Step key) (call .putState args c).2 d → Finds d key value

/-- **Served calls do what the table of host functions says, and nothing else**, for every
memory, every host on a ledger in memory, and every arguments. -/
theorem served_call_exact (hsized : c.Sized) : ServedExactly c where
  effect {f args} hcode := by
    obtain ⟨words, hwords, hserves⟩ := serves_of_code_nonneg hcode
    obtain ⟨memory, hmemory, heffect⟩ := hserves.effect hsized hcode
    exact ⟨words, memory, hwords, hmemory, heffect⟩
  readBack hcode hwords hmemory hkey hvalue _ hsteps := by
    obtain ⟨words, hwords', hserves⟩ := serves_of_code_nonneg hcode
    cases hwords.symm.trans hwords'
    exact hserves.finds hmemory hkey hvalue hsteps

/-- A guest with a small memory, on an empty ledger. -/
def smallGuest : Caller MemoryLedger where
  memory := some ⟨#[1, 2, 3, 4, 5, 6, 7, 8]⟩
  host := {
    invocation := { moduleName := "m", args := [[9]] }
    limits := {}
    ledger := ⟨∅⟩ }

/-- A put whose key and value overlap: `[3, 4, 5, 6]` under the key `[1, 2, 3, 4]`. -/
def overlappingPut : List Wasm.Value := [.i32 0, .i32 4, .i64 2, .i32 4]

theorem served_call_exact_smallGuest :
    smallGuest.Sized ∧ ServedExactly smallGuest ∧ 0 ≤ (call .putState overlappingPut smallGuest).1 ∧
      Finds (call .putState overlappingPut smallGuest).2 [1, 2, 3, 4] [3, 4, 5, 6] := by
  have hsized : smallGuest.Sized := by
    refine ⟨fun arg harg => ?_, fun key value hvalue => ?_⟩
    · cases List.mem_singleton.mp harg
      decide
    · cases hvalue
  have hcode : 0 ≤ (call .putState overlappingPut smallGuest).1 := by decide +kernel
  have hkey : InRange ⟨#[1, 2, 3, 4, 5, 6, 7, 8]⟩ 0 4 [1, 2, 3, 4] := ⟨rfl, by decide, by decide⟩
  have hvalue : InRange ⟨#[1, 2, 3, 4, 5, 6, 7, 8]⟩ 2 4 [3, 4, 5, 6] := ⟨rfl, by decide, by decide⟩
  have hserved := served_call_exact hsized
  exact ⟨hsized, hserved, hcode, hserved.readBack hcode rfl rfl hkey hvalue .refl⟩

/-- The value that is read back overlaps the key, too. -/
example : (call .getState [.i32 0, .i32 4, .i32 1]
    (call .putState overlappingPut smallGuest).2).2.memory.map Bytes.ofByteArray =
      some [1, 3, 4, 5, 6, 6, 7, 8] := by
  decide +kernel

end HostFunction

end LedgerSandbox
