import LedgerSandbox.Proofs.Host.FailedCall
import LedgerSandbox.Proofs.Host.Memory
import LedgerSandbox.Proofs.Simulation.Run

/-!
# The host calls of a run

The calls that a guest makes while it runs are noted beside the state of the host
(`Run.notingHost`), each with the caller as it was at the time. Nobody notices that they are noted
(`Wasm.run_noting`).

What a run leaves of its invocation is read off the calls: the result is that of the last call of
`__return_result` that was answered with 0 (`lastResult`), and all the rest is as it was
(`Run.leftBy_run`). A call that is refused neither sets a result nor clears the one before it.
-/

namespace LedgerSandbox

variable {σ ν : Type}

/-! ## Noting calls -/

/-- A host that notes something about each call beside its state. -/
def Wasm.Host.noting (host : Wasm.Host σ)
    (note : Nat → List Value → Option Memory → σ → List ν) : Wasm.Host (σ × List ν) :=
  fun slot args memory s =>
    ((host slot args memory s.1).1, (host slot args memory s.1).2, s.2 ++ note slot args memory s.1)

/-- **Noting is not noticed**: a machine does the same, and leaves the same state of the host. -/
theorem Wasm.run_noting (host : Wasm.Host σ)
    (note : Nat → List Value → Option Memory → σ → List ν) (budget : Nat) (m : Machine) (s : σ)
    (notes : List ν) :
    (run (host.noting note) budget m (s, notes)).1 = (run host budget m s).1 ∧
      (run (host.noting note) budget m (s, notes)).2.1 = (run host budget m s).2 := by
  have alike : HostsAlike (fun t s => t.1 = s) (host.noting note) host := by
    rintro slot args memory t _ rfl
    exact ⟨rfl, rfl⟩
  exact run_simulates alike budget m rfl

/-- What every call of the host keeps is kept by a run. -/
theorem Wasm.run_keeps {I : σ → Prop} {host : Wasm.Host σ}
    (keeps : ∀ slot args memory s, I s → I (host slot args memory s).2) (budget : Nat) (m : Machine)
    {s : σ} (h : I s) : I (run host budget m s).2 := by
  have alike : HostsAlike (fun s t => s = t ∧ I t) host host := by
    rintro slot args memory s _ ⟨rfl, hs⟩
    exact ⟨rfl, rfl, keeps slot args memory s hs⟩
  exact (run_simulates alike budget m ⟨rfl, h⟩).2.2

/-! ## What a call does to the invocation -/

/-- No change of a ledger shows to someone who does not look at it. -/
def Observer.blind (σ : Type) [Ledger σ] : Observer σ Unit where
  observe _ := ()
  observe_get _ _ := rfl

namespace HostFunction

variable [Ledger σ] {f : HostFunction} {words : List UInt32} {c c' : Caller σ} {code : Int64}

/-- Failing calls change neither the invocation nor the limits. -/
theorem Fails.untouched_blind (h : Fails f words c c') : c.Untouched (.blind σ) c' :=
  h.untouched fun _ => rfl

theorem Serves.limits_eq (h : Serves f words c code c') : c'.host.limits = c.host.limits := by
  cases h with
  | @print _ _ _ message =>
    show (c.host.print message).limits = c.host.limits
    unfold HostState.print
    split
    · rfl
    · rfl
  | getParameter _ hwrite | getState _ _ _ hwrite =>
    obtain ⟨_, _, _, rfl⟩ := hwrite
    rfl
  | putState | deleteState | returnResult => rfl

/-- Only a result that is handed over changes the invocation. -/
theorem Serves.invocation_eq (h : Serves f words c code c') (hf : f ≠ .returnResult) :
    c'.host.invocation = c.host.invocation := by
  cases h with
  | @print _ _ _ message =>
    show (c.host.print message).invocation = c.host.invocation
    unfold HostState.print
    split
    · rfl
    · rfl
  | getParameter _ hwrite | getState _ _ _ hwrite =>
    obtain ⟨_, _, _, rfl⟩ := hwrite
    rfl
  | putState | deleteState => rfl
  | returnResult => exact absurd rfl hf

theorem limits_call (f : HostFunction) (args : List Wasm.Value) (c : Caller σ) :
    (f.call args c).2.host.limits = c.host.limits := by
  rcases f.call_settled args c with heq | ⟨_, -, ⟨_, _, hserves, heq⟩ | ⟨_, hfails, heq⟩⟩
  · rw [heq]
  · rw [heq]
    exact hserves.limits_eq
  · rw [heq]
    exact hfails.untouched_blind.limits

end HostFunction

/-! ## Calls -/

/-- A call of the host: the function, the values that are passed, and the caller. -/
structure GuestCall (σ : Type) where
  function : HostFunction
  args : List Wasm.Value
  caller : Caller σ

namespace GuestCall

/-- The bytes of the guest's memory that the arguments of a call name by address and length. -/
def named? (call : GuestCall σ) : Option Bytes :=
  match call.args.mapM GuestMemory.argument?, call.caller.memory with
  | some [address, length], some memory =>
    some (((Bytes.ofByteArray memory).drop address.toNat).take length.toNat)
  | _, _ => none

/-- Whether a call hands over a result: it names a range within the memory, and what stands there
is not too long. -/
inductive HandsOver : GuestCall σ → Bytes → Prop
  | intro {args : List Wasm.Value} {caller : Caller σ} {address length : UInt32} {result : Bytes} :
    args.mapM GuestMemory.argument? = some [address, length] →
    caller.Reads address length result → result.length ≤ caller.host.limits.maxResultLen →
    HandsOver ⟨.returnResult, args, caller⟩ result

variable {call : GuestCall σ} {result : Bytes}

theorem HandsOver.named?_eq (h : call.HandsOver result) : call.named? = some result := by
  obtain ⟨hwords, ⟨memory, hmemory, hread⟩, -⟩ := h
  obtain ⟨hlength, hholds⟩ := GuestMemory.holds_of_read hread
  unfold named?
  rw [hwords, hmemory]
  dsimp only
  rw [← hlength, (GuestMemory.holds_iff_take_drop.mp hholds).2]

variable [Ledger σ]

/-- The code that the guest gets. -/
def code (call : GuestCall σ) : Int64 := (call.function.call call.args call.caller).1

/-- The host as the call leaves it. -/
def after (call : GuestCall σ) : HostState σ := (call.function.call call.args call.caller).2.host

/-- The result that a call hands over: the bytes that it names, if it is a call of
`__return_result` that is answered with 0. -/
def result? (call : GuestCall σ) : Option Bytes :=
  if call.function = .returnResult ∧ call.code = 0 then call.named? else none

/-- A result that is handed over takes the place of an earlier one. -/
theorem HandsOver.accepted (h : call.HandsOver result) :
    call.code = 0 ∧
      call.after.invocation = { call.caller.host.invocation with captured := some result } := by
  obtain @⟨args, c, address, length, _, hwords, hread, hshort⟩ := h
  have hserved := HostFunction.Serves.returnResult hread hshort
  unfold code after HostFunction.call
  rw [hwords]
  have hsettled := HostFunction.settled_returnResult address length c
  dsimp only
  generalize HostFunction.run .returnResult [address, length] c = r at hsettled
  cases hsettled with
  | served hserves =>
    cases hserves with
    | returnResult hread' =>
      rw [hread.unique hread']
      exact ⟨rfl, rfl⟩
  | failed hfails | absent hfails => exact absurd hserved hfails.not_serves

/-- Every other call leaves the invocation as it is, and is answered with −1 if it should have
handed over a result. -/
theorem refused (h : ∀ result, ¬ call.HandsOver result) :
    (call.function = .returnResult → call.code = failureCode) ∧
      call.after.invocation = call.caller.host.invocation := by
  obtain ⟨f, args, c⟩ := call
  unfold code after
  rcases f.call_settled args c with heq | ⟨_, hwords, ⟨_, _, hserves, heq⟩ | ⟨_, hfails, heq⟩⟩
  · rw [heq]
    exact ⟨fun _ => rfl, rfl⟩
  · have hne : f ≠ .returnResult := by
      rintro rfl
      cases hserves with
      | returnResult hread hshort => exact h _ ⟨hwords, hread, hshort⟩
    rw [heq]
    exact ⟨fun hf => absurd hf hne, hserves.invocation_eq hne⟩
  · rw [heq]
    exact ⟨fun _ => rfl, hfails.untouched_blind.invocation⟩

theorem HandsOver.result?_eq (h : call.HandsOver result) : call.result? = some result := by
  have hcode := h.accepted.1
  have hnamed := h.named?_eq
  cases h
  exact (if_pos ⟨rfl, hcode⟩).trans hnamed

theorem result?_of_refused (h : ∀ result, ¬ call.HandsOver result) : call.result? = none := by
  refine if_neg fun ⟨hfunction, hcode⟩ => ?_
  rw [(refused h).1 hfunction] at hcode
  exact absurd hcode (by decide)

/-- A call of `__return_result` is accepted or refused, and the guest is told. -/
theorem accepted_or_refused (call : GuestCall σ) (hfunction : call.function = .returnResult) :
    (call.code = 0 ∧ ∃ result, call.HandsOver result ∧ call.result? = some result) ∨
      (call.code = failureCode ∧ (∀ result, ¬ call.HandsOver result) ∧ call.result? = none) := by
  by_cases hhands : ∃ result, call.HandsOver result
  · obtain ⟨result, hhands⟩ := hhands
    exact .inl ⟨hhands.accepted.1, result, hhands, hhands.result?_eq⟩
  · have hnone := not_exists.mp hhands
    exact .inr ⟨(refused hnone).1 hfunction, hnone, result?_of_refused hnone⟩

/-- The calls that hand over a result can be told by the code that they get. -/
theorem result?_eq_some_iff : call.result? = some result ↔ call.HandsOver result := by
  refine ⟨fun h => ?_, HandsOver.result?_eq⟩
  by_contra hnot
  have hnone : call.result? = none := result?_of_refused fun other hother => by
    cases h.symm.trans hother.result?_eq
    exact hnot hother
  cases h.symm.trans hnone

/-- A call does nothing to the invocation but hand over its result. -/
theorem invocation_after (call : GuestCall σ) :
    call.after.invocation = { call.caller.host.invocation with
      captured := call.result?.or call.caller.host.invocation.captured } := by
  cases hresult : call.result? with
  | some result => exact (result?_eq_some_iff.mp hresult).accepted.2
  | none =>
    refine (refused fun result hhands => ?_).2
    cases hresult.symm.trans hhands.result?_eq

end GuestCall

variable [Ledger σ]

/-- The result of the last call that hands one over. -/
def lastResult (calls : List (GuestCall σ)) : Option Bytes :=
  (calls.filterMap GuestCall.result?).getLast?

theorem lastResult_concat (calls : List (GuestCall σ)) (call : GuestCall σ) :
    lastResult (calls ++ [call]) = call.result?.or (lastResult calls) := by
  unfold lastResult
  rw [List.filterMap_append, List.getLast?_append]
  cases hresult : call.result? with
  | none => simp [hresult]
  | some result => simp [hresult]

/-! ## The calls of a run -/

namespace Run

/-- The calls that come of one call of an imported function: one, if the host has a function in
its place. A guest that does not show its memory calls without one. -/
def noted (links : List Link) (showsMemory : Bool) (slot : Nat) (args : List Wasm.Value)
    (memory : Option Wasm.Memory) (h : HostState σ) : List (GuestCall σ) :=
  (functions links)[slot]?.toList.map fun (f, _) =>
    ⟨f, args, ⟨if showsMemory then memory.map (·.data) else none, h⟩⟩

/-- The host as the machine sees it, with the calls made of it. -/
def notingHost (links : List Link) (showsMemory : Bool) :
    Wasm.Host (HostState σ × List (GuestCall σ)) :=
  (host links showsMemory).noting (noted links showsMemory)

/-- Whether a host is as calls have left it that found it in some state. -/
structure LeftBy (h : HostState σ) (calls : List (GuestCall σ)) (h' : HostState σ) : Prop where
  invocation : h'.invocation =
    { h.invocation with captured := (lastResult calls).or h.invocation.captured }
  limits : h'.limits = h.limits
  /-- All calls were made under the limits of the invocation. -/
  calls : ∀ call ∈ calls, call.caller.host.limits = h.limits

variable {links : List Link} {showsMemory : Bool} {slot : Nat} {args : List Wasm.Value}
  {memory : Option Wasm.Memory} {h k : HostState σ} {calls : List (GuestCall σ)}

/-- A host is left as the call leaves it that is noted, or as it was if none is. -/
theorem host_noted (links : List Link) (showsMemory : Bool) (slot : Nat) (args : List Wasm.Value)
    (memory : Option Wasm.Memory) (h : HostState σ) :
    (noted links showsMemory slot args memory h = [] ∧
        (host links showsMemory slot args memory h).2 = h) ∨
      ∃ call, noted links showsMemory slot args memory h = [call] ∧ call.caller.host = h ∧
        (host links showsMemory slot args memory h).2 = call.after := by
  unfold host noted
  dsimp only
  cases (functions links)[slot]? with
  | none => exact .inl ⟨rfl, rfl⟩
  | some link =>
    obtain ⟨f, type⟩ := link
    refine .inr ⟨_, rfl, rfl, ?_⟩
    unfold GuestCall.after HostFunction.callAs
    cases showsMemory with
    | false => rfl
    | true =>
      cases memory with
      | none => rfl
      | some memory =>
        obtain ⟨data, limit⟩ := memory
        simp only [Option.map_some, if_true]
        generalize f.call args ⟨some data, h⟩ = r
        obtain ⟨code, memory, k⟩ := r
        cases memory with
        | none => rfl
        | some data => rfl

theorem LeftBy.refl (h : HostState σ) : LeftBy h [] h := ⟨rfl, rfl, fun _ hc => nomatch hc⟩

/-- What one more call leaves. -/
theorem LeftBy.call {call : GuestCall σ} (hleft : LeftBy h calls k)
    (hcaller : call.caller.host = k) :
    LeftBy h (calls ++ [call]) call.after where
  invocation := by
    rw [call.invocation_after, hcaller, hleft.invocation, lastResult_concat]
    cases call.result? with
    | none => rfl
    | some result => rfl
  limits := by
    rw [GuestCall.after, HostFunction.limits_call, hcaller, hleft.limits]
  calls c hc := by
    rcases List.mem_append.mp hc with hc | hc
    · exact hleft.calls c hc
    · rw [List.mem_singleton.mp hc, hcaller, hleft.limits]

/-- **A run leaves the invocation as its calls do.** -/
theorem leftBy_run (links : List Link) (showsMemory : Bool) (budget : Nat) (m : Wasm.Machine)
    (hleft : LeftBy h calls k) :
    LeftBy h (Wasm.run (notingHost links showsMemory) budget m (k, calls)).2.2
      (Wasm.run (notingHost links showsMemory) budget m (k, calls)).2.1 := by
  have keeps : ∀ slot args memory (s : HostState σ × List (GuestCall σ)), LeftBy h s.2 s.1 →
      LeftBy h (notingHost links showsMemory slot args memory s).2.2
        (notingHost links showsMemory slot args memory s).2.1 := by
    intro slot args memory ⟨k, calls⟩ hleft
    show LeftBy h (calls ++ noted links showsMemory slot args memory k)
      (host links showsMemory slot args memory k).2
    rcases host_noted links showsMemory slot args memory k with
      ⟨hnone, hsame⟩ | ⟨call, hcall, hcaller, hafter⟩
    · rw [hnone, List.append_nil, hsame]
      exact hleft
    · rw [hcall, hafter]
      exact hleft.call hcaller
  exact Wasm.run_keeps keeps budget m hleft

end Run

end LedgerSandbox
