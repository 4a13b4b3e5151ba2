import LedgerSandbox.Proofs.Sandbox.Reuse
import Mathlib.Data.List.Find

/-!
# Calls of one sandbox

A sandbox serves one call after the other, each of them on a ledger of its own choice. What it
replies to a call is what a new sandbox under the same configuration would reply, whatever the
calls before were and however they ended (`Sandbox.reuse_invisible`).

The reason is the invariant `Sandbox.Sound`, which every call keeps: a module that has been
accepted is the one that the checks would accept now. Beyond its accepted modules, a sandbox
carries nothing from one call to the next that a run could see.

Here a sandbox knows its accepted modules by digests of their bytecode (`Sandbox.byDigest`). This
makes no difference as long as no two of the bytecodes have the same digest.
-/

namespace LedgerSandbox

namespace Sandbox

/-! ## Calls and replies -/

/-- A call of a sandbox: what is to be run, and the ledger on which. -/
structure Call where
  {σ : Type}
  [operations : Ledger σ]
  ledger : σ
  bytecode : Bytes
  entry : String
  invocation : Invocation

attribute [instance] Call.operations

namespace Call

/-- What becomes of a call in a sandbox. -/
def run (c : Call) (sandbox : Sandbox) : EStateM.Result Failure (Session c.σ) Completion :=
  Session.invoke c.bytecode c.entry c.invocation ⟨sandbox, c.ledger⟩

/-- What the caller gets to see: the completion of the run or its failure, and the ledger. -/
def reply (c : Call) (sandbox : Sandbox) : Except Failure Completion × c.σ :=
  match c.run sandbox with
  | .ok completion s => (.ok completion, s.ledger)
  | .error failure s => (.error failure, s.ledger)

/-- The sandbox after a call. -/
def next (c : Call) (sandbox : Sandbox) : Sandbox := (finalState (c.run sandbox)).sandbox

end Call

variable {δ : Type}

/-- A sandbox as it is to someone who tells bytecodes apart by their digests and looks for some
bytecode: any module with the same digest is taken for the module of this bytecode. -/
def byDigest [DecidableEq δ] (digest : Bytes → δ) (bytecode : Bytes) (s : Sandbox) : Sandbox :=
  { s with accepted := s.accepted.map fun e =>
      if digest e.1 = digest bytecode then (bytecode, e.2) else e }

/-- The replies to calls made one after the other, if modules are known by their digests. -/
def replies [DecidableEq δ] (digest : Bytes → δ) (sandbox : Sandbox) :
    List Call → List ((c : Call) × (Except Failure Completion × c.σ))
  | [] => []
  | c :: rest =>
    let known := sandbox.byDigest digest c.bytecode
    ⟨c, c.reply known⟩ :: replies digest (c.next known) rest

/-- A module is found by the digest of its bytecode. -/
theorem accepted?_byDigest [DecidableEq δ] (digest : Bytes → δ) (bytecode : Bytes) (s : Sandbox) :
    (s.byDigest digest bytecode).accepted? bytecode =
      (s.accepted.find? fun e => digest e.1 = digest bytecode).map (·.2) := by
  unfold accepted? byDigest
  rw [List.find?_map, Option.map_map]
  congr 1
  · funext e
    show (if digest e.1 = digest bytecode then (bytecode, e.2) else e).2 = e.2
    split
    · rfl
    · rfl
  · refine List.find?_congr fun e _ => ?_
    show decide ((if digest e.1 = digest bytecode then (bytecode, e.2) else e).1 = bytecode) =
      decide (digest e.1 = digest bytecode)
    rw [decide_eq_decide]
    split
    case isTrue hsame => exact iff_of_true rfl hsame
    case isFalse hother => exact iff_of_false (fun h => hother (congrArg digest h)) hother

/-- Digests that tell the accepted bytecodes apart from the one looked for are as good as the
bytecodes. -/
theorem byDigest_eq_self [DecidableEq δ] {digest : Bytes → δ} {bytecode : Bytes} {s : Sandbox}
    (h : ∀ e ∈ s.accepted, digest e.1 = digest bytecode → e.1 = bytecode) :
    s.byDigest digest bytecode = s := by
  have hentries : (s.accepted.map fun e =>
      if digest e.1 = digest bytecode then (bytecode, e.2) else e) = s.accepted := by
    refine (List.map_congr_left fun e he => ?_).trans (List.map_id _)
    split
    case isTrue hsame => exact Prod.ext (h e he hsame).symm rfl
    case isFalse => rfl
  unfold byDigest
  rw [hentries]

variable {config : Config} {sandbox : Sandbox}

/-! ## Replies -/

/-- A call leaves a sound sandbox. -/
theorem Sound.next (h : Sound config sandbox) (c : Call) : Sound config (c.next sandbox) :=
  Session.sound_invoke c.bytecode c.entry c.invocation (s := ⟨sandbox, c.ledger⟩) h

/-- A sound sandbox replies to a call as a new one does. -/
theorem Sound.reply_eq (h : Sound config sandbox) (c : Call) :
    c.reply sandbox = c.reply { config } := by
  have hsame := Session.invoke_sameLedger c.bytecode c.entry c.invocation
    (s := ⟨sandbox, c.ledger⟩) (t := ⟨{ config }, c.ledger⟩) ⟨rfl, h, sound_new config⟩
  unfold Call.reply Call.run
  generalize Session.invoke c.bytecode c.entry c.invocation ⟨sandbox, c.ledger⟩ = r,
    Session.invoke c.bytecode c.entry c.invocation ⟨{ config }, c.ledger⟩ = r' at hsame
  cases hsame with
  | ok completion rel => exact congrArg (Prod.mk _) rel.ledger
  | error failure rel => exact congrArg (Prod.mk _) rel.ledger

/-! ## Accepted modules -/

/-- A call changes the accepted modules by what comes of compiling its bytecode, however it
ends. -/
theorem accepted_next (c : Call) (sandbox : Sandbox) :
    (c.next sandbox).accepted =
      match sandbox.compile c.bytecode with
      | .error _ => sandbox.accepted
      | .ok (_, compiled) => compiled.accepted := by
  unfold Call.next Call.run Session.invoke
  dsimp only
  cases sandbox.compile c.bytecode with
  | error failure => rfl
  | ok result =>
    obtain ⟨m, compiled⟩ := result
    dsimp only
    cases Run.execute compiled.config m c.entry
        (⟨c.invocation, compiled.config.limits, c.ledger, compiled.log⟩ : HostState c.σ) with
    | ok code h => rfl
    | error failure h => rfl

theorem mem_accepted_next {c : Call} {e : Bytes × Wasm.Module}
    (h : e ∈ (c.next sandbox).accepted) : e ∈ sandbox.accepted ∨ e.1 = c.bytecode := by
  rw [accepted_next] at h
  unfold compile at h
  cases hm : sandbox.accepted? c.bytecode with
  | some m =>
    rw [hm] at h
    exact .inl h
  | none =>
    rw [hm] at h
    cases hprepare : prepare sandbox.config c.bytecode with
    | error failure =>
      rw [hprepare] at h
      exact .inl h
    | ok m =>
      rw [hprepare] at h
      rcases List.mem_cons.mp h with rfl | h
      · exact .inr rfl
      · exact .inl h

/-! ## Runs of calls -/

/-- Whether digests tell all bytecodes apart that a sandbox has accepted or is yet to run. -/
structure Distinct (digest : Bytes → δ) (sandbox : Sandbox) (calls : List Call) : Prop where
  accepted : ∀ e ∈ sandbox.accepted, ∀ c ∈ calls,
    digest e.1 = digest c.bytecode → e.1 = c.bytecode
  calls : ∀ c ∈ calls, ∀ d ∈ calls, digest c.bytecode = digest d.bytecode →
    c.bytecode = d.bytecode

theorem Distinct.next {digest : Bytes → δ} {c : Call} {rest : List Call}
    (h : Distinct digest sandbox (c :: rest)) : Distinct digest (c.next sandbox) rest where
  accepted e he d hd := by
    rcases mem_accepted_next he with he | heq
    · exact h.accepted e he d (List.mem_cons_of_mem _ hd)
    · rw [heq]
      exact h.calls c List.mem_cons_self d (List.mem_cons_of_mem _ hd)
  calls d hd d' hd' := h.calls d (List.mem_cons_of_mem _ hd) d' (List.mem_cons_of_mem _ hd')

theorem Sound.replies_eq [DecidableEq δ] {digest : Bytes → δ} {calls : List Call} (h : Sound config sandbox)
    (hdistinct : Distinct digest sandbox calls) :
    sandbox.replies digest calls = calls.map fun c => ⟨c, c.reply { config }⟩ := by
  induction calls generalizing sandbox with
  | nil => rfl
  | cons c rest ih =>
    have hknown : sandbox.byDigest digest c.bytecode = sandbox :=
      byDigest_eq_self fun e he => hdistinct.accepted e he c List.mem_cons_self
    rw [replies, List.map_cons, hknown, h.reply_eq c, ih (h.next c) hdistinct.next]

/-- **Reuse is invisible.** Calls made one after the other on one sandbox, which knows modules by
the digests of their bytecode, get the replies that each of them would get on a new sandbox, if
the digests tell the bytecodes of the calls apart. -/
theorem reuse_invisible [DecidableEq δ] (digest : Bytes → δ) (config : Config) (calls : List Call)
    (hdigest : ∀ c ∈ calls, ∀ d ∈ calls, digest c.bytecode = digest d.bytecode →
      c.bytecode = d.bytecode) :
    replies digest { config } calls = calls.map fun c => ⟨c, c.reply { config }⟩ :=
  (sound_new config).replies_eq {
    accepted := fun _ he => nomatch he
    calls := hdigest }

/-- A call of a module without any code, on an empty ledger. -/
def emptyModuleCall : Call where
  ledger : MemoryLedger := ⟨∅⟩
  bytecode := [0x00, 0x61, 0x73, 0x6D, 0x01, 0x00, 0x00, 0x00]
  entry := "init"
  invocation := { moduleName := "m" }

/-- The module is called, then what is left of it without its last byte, then the module again. -/
def callsWithDamage : List Call := [
  emptyModuleCall,
  { emptyModuleCall with bytecode := emptyModuleCall.bytecode.dropLast },
  emptyModuleCall]

/-- The lengths of these bytecodes tell them apart. -/
theorem reuse_invisible_callsWithDamage :
    (∀ c ∈ callsWithDamage, ∀ d ∈ callsWithDamage, c.bytecode.length = d.bytecode.length →
      c.bytecode = d.bytecode) ∧
    replies List.length { config := {} } callsWithDamage =
      callsWithDamage.map fun c => ⟨c, c.reply { config := {} }⟩ := by
  have hdigest : ∀ c ∈ callsWithDamage, ∀ d ∈ callsWithDamage,
      c.bytecode.length = d.bytecode.length → c.bytecode = d.bytecode := by
    decide
  exact ⟨hdigest, reuse_invisible List.length {} callsWithDamage hdigest⟩

end Sandbox

end LedgerSandbox
