import LedgerSandbox.Proofs.Registry.InMemory
import LedgerSandbox.Proofs.Sandbox.Calls
import LedgerSandbox.Proofs.Transaction.Rejection
import Mathlib.Data.Finset.Card

/-!
# What a sandbox accepts over time

A sandbox is used for runs and for transactions, in any order, each on a ledger of its own
choice. A transaction runs a module once at most: the bytecode that is to be installed, if the
name is accepted and not taken, or else the bytecode of the record that is to be executed
(`Request.attempted`). To the sandbox this is a call like any other (`Call.Decides`).

So the accepted modules are, at any time, those of the bytecodes attempted so far that pass the
checks, each of them once, whatever became of the attempts (`Sandbox.accepted_history`). What
does not pass is refused for the same reason every time.

As with calls, a sandbox knows its modules by digests of their bytecode, which tell the attempted
bytecodes apart.
-/

namespace LedgerSandbox

open Sandbox (Call)

variable {σ : Type} [Ledger σ]

/-! ## What is attempted -/

/-- What the ledger holds as the record of a module, if the name is accepted and the ledger
answers. -/
def Registry.found? (name : String) (ledger : σ) : Option (Option Value) :=
  match ModuleName.validate name, Ledger.get (recordBytes name) ledger with
  | .ok _, .ok found _ => some found
  | _, _ => none

/-- The bytecode that an order comes to run: what is to be installed, under an accepted name that
is not taken, or what is installed. -/
def Order.attempted (ledger : σ) : Order → Option Bytes
  | .install name bytecode _ => if Registry.found? name ledger = some none then some bytecode else none
  | .execute name _ _ => (Registry.found? name ledger).join
  | .list => none

/-- The bytecode that a request comes to run. -/
def Request.attempted (ledger : σ) (r : Request) : Option Bytes :=
  match r.order with
  | .ok order => order.attempted ledger
  | .error _ => none

theorem Registry.found?_eq_some_iff {name : String} {ledger : σ} {found : Option Value} :
    found? name ledger = some found ↔
      ModuleName.Accepted name ∧ ∃ l, Ledger.get (recordBytes name) ledger = .ok found l := by
  unfold found? ModuleName.Accepted
  cases ModuleName.validate name with
  | error failure => simp
  | ok _ =>
    cases (Ledger.get (recordBytes name) ledger : EStateM.Result LedgerError σ _) with
    | error e l => simp
    | ok other l => simp

/-! ## Attempts as calls -/

/-- Whether a call is all that happens to the sandbox of a session, and fails what it is a part of
if it fails itself. -/
structure Sandbox.Call.Decides {α : Type} (c : Call) (s : Session σ)
    (r : EStateM.Result Failure (Session σ) α) : Prop where
  sandbox : (finalState r).sandbox = c.next s.sandbox
  fails : ∀ failure t, c.run s.sandbox = .error failure t → failure? r = some failure

omit [Ledger σ] in
theorem Session.sandbox_onLedger {α : Type} (action : EStateM LedgerError σ α) (s : Session σ) :
    (finalState (onLedger action s)).sandbox = s.sandbox := by
  unfold onLedger
  cases action s.ledger with
  | ok a l => rfl
  | error e l => rfl

namespace Registry

variable {name : String} {s : Session σ}

/-- An installation under a free name runs the initializer on an overlay. -/
theorem exists_decides_install (hfound : found? name s.ledger = some none) (bytecode : Bytes)
    (args : List Bytes) :
    ∃ c : Call, c.bytecode = bytecode ∧ c.Decides s (install name bytecode args s) := by
  obtain ⟨hname, l, hget⟩ := found?_eq_some_iff.mp hfound
  let c : Call := {
    ledger := Layers.ofBase l
    bytecode
    entry := s.sandbox.config.initEntry
    invocation := { moduleName := name, args } }
  refine ⟨c, rfl, ?_⟩
  have hinvoke : Session.invoke bytecode s.sandbox.config.initEntry { moduleName := name, args }
      ⟨s.sandbox, .ofBase l⟩ = c.run s.sandbox := rfl
  rw [install_accepted hname, hget]
  dsimp only
  rw [onOverlay_runInitializer]
  dsimp only
  rw [hinvoke]
  cases hrun : c.run s.sandbox with
  | error failure t =>
    refine ⟨by rw [Call.next, hrun]; rfl, fun other u heq => ?_⟩
    cases hrun.symm.trans heq
    rfl
  | ok completion t =>
    refine ⟨?_, fun other u heq => nomatch hrun.symm.trans heq⟩
    rw [Call.next, hrun]
    dsimp only
    -- What follows the run concerns the ledger alone.
    by_cases hcode : completion.code ≠ 0
    · rw [if_pos hcode]
      rfl
    · rw [if_neg hcode]
      cases Layers.commit t.ledger with
      | error e k => rfl
      | ok _ k => exact Session.sandbox_onLedger _ _

/-- Any other installation does not get as far. -/
theorem sandbox_install (hfound : found? name s.ledger ≠ some none) (bytecode : Bytes)
    (args : List Bytes) : (finalState (install name bytecode args s)).sandbox = s.sandbox := by
  by_cases hname : ModuleName.Accepted name
  · rw [install_accepted hname]
    cases hget : (Ledger.get (recordBytes name) s.ledger : EStateM.Result LedgerError σ _) with
    | error e l => rfl
    | ok found l =>
      cases found with
      | some old => rfl
      | none => exact absurd (found?_eq_some_iff.mpr ⟨hname, l, hget⟩) hfound
  · obtain ⟨failure, hfail⟩ := install_rejected hname bytecode args s
    rw [hfail, finalState_error]

theorem lookup_accepted (hname : ModuleName.Accepted name) (s : Session σ) :
    lookup name s =
      match Ledger.get (recordBytes name) s.ledger with
      | .error e l => .error (.ledger e) ⟨s.sandbox, l⟩
      | .ok none l => .error (.notFound name) ⟨s.sandbox, l⟩
      | .ok (some bytecode) l => .ok bytecode ⟨s.sandbox, l⟩ := by
  have hvalid : ModuleName.validate name = .ok () := hname
  have hkey : recordKey name = .ok (recordBytes name) := recordKey_of_accepted hname
  unfold lookup
  simp only [hvalid, findKey, hkey, pure_bind]
  rw [bind_apply, Session.onLedger]
  cases (Ledger.get (recordBytes name) s.ledger : EStateM.Result LedgerError σ _) with
  | error e l => rfl
  | ok found l =>
    cases found with
    | none => rfl
    | some bytecode => rfl

/-- What a look-up finds is what the ledger holds. -/
theorem found?_of_lookup {bytecode : Bytes} {t : Session σ}
    (hlookup : lookup name s = .ok bytecode t) : found? name s.ledger = some (some bytecode) := by
  by_cases hname : ModuleName.Accepted name
  · rw [lookup_accepted hname] at hlookup
    refine found?_eq_some_iff.mpr ⟨hname, ?_⟩
    cases hget : (Ledger.get (recordBytes name) s.ledger : EStateM.Result LedgerError σ _) with
    | error e l =>
      rw [hget] at hlookup
      cases hlookup
    | ok found l =>
      rw [hget] at hlookup
      cases found with
      | none => cases hlookup
      | some _ =>
        cases hlookup
        exact ⟨l, rfl⟩
  · rw [lookup_rejected hname] at hlookup
    cases hlookup

end Registry

namespace Session

variable {s : Session σ} {order : Order} {bytecode : Bytes}

theorem exists_decides_carryOut (h : order.attempted s.ledger = some bytecode) :
    ∃ c : Call, c.bytecode = bytecode ∧ c.Decides s (carryOut order s) := by
  cases order with
  | install name bytecode' args =>
    obtain ⟨hfound, heq⟩ := Option.ite_none_right_eq_some.mp h
    cases heq
    obtain ⟨c, hbytecode, hdecides⟩ := Registry.exists_decides_install hfound bytecode args
    refine ⟨c, hbytecode, ?_⟩
    rw [carryOut_install]
    generalize Registry.install name bytecode args s = r at hdecides
    cases r with
    | ok _ t => exact ⟨hdecides.sandbox, hdecides.fails⟩
    | error failure t => exact ⟨hdecides.sandbox, hdecides.fails⟩
  | execute name entry args =>
    obtain ⟨hname, l, hget⟩ := Registry.found?_eq_some_iff.mp (Option.join_eq_some_iff.mp h)
    let c : Call := { ledger := l, bytecode, entry, invocation := { moduleName := name, args } }
    refine ⟨c, rfl, ?_⟩
    have hinvoke : invoke bytecode entry { moduleName := name, args } ⟨s.sandbox, l⟩ =
        c.run s.sandbox := rfl
    rw [carryOut_execute, Registry.lookup_accepted hname, hget]
    dsimp only
    rw [hinvoke]
    cases hrun : c.run s.sandbox with
    | error failure t =>
      refine ⟨by rw [Call.next, hrun]; rfl, fun other u heq => ?_⟩
      cases hrun.symm.trans heq
      rfl
    | ok completion t =>
      exact ⟨by rw [Call.next, hrun]; rfl, fun other u heq => nomatch hrun.symm.trans heq⟩
  | list => cases h

theorem sandbox_carryOut (h : order.attempted s.ledger = none) :
    (finalState (carryOut order s)).sandbox = s.sandbox := by
  cases order with
  | install name bytecode args =>
    have hfound : Registry.found? name s.ledger ≠ some none := fun hfound => by
      cases (if_pos hfound).symm.trans h
    have hinstall := Registry.sandbox_install hfound bytecode args
    rw [carryOut_install]
    generalize Registry.install name bytecode args s = r at hinstall
    cases r with
    | ok _ t => exact hinstall
    | error failure t => exact hinstall
  | execute name entry args =>
    obtain ⟨hsandbox, -⟩ := Registry.lookup_readOnly name s
    rw [carryOut_execute]
    cases hlookup : Registry.lookup name s with
    | error failure t => rwa [hlookup] at hsandbox
    | ok bytecode t =>
      have hfound := Registry.found?_of_lookup hlookup
      cases h.symm.trans (Option.join_eq_some_iff.mpr hfound)
  | list =>
    have hrange : ∀ start stop, Simulates (fun t u => t = u ∧ t.sandbox = s.sandbox)
        (onLedger (Ledger.range start stop) : EStateM Failure (Session σ) _)
        (onLedger (Ledger.range start stop)) := fun start stop =>
      .of_invariant fun t ht => (sandbox_onLedger _ t).trans ht
    exact (carryOut_simulates (.list hrange)).invariant rfl

end Session

namespace Sandbox

/-! ## Tasks -/

/-- What a sandbox is used for: a call, or a transaction on some ledger. -/
inductive Task where
  | call (c : Call)
  | transaction {σ : Type} [Ledger σ] (ledger : σ) (r : Request)

namespace Task

/-- The bytecode that a task comes to run. -/
def attempted : Task → Option Bytes
  | call c => some c.bytecode
  | transaction ledger r => r.attempted ledger

/-- The sandbox after a task. -/
def next : Task → Sandbox → Sandbox
  | call c, sandbox => c.next sandbox
  | transaction ledger r, sandbox => (Session.submit r ⟨sandbox, ledger⟩).2.sandbox

/-- Whether a task is answered with a failure. -/
def Fails (failure : Failure) (sandbox : Sandbox) : Task → Prop
  | call c => (c.reply sandbox).1 = .error failure
  | transaction ledger r => (Session.submit r ⟨sandbox, ledger⟩).1 = .ofFailure failure

variable {task : Task} {sandbox : Sandbox}

/-- To the sandbox, a task that runs something is a call. -/
theorem exists_call {bytecode : Bytes} (h : task.attempted = some bytecode) (sandbox : Sandbox) :
    ∃ c : Call, c.bytecode = bytecode ∧ task.next sandbox = c.next sandbox ∧
      ∀ failure t, c.run sandbox = .error failure t → task.Fails failure sandbox := by
  cases task with
  | call c =>
    refine ⟨c, Option.some.inj h, rfl, fun failure t hrun => ?_⟩
    rw [Fails, Call.reply, hrun]
  | transaction ledger r =>
    rw [attempted, Request.attempted] at h
    cases horder : r.order with
    | error failure => simp [horder] at h
    | ok order =>
      rw [horder] at h
      obtain ⟨c, hbytecode, hdecides⟩ :=
        Session.exists_decides_carryOut (s := ⟨sandbox, ledger⟩) h
      refine ⟨c, hbytecode, ?_, fun failure t hrun => ?_⟩
      · rw [next, Session.submit_session horder, hdecides.sandbox]
      · have hfail := eq_error_of_failure? (hdecides.fails failure t hrun)
        rw [Fails, Session.submit_eq, horder]
        dsimp only
        rw [hfail]

/-- A task that runs nothing leaves the sandbox alone. -/
theorem next_of_attempted_eq_none (h : task.attempted = none) (sandbox : Sandbox) :
    task.next sandbox = sandbox := by
  cases task with
  | call c => cases h
  | transaction ledger r =>
    rw [next]
    rw [attempted, Request.attempted] at h
    cases horder : r.order with
    | error failure => rw [Session.submit_unreadable horder]
    | ok order =>
      rw [horder] at h
      rw [Session.submit_session horder, Session.sandbox_carryOut h]

end Task

/-! ## The accepted bytecodes -/

/-- The bytecodes whose modules a sandbox has accepted, the last one first. -/
def keys (s : Sandbox) : List Bytes := s.accepted.map Prod.fst

/-- Whether bytecode passes the checks. -/
def passes (config : Config) (bytecode : Bytes) : Bool := (prepare config bytecode).isOk

variable {config : Config} {sandbox : Sandbox}

theorem accepted?_eq_none_iff {bytecode : Bytes} :
    sandbox.accepted? bytecode = none ↔ bytecode ∉ sandbox.keys := by
  simp only [accepted?, keys, Option.map_eq_none_iff, List.find?_eq_none, decide_eq_true_eq,
    List.mem_map, not_exists, not_and]

/-- A call adds its bytecode if it passes the checks and has not been accepted before. -/
theorem Sound.keys_next (h : Sound config sandbox) (c : Call) :
    (c.next sandbox).keys =
      if passes config c.bytecode then sandbox.keys.insert c.bytecode else sandbox.keys := by
  unfold keys
  rw [accepted_next, passes]
  cases hprepare : prepare config c.bytecode with
  | error failure =>
    rw [h.compile_error hprepare]
    rfl
  | ok m =>
    unfold compile
    rw [h.config_eq, hprepare]
    cases hfound : sandbox.accepted? c.bytecode with
    | some m' =>
      have hmem : c.bytecode ∈ sandbox.accepted.map Prod.fst := by
        by_contra hnot
        cases hfound.symm.trans (accepted?_eq_none_iff.mpr hnot)
      exact (List.insert_of_mem hmem).symm
    | none => exact (List.insert_of_not_mem (accepted?_eq_none_iff.mp hfound)).symm

theorem Sound.task_next (h : Sound config sandbox) (task : Task) : Sound config (task.next sandbox) := by
  cases task with
  | call c => exact h.next c
  | transaction ledger r => exact Session.sound_submit r (s := ⟨sandbox, ledger⟩) h

/-- What does not pass the checks fails whatever attempts it, for the reason why it does not
pass. -/
theorem Sound.fails (h : Sound config sandbox) {task : Task} {bytecode : Bytes} {failure : Failure}
    (hattempted : task.attempted = some bytecode) (hprepare : prepare config bytecode = .error failure) :
    task.Fails failure sandbox := by
  obtain ⟨c, rfl, -, hfails⟩ := task.exists_call hattempted sandbox
  refine hfails failure ⟨sandbox, c.ledger⟩ ?_
  unfold Call.run Session.invoke
  dsimp only
  rw [h.compile_error hprepare]

/-! ## Histories of tasks -/

section History

variable {δ : Type} [DecidableEq δ] (digest : Bytes → δ)

/-- A sandbox as it is to a task, if modules are known by the digests of their bytecode. -/
def Task.known (task : Task) (s : Sandbox) : Sandbox :=
  match task.attempted with
  | none => s
  | some bytecode => s.byDigest digest bytecode

/-- The sandbox after some tasks, the first one first. -/
def after (tasks : List Task) (s : Sandbox) : Sandbox :=
  tasks.foldl (fun s task => task.next (task.known digest s)) s

theorem after_concat (tasks : List Task) (task : Task) (s : Sandbox) :
    after digest (tasks ++ [task]) s = task.next (task.known digest (after digest tasks s)) :=
  List.foldl_append

end History

/-- The bytecodes that some tasks come to run, one after the other. -/
def attempts (tasks : List Task) : List Bytes := tasks.filterMap Task.attempted

/-- The attempts that pass the checks. -/
def passing (config : Config) (tasks : List Task) : List Bytes :=
  (attempts tasks).filter (passes config)

variable {tasks : List Task} {task : Task} {bytecode : Bytes}

theorem attempts_concat_none (h : task.attempted = none) :
    attempts (tasks ++ [task]) = attempts tasks := by
  simp [attempts, h]

theorem attempts_concat_some (h : task.attempted = some bytecode) :
    attempts (tasks ++ [task]) = attempts tasks ++ [bytecode] := by
  simp [attempts, h]

/-- What is known of a sandbox after some tasks: it has accepted what passes the checks of all
that was attempted, each bytecode once. -/
structure Recalls (config : Config) (tasks : List Task) (s : Sandbox) : Prop where
  sound : Sound config s
  keys : s.keys = (passing config tasks).reverse.dedup

namespace Recalls

theorem mem_keys_iff (h : Recalls config tasks sandbox) :
    bytecode ∈ sandbox.keys ↔ bytecode ∈ attempts tasks ∧ passes config bytecode := by
  rw [h.keys, List.mem_dedup, List.mem_reverse, passing, List.mem_filter]

theorem next (h : Recalls config tasks sandbox) (task : Task) :
    Recalls config (tasks ++ [task]) (task.next sandbox) where
  sound := h.sound.task_next task
  keys := by
    cases hattempted : task.attempted with
    | none =>
      rw [Task.next_of_attempted_eq_none hattempted, passing, attempts_concat_none hattempted]
      exact h.keys
    | some bytecode =>
      obtain ⟨c, rfl, hnext, -⟩ := task.exists_call hattempted sandbox
      rw [hnext, h.sound.keys_next, passing, attempts_concat_some hattempted, List.filter_append,
        h.keys, passing]
      by_cases hpasses : passes config c.bytecode
      · rw [if_pos hpasses, List.filter_cons_of_pos hpasses, List.filter_nil, List.reverse_append,
          List.reverse_singleton, List.singleton_append]
        by_cases hmem : c.bytecode ∈ ((attempts tasks).filter (passes config)).reverse.dedup
        · rw [List.insert_of_mem hmem, List.dedup_cons_of_mem' hmem]
        · rw [List.insert_of_not_mem hmem, List.dedup_cons_of_notMem' hmem]
      · rw [if_neg hpasses, List.filter_cons_of_neg hpasses, List.filter_nil, List.append_nil]

/-- A module has been accepted just if its bytecode has been attempted and makes it a module. -/
theorem mem_accepted_iff (h : Recalls config tasks sandbox) {m : Wasm.Module} :
    (bytecode, m) ∈ sandbox.accepted ↔ bytecode ∈ attempts tasks ∧ prepare config bytecode = .ok m := by
  constructor
  · intro he
    have hkey : bytecode ∈ sandbox.keys := List.mem_map_of_mem he
    exact ⟨(h.mem_keys_iff.mp hkey).1, h.sound.accepted (bytecode, m) he⟩
  · rintro ⟨hattempted, hprepare⟩
    have hpasses : passes config bytecode := by
      rw [passes, hprepare]
      rfl
    obtain ⟨⟨_, m'⟩, he, rfl⟩ := List.mem_map.mp (h.mem_keys_iff.mpr ⟨hattempted, hpasses⟩)
    cases hprepare.symm.trans (h.sound.accepted _ he)
    exact he

theorem length_accepted (h : Recalls config tasks sandbox) :
    sandbox.accepted.length = (passing config tasks).toFinset.card := by
  calc sandbox.accepted.length
    _ = sandbox.keys.length := (List.length_map _).symm
    _ = (passing config tasks).reverse.dedup.length := by rw [h.keys]
    _ = (passing config tasks).reverse.toFinset.card := (List.card_toFinset _).symm
    _ = (passing config tasks).toFinset.card := by rw [List.toFinset_reverse]

end Recalls

variable {δ : Type} {digest : Bytes → δ}

/-- Whether digests tell the bytecodes apart that some tasks come to run. -/
def TellsApart (digest : Bytes → δ) (tasks : List Task) : Prop :=
  ∀ b ∈ attempts tasks, ∀ b' ∈ attempts tasks, digest b = digest b' → b = b'

theorem TellsApart.of_prefix (h : TellsApart digest tasks) {earlier : List Task}
    (hearlier : earlier <+: tasks) : TellsApart digest earlier := by
  have hsubset : attempts earlier ⊆ attempts tasks := (hearlier.filterMap _).subset
  exact fun b hb b' hb' => h b (hsubset hb) b' (hsubset hb')

variable [DecidableEq δ]

/-- If bytecodes are told apart, then their digests do not matter. -/
theorem Recalls.known_eq (h : Recalls config tasks sandbox)
    (happart : TellsApart digest (tasks ++ [task])) : task.known digest sandbox = sandbox := by
  unfold Task.known
  cases hattempted : task.attempted with
  | none => rfl
  | some bytecode =>
    refine byDigest_eq_self fun e he hsame => ?_
    rw [TellsApart, attempts_concat_some hattempted] at happart
    have hkey : e.1 ∈ sandbox.keys := List.mem_map_of_mem he
    exact happart e.1 (List.mem_append_left _ (h.mem_keys_iff.mp hkey).1) bytecode
      (List.mem_append_right _ List.mem_cons_self) hsame

/-- After any tasks, a new sandbox recalls them. -/
theorem recalls_after (config : Config) (happart : TellsApart digest tasks) :
    Recalls config tasks (after digest tasks { config }) := by
  induction tasks using List.reverseRecOn with
  | nil => exact ⟨sound_new config, rfl⟩
  | append_singleton tasks task ih =>
    have hbefore := ih (happart.of_prefix (List.prefix_append _ _))
    rw [after_concat, hbefore.known_eq happart]
    exact hbefore.next task

/-- What a sandbox has accepted at any time while some tasks are done, one after the other. -/
structure AcceptsWhatPasses (digest : Bytes → δ) (config : Config) (tasks : List Task) : Prop where
  /-- There are as many modules as there are bytecodes attempted so far that pass the checks. -/
  count : ∀ earlier, earlier <+: tasks →
    (after digest earlier { config }).accepted.length = (passing config earlier).toFinset.card
  modules : ∀ earlier, earlier <+: tasks → ∀ bytecode m,
    (bytecode, m) ∈ (after digest earlier { config }).accepted ↔
      bytecode ∈ attempts earlier ∧ prepare config bytecode = .ok m
  grows : ∀ earlier longer, earlier <+: longer → longer <+: tasks →
    (after digest earlier { config }).accepted.length ≤
      (after digest longer { config }).accepted.length
  /-- What does not pass has no module at any time, and fails in the same way every time. -/
  refused : ∀ bytecode failure, prepare config bytecode = .error failure →
    ∀ earlier, earlier <+: tasks →
      (∀ m, (bytecode, m) ∉ (after digest earlier { config }).accepted) ∧
      ∀ task, earlier ++ [task] <+: tasks → task.attempted = some bytecode →
        task.Fails failure (task.known digest (after digest earlier { config }))

/-- **The history of a sandbox tells what it has accepted**: just what has been attempted and
passes the checks, whatever became of the attempts. -/
theorem accepted_history (digest : Bytes → δ) (config : Config) (tasks : List Task)
    (happart : TellsApart digest tasks) : AcceptsWhatPasses digest config tasks where
  count earlier hearlier := (recalls_after config (happart.of_prefix hearlier)).length_accepted
  modules earlier hearlier bytecode m :=
    (recalls_after config (happart.of_prefix hearlier)).mem_accepted_iff
  grows earlier longer hearlier hlonger := by
    have happart' := happart.of_prefix hlonger
    rw [(recalls_after config happart').length_accepted,
      (recalls_after config (happart'.of_prefix hearlier)).length_accepted]
    refine Finset.card_le_card fun b hb => ?_
    rw [List.mem_toFinset] at hb ⊢
    exact ((hearlier.filterMap _).filter _).subset hb
  refused bytecode failure hprepare earlier hearlier := by
    have hrecalls := recalls_after config (happart.of_prefix hearlier)
    refine ⟨fun m hmem => ?_, fun task htask hattempted => ?_⟩
    · cases hprepare.symm.trans (hrecalls.mem_accepted_iff.mp hmem).2
    · rw [hrecalls.known_eq (happart.of_prefix htask)]
      exact hrecalls.sound.fails hattempted hprepare

/-- The module without any code is called, then what is left of it without its last byte. Both are
to be installed after that, on an empty ledger. -/
def moduleAndDamage : List Task :=
  let install (bytecode : Bytes) : Task :=
    .transaction (⟨∅⟩ : MemoryLedger) ⟨"install", [encodeUtf8 "m", bytecode]⟩
  let damaged := emptyModuleCall.bytecode.dropLast
  [.call emptyModuleCall, .call { emptyModuleCall with bytecode := damaged },
    install damaged, install emptyModuleCall.bytecode]

/-- One of the two passes, though it has no initializer to be installed with. -/
theorem accepted_history_moduleAndDamage :
    TellsApart List.length moduleAndDamage ∧
      AcceptsWhatPasses List.length {} moduleAndDamage ∧ (passing {} moduleAndDamage).length = 2 ∧
      (after List.length moduleAndDamage { config := {} }).accepted.length = 1 := by
  have happart : TellsApart List.length moduleAndDamage := by
    unfold TellsApart
    decide +kernel
  have haccepts := accepted_history List.length {} moduleAndDamage happart
  have hcount := haccepts.count moduleAndDamage List.prefix_rfl
  have hcard : (passing {} moduleAndDamage).toFinset.card = 1 := by
    decide +kernel
  exact ⟨happart, haccepts, by decide +kernel, hcount.trans hcard⟩

end Sandbox

end LedgerSandbox
