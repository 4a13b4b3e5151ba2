import LedgerSandbox.Proofs.Sandbox.Reuse
import LedgerSandbox.Proofs.Transaction.Footprint

/-!
# Noninterference

What a transaction on a module answers, and what becomes of the keys of the module, depends
on these keys only: not on what else the ledger holds, and not on what the sandbox has run
before (`Session.noninterference`).

The ledgers are exchanged first, with one sandbox, and then the sandboxes, on one ledger.
-/

namespace LedgerSandbox

/-- Whether a key is of the record of a module or of its state. -/
def IsOwnKey (name : String) (key : Key) : Prop :=
  Registry.recordKey name = .ok key ∨ IsKeyOf name key

/-- Two ledgers that hold the same under the keys of a module. -/
def AgreeOn (name : String) (l k : MemoryLedger) : Prop :=
  ∀ key, IsOwnKey name key → l.contents.get? key = k.contents.get? key

namespace AgreeOn

variable {name : String}

theorem simulates_get {key : Key} (hown : IsOwnKey name key) (hne : key ≠ []) :
    Simulates (AgreeOn name) (Ledger.get key) (Ledger.get key) := by
  intro l k agree
  rw [MemoryLedger.get_of_ne_nil hne, MemoryLedger.get_of_ne_nil hne, agree key hown]
  exact .ok _ agree

theorem simulates_write {key : Key} (hne : key ≠ []) (change : Option Value) :
    Simulates (AgreeOn name) (Ledger.write key change) (Ledger.write key change) := by
  intro l k agree
  rw [MemoryLedger.write_apply, MemoryLedger.write_apply, if_neg hne, if_neg hne]
  refine .ok () fun other hown => ?_
  show (Overlay.applyChange l.contents key change).get? other =
    (Overlay.applyChange k.contents key change).get? other
  rw [Overlay.get?_applyChange, Overlay.get?_applyChange, Function.update_apply,
    Function.update_apply, agree other hown]

theorem ledgerSim (name : String) (limits : HostLimits) :
    LedgerSim name limits (AgreeOn name) where
  get key _ := simulates_get (.inr (isKeyOf_guestKey name key)) (guestKey_ne_nil name key)
  put key value _ _ := simulates_write (guestKey_ne_nil name key) (some value)
  delete key _ := simulates_write (guestKey_ne_nil name key) none

/-- The state of another module goes unnoticed. -/
theorem applyChange_other {other : String} (hname : ModuleName.Accepted name)
    (hother : ModuleName.Accepted other) (hne : name ≠ other) (l : MemoryLedger) (key : Key)
    (change : Option Value) :
    AgreeOn name l ⟨Overlay.applyChange l.contents (guestKey other key) change⟩ := by
  intro own hown
  have hkey : own ≠ guestKey other key := by
    rcases hown with hrecord | hguest
    · rw [Registry.eq_recordBytes hrecord]
      exact (guestKey_ne_recordBytes hother key name).symm
    · obtain ⟨k, rfl⟩ := isKeyOf_iff.mp hguest
      intro heq
      exact hne ((guestKey_inj hname hother).mp heq).1
  show _ = (Overlay.applyChange l.contents (guestKey other key) change).get? own
  rw [Overlay.get?_applyChange, Function.update_of_ne hkey]

/-- What is asked for a module is asked for under keys of the module. -/
theorem orderServed (hname : ModuleName.Accepted name) (limits : HostLimits) {r : Request}
    (hmodule : r.NamesModule) (hhead : r.arguments.head? = some (encodeUtf8 name)) {order : Order}
    (horder : r.order = .ok order) : OrderServed limits (AgreeOn name) order := by
  have hget : Simulates (AgreeOn name) (Ledger.get (Registry.recordBytes name))
      (Ledger.get (Registry.recordBytes name)) :=
    simulates_get (.inl (Registry.recordKey_of_accepted hname)) (Registry.recordBytes_ne_nil name)
  cases order with
  | install other bytecode args =>
    obtain rfl := Request.name_of_install hhead horder
    exact .install args (ledgerSim other limits) hget
      (simulates_write (Registry.recordBytes_ne_nil other) (some bytecode))
  | execute other entry args =>
    obtain rfl := Request.name_of_execute hhead horder
    exact .execute entry args (ledgerSim other limits) hget
  | list => exact absurd horder hmodule.order_ne_list

end AgreeOn

namespace Session

/-- **Noninterference.** A transaction on a module gets the same response on any two ledgers
that agree on the keys of the module, and they agree on them afterwards. This holds for any
two sandboxes under one configuration, whatever they have been used for. -/
theorem noninterference {config : Config} {name : String} (hname : ModuleName.Accepted name)
    {sandbox sandbox' : Sandbox} (hused : Sandbox.Used config sandbox)
    (hused' : Sandbox.Used config sandbox') {l k : MemoryLedger} (hagree : AgreeOn name l k)
    {r : Request} (hmodule : r.NamesModule)
    (hhead : r.arguments.head? = some (encodeUtf8 name)) :
    (submit r ⟨sandbox, l⟩).1 = (submit r ⟨sandbox', k⟩).1 ∧
      AgreeOn name (submit r ⟨sandbox, l⟩).2.ledger (submit r ⟨sandbox', k⟩).2.ledger := by
  have hledgers : SessionRel config (AgreeOn name) ⟨sandbox, l⟩ ⟨sandbox, k⟩ :=
    ⟨rfl, hused.sound.config_eq, hagree⟩
  have hsandboxes : SameLedger config (⟨sandbox, k⟩ : Session MemoryLedger) ⟨sandbox', k⟩ :=
    ⟨rfl, hused.sound, hused'.sound⟩
  obtain ⟨hresponse, hrel⟩ := submit_alike
    (fun order horder => (AgreeOn.orderServed hname config.limits hmodule hhead horder).sim) hledgers
  obtain ⟨hresponse', hsame⟩ := submit_sameLedger r hsandboxes
  refine ⟨hresponse.trans hresponse', ?_⟩
  rw [← hsame.ledger]
  exact hrel.ledger

/-- A sandbox that has installed the module `b`. -/
def usedSandbox : Sandbox :=
  (submit ⟨"create", [encodeUtf8 "b", Registry.putGuest 0]⟩ Registry.fresh).2.sandbox

/-- A ledger that holds state of the module `b`. -/
def stateOfOther : MemoryLedger :=
  ⟨Overlay.applyChange Registry.fresh.ledger.contents (guestKey "b" [1]) (some [2])⟩

theorem noninterference_partialInstall :
    AgreeOn "m" Registry.fresh.ledger stateOfOther ∧
      Sandbox.Used {} Registry.newSandbox ∧ Sandbox.Used {} usedSandbox ∧
      (submit partialInstall ⟨Registry.newSandbox, Registry.fresh.ledger⟩).1 =
        (submit partialInstall ⟨usedSandbox, stateOfOther⟩).1 ∧
      AgreeOn "m" (submit partialInstall ⟨Registry.newSandbox, Registry.fresh.ledger⟩).2.ledger
        (submit partialInstall ⟨usedSandbox, stateOfOther⟩).2.ledger := by
  have hm : ModuleName.Accepted "m" := by decide
  have hagree : AgreeOn "m" Registry.fresh.ledger stateOfOther :=
    .applyChange_other hm (by decide) (by decide) _ _ _
  have hnew : Sandbox.Used {} Registry.newSandbox := .new
  have hused : Sandbox.Used {} usedSandbox := .submit (s := Registry.fresh) _ hnew
  exact ⟨hagree, hnew, hused, noninterference hm hnew hused hagree (.inl rfl) rfl⟩

end Session

end LedgerSandbox
