import LedgerSandbox.Proofs.Registry.InMemory
import LedgerSandbox.Proofs.Simulation.Transaction

/-!
# The keys that a transaction may change

Whatever a transaction comes to, the ledger holds afterwards what some changes that its
order allows make of the contents before (`Session.carryOut_reached`): changes by the guest
of its module and, for an installation, the record of the module. The ledger may refuse any
read and any write on the way.

All other keys therefore keep their values (`Session.transaction_frame`). A request that
does not get as far as to name a module leaves the session as it is.
-/

namespace LedgerSandbox

variable {σ : Type} [Ledger σ]

/-! ## Keys of a module -/

/-- Whether a key starts with the bytes of a name and an underscore. -/
def IsKeyOf (name : String) (key : Key) : Prop := encodeUtf8 name ++ [0x5F] <+: key

theorem isKeyOf_guestKey (name : String) (key : Key) : IsKeyOf name (guestKey name key) := by
  refine ⟨key, ?_⟩
  simp [guestKey]

theorem isKeyOf_iff {name : String} {key : Key} :
    IsKeyOf name key ↔ ∃ k, key = guestKey name k := by
  constructor
  · rintro ⟨k, hk⟩
    refine ⟨k, ?_⟩
    simp [guestKey, ← hk]
  · rintro ⟨k, rfl⟩
    exact isKeyOf_guestKey name k

theorem Registry.eq_recordBytes {name : String} {key : Key} (h : recordKey name = .ok key) :
    key = recordBytes name := by
  obtain ⟨-, rfl⟩ := CompositeKey.create_eq_ok_iff.mp h
  simp [recordBytes]

/-! ## What a run makes of the contents -/

namespace View

variable (V : View σ)

/-- Whether a ledger holds what some allowed changes make of the given contents. -/
def Reached (allowed : Change → Prop) (contents : Key → Option Value) (s : σ) : Prop :=
  ∃ changes, (∀ c ∈ changes, allowed c) ∧ V.contents s = applied contents changes

variable {V} {allowed : Change → Prop} {contents : Key → Option Value} {s : σ}

theorem Reached.start (allowed : Change → Prop) (s : σ) : V.Reached allowed (V.contents s) s :=
  ⟨[], by simp, rfl⟩

theorem Reached.of_contents_eq {t : σ} (h : V.Reached allowed contents s)
    (heq : V.contents t = V.contents s) : V.Reached allowed contents t := by
  obtain ⟨changes, hallowed, hcontents⟩ := h
  exact ⟨changes, hallowed, heq.trans hcontents⟩

theorem Reached.write (h : V.Reached allowed contents s) {key : Key} {change : Option Value}
    (hallowed : allowed (key, change)) :
    V.Reached allowed contents (finalState (Ledger.write key change s)) := by
  cases hwrite : Ledger.write key change s with
  | error e t => exact h.of_contents_eq (V.write_error hwrite)
  | ok _ t =>
    obtain ⟨changes, hall, hcontents⟩ := h
    refine ⟨changes ++ [(key, change)], ?_, ?_⟩
    · intro c hc
      rcases List.mem_append.mp hc with hc | hc
      · exact hall c hc
      · rw [List.mem_singleton.mp hc]
        exact hallowed
    · rw [applied_append, ← hcontents]
      exact V.write_ok hwrite

/-- A key that no allowed change is of keeps its value. -/
theorem Reached.eq_of_not_allowed (h : V.Reached allowed contents s) {key : Key}
    (hkey : ∀ c, allowed c → c.1 ≠ key) : V.contents s key = contents key := by
  obtain ⟨changes, hallowed, hcontents⟩ := h
  rw [hcontents]
  exact applied_of_not_mem fun c hc => hkey c (hallowed c hc)

/-- Reads keep what has been reached, and so do writes that are allowed. -/
theorem Reached.simulates_get (key : Key) :
    Simulates (fun l k => l = k ∧ V.Reached allowed contents l) (Ledger.get key)
      (Ledger.get key) :=
  .of_invariant fun l h => h.of_contents_eq (V.contents_get key l)

theorem Reached.simulates_write (key : Key) (change : Option Value) (h : allowed (key, change)) :
    Simulates (fun l k => l = k ∧ V.Reached allowed contents l) (Ledger.write key change)
      (Ledger.write key change) :=
  .of_invariant fun _ hreached => hreached.write h

theorem Reached.ledgerSim {name : String} {limits : HostLimits}
    (h : ∀ c, IsGuestChange name limits c → allowed c) :
    LedgerSim name limits fun l k => l = k ∧ V.Reached allowed contents l where
  get key _ := simulates_get _
  put key value hkey hvalue := by
    refine simulates_write _ (some value) (h _ ⟨key, rfl, hkey, ?_⟩)
    intro value' heq
    cases heq
    exact hvalue
  delete key hkey := by
    refine simulates_write _ none (h _ ⟨key, rfl, hkey, ?_⟩)
    intro value' heq
    cases heq

end View

/-! ## What an order allows -/

/-- The changes that an order may make. -/
inductive Order.Allows (limits : HostLimits) : Order → Change → Prop
  | initializer {name : String} (bytecode : Bytes) (args : List Bytes) {c : Change} :
    IsGuestChange name limits c → Allows limits (.install name bytecode args) c
  | record (name : String) (bytecode : Bytes) (args : List Bytes) :
    Allows limits (.install name bytecode args) (Registry.recordBytes name, some bytecode)
  | guest {name : String} (entry : String) (args : List Bytes) {c : Change} :
    IsGuestChange name limits c → Allows limits (.execute name entry args) c

namespace Session

/-- **What a transaction writes.** The ledger holds what some changes that the order allows
make of its contents before. -/
theorem carryOut_reached (V : View σ) (hscan : V.KeepsInScans) (order : Order) (s : Session σ) :
    V.Reached (order.Allows s.sandbox.config.limits) (V.contents s.ledger)
      (finalState (carryOut order s)).ledger := by
  have served : OrderServed s.sandbox.config.limits (fun l k => l = k ∧
      V.Reached (order.Allows s.sandbox.config.limits) (V.contents s.ledger) l) order := by
    cases order with
    | install name bytecode args =>
      refine .install args (View.Reached.ledgerSim fun c hc => ?_) (View.Reached.simulates_get _)
        (View.Reached.simulates_write _ (some bytecode) ?_)
      · exact .initializer bytecode args hc
      · exact .record name bytecode args
    | execute name entry args =>
      refine .execute entry args (View.Reached.ledgerSim fun c hc => ?_)
        (View.Reached.simulates_get _)
      exact .guest entry args hc
    | list =>
      refine .list fun start stop => .of_invariant fun l h => ?_
      exact h.of_contents_eq (hscan start stop l)
  exact ledger_invariant (carryOut_simulates served.sim) (.start _ _)

end Session

namespace Request

variable {r : Request} {name : String} {order : Order} {limits : HostLimits} {c : Change}

theorem key_of_install (hfunction : r.function = "install" ∨ r.function = "create")
    (hname : r.arguments.head? = some (encodeUtf8 name)) (horder : r.order = .ok order)
    (h : order.Allows limits c) : IsKeyOf name c.1 ∨ c.1 = Registry.recordBytes name := by
  cases h with
  | initializer bytecode args hguest =>
    obtain ⟨k, hk, -, -⟩ := hguest
    rw [hk, name_of_install hname horder]
    exact .inl (isKeyOf_guestKey name k)
  | record other bytecode args => exact .inr (by rw [name_of_install hname horder])
  | guest entry args _ =>
    obtain ⟨hexecute, -⟩ := order_eq_execute_iff.mp horder
    simp [hexecute] at hfunction

theorem guest_of_execute (hfunction : r.function = "execute") (horder : r.order = .ok order)
    (h : order.Allows limits c) :
    ∃ name, r.arguments.head? = some (encodeUtf8 name) ∧ IsGuestChange name limits c := by
  cases h with
  | initializer _ _ _ =>
    obtain ⟨hinstall, -⟩ := order_eq_install_iff.mp horder
    simp [hfunction] at hinstall
  | record _ _ _ =>
    obtain ⟨hinstall, -⟩ := order_eq_install_iff.mp horder
    simp [hfunction] at hinstall
  | @guest name entry args _ hguest =>
    obtain ⟨-, harguments⟩ := order_eq_execute_iff.mp horder
    exact ⟨name, by rw [harguments, List.head?_cons], hguest⟩

end Request

/-! ## Requests that come to nothing -/

/-- The names of the functions that transactions can run. -/
def Command.names : List String := ["install", "create", "execute", "list", "installedChaincodes"]

namespace Request

/-- Requests for no known function, or for no module that there could be. -/
inductive Idle (r : Request) : Prop
  | unknownFunction : r.function ∉ Command.names → Idle r
  | tooFewArguments : r.NamesModule → r.arguments.length < 2 → Idle r
  | nameNotUtf8 (name : Bytes) : r.NamesModule → r.arguments.head? = some name →
    decodeUtf8? name = none → Idle r
  | nameRejected (name : String) : r.NamesModule → r.arguments.head? = some (encodeUtf8 name) →
    ¬ ModuleName.Accepted name → Idle r

/-- An idle request that can be read names a module that is rejected. -/
theorem Idle.not_accepted {r : Request} (h : r.Idle) {name : String}
    (hfunction : r.function ∈ Command.names) (hhead : r.arguments.head? = some (encodeUtf8 name))
    (hlength : 2 ≤ r.arguments.length) : ¬ ModuleName.Accepted name := by
  cases h with
  | unknownFunction hunknown => exact absurd hfunction hunknown
  | tooFewArguments _ hfew => omega
  | nameNotUtf8 bytes _ hbytes hdecode =>
    rw [hhead] at hbytes
    rw [← Option.some.inj hbytes, decodeUtf8?_encodeUtf8] at hdecode
    cases hdecode
  | nameRejected other _ hother hrejected =>
    rw [hhead] at hother
    rw [encodeUtf8_injective (Option.some.inj hother)]
    exact hrejected

theorem Idle.order_ne_list {r : Request} (h : r.Idle) : r.order ≠ .ok .list := by
  cases h with
  | unknownFunction hunknown =>
    intro hlist
    rcases order_eq_list_iff.mp hlist with hf | hf
    · simp [hf, Command.names] at hunknown
    · simp [hf, Command.names] at hunknown
  | tooFewArguments hmodule _ => exact hmodule.order_ne_list
  | nameNotUtf8 _ hmodule _ _ => exact hmodule.order_ne_list
  | nameRejected _ hmodule _ _ => exact hmodule.order_ne_list

end Request

namespace Session

theorem carryOut_rejected_install {name : String} (h : ¬ ModuleName.Accepted name)
    (bytecode : Bytes) (args : List Bytes) (s : Session σ) :
    finalState (carryOut (.install name bytecode args) s) = s := by
  obtain ⟨failure, hfail⟩ := Registry.install_rejected h bytecode args s
  rw [carryOut_install, hfail, finalState_error]

theorem carryOut_rejected_execute {name : String} (h : ¬ ModuleName.Accepted name)
    (entry : String) (args : List Bytes) (s : Session σ) :
    finalState (carryOut (.execute name entry args) s) = s := by
  rw [carryOut_execute, Registry.lookup_rejected h, finalState_error]

/-- An idle request leaves the session as it is: the ledger is not asked for anything, no
bytecode is compiled and no message is logged. -/
theorem submit_idle {r : Request} (h : r.Idle) (s : Session σ) : (submit r s).2 = s := by
  cases horder : r.order with
  | error failure => rw [submit_unreadable horder]
  | ok order =>
    rw [submit_session horder]
    cases order with
    | install name bytecode args =>
      obtain ⟨hfunction, submission, harguments, -⟩ := Request.order_eq_install_iff.mp horder
      refine carryOut_rejected_install (h.not_accepted ?_ ?_ ?_) bytecode args s
      · rcases hfunction with hf | hf
        · simp [hf, Command.names]
        · simp [hf, Command.names]
      · rw [harguments, List.head?_cons]
      · simp [harguments]
    | execute name entry args =>
      obtain ⟨hfunction, harguments⟩ := Request.order_eq_execute_iff.mp horder
      refine carryOut_rejected_execute (h.not_accepted ?_ ?_ ?_) entry args s
      · simp [hfunction, Command.names]
      · rw [harguments, List.head?_cons]
      · simp [harguments]
    | list => exact absurd horder h.order_ne_list

/-! ## The frame -/

/-- What it means that a transaction changes keys of its own module only. -/
structure KeepsToOwnKeys (V : View σ) (r : Request) (s t : Session σ) : Prop where
  /-- An installation changes keys of its module and the record. -/
  install : ∀ name, r.function = "install" ∨ r.function = "create" →
    r.arguments.head? = some (encodeUtf8 name) →
    ∀ key, ¬ IsKeyOf name key → Registry.recordKey name ≠ .ok key →
    V.contents t.ledger key = V.contents s.ledger key
  /-- An execution changes keys of its module. -/
  execute : ∀ name, r.function = "execute" → r.arguments.head? = some (encodeUtf8 name) →
    ∀ key, ¬ IsKeyOf name key → V.contents t.ledger key = V.contents s.ledger key
  /-- An execution changes no record, not even the one of its module. -/
  records : r.function = "execute" → ∀ name key, Registry.recordKey name = .ok key →
    V.contents t.ledger key = V.contents s.ledger key
  list : r.function = "list" ∨ r.function = "installedChaincodes" →
    V.contents t.ledger = V.contents s.ledger
  idle : r.Idle → t = s

variable {V : View σ} {r : Request} {s : Session σ}

/-- A key keeps its value if the order, should there be one, allows no change of it. -/
theorem contents_submit (hscan : V.KeepsInScans) {key : Key}
    (h : ∀ order, r.order = .ok order → ∀ c, order.Allows s.sandbox.config.limits c → c.1 ≠ key) :
    V.contents (submit r s).2.ledger key = V.contents s.ledger key := by
  cases horder : r.order with
  | error failure => rw [submit_unreadable horder]
  | ok order =>
    rw [submit_session horder]
    exact (carryOut_reached V hscan order s).eq_of_not_allowed (h order horder)

/-- **The frame.** A transaction changes keys of its own module only, whatever its guest does,
wherever the ledger refuses an operation, and however it ends. -/
theorem transaction_frame (V : View σ) (hscan : V.KeepsInScans) (r : Request) (s : Session σ) :
    KeepsToOwnKeys V r s (submit r s).2 where
  install name hfunction hname key hkey hrecord := by
    by_cases haccepted : ModuleName.Accepted name
    · refine contents_submit hscan fun order horder c hallows heq => ?_
      rcases Request.key_of_install hfunction hname horder hallows with h | h
      · exact hkey (heq ▸ h)
      · refine hrecord ?_
        rw [Registry.recordKey_of_accepted haccepted, ← heq, h]
    · have hmodule : r.NamesModule := by
        rcases hfunction with h | h
        · exact .inl h
        · exact .inr (.inl h)
      rw [submit_idle (.nameRejected name hmodule hname haccepted)]
  execute name hfunction hname key hkey := by
    refine contents_submit hscan fun order horder c hallows heq => ?_
    obtain ⟨other, hother, k, hk, -, -⟩ := Request.guest_of_execute hfunction horder hallows
    rw [hname] at hother
    rw [← heq, hk, ← encodeUtf8_injective (Option.some.inj hother)] at hkey
    exact hkey (isKeyOf_guestKey name k)
  records hfunction name key hkey := by
    -- The names of modules that there can be keep guest keys and records apart.
    by_cases hidle : r.Idle
    · rw [submit_idle hidle]
    · refine contents_submit hscan fun order horder c hallows heq => ?_
      obtain ⟨other, hother, k, hk, -, -⟩ := Request.guest_of_execute hfunction horder hallows
      have haccepted : ModuleName.Accepted other := by
        by_contra hrejected
        exact hidle (.nameRejected other (.inr (.inr hfunction)) hother hrejected)
      rw [Registry.eq_recordBytes hkey, hk] at heq
      exact guestKey_ne_recordBytes haccepted k name heq
  list hfunction := by
    funext key
    refine contents_submit hscan fun order horder c hallows heq => ?_
    rw [Request.order_eq_list_iff.mpr hfunction] at horder
    cases horder
    cases hallows
  idle h := submit_idle h s

/-- A ledger with an entry of the module `b` that accepts one more write. -/
def otherModule : Session (Faulty MemoryLedger) :=
  ⟨Registry.newSandbox, ⟨⟨SortedMap.empty.insert (guestKey "b" [1]) [2]⟩, { writesLeft := some 1 }⟩⟩

/-- The initializer of `m` puts a value, and the record after it is refused. -/
def partialInstall : Request := ⟨"install", [encodeUtf8 "m", Registry.putGuest 0]⟩

theorem transaction_frame_partialInstall :
    (Faulty.view MemoryLedger.view).KeepsInScans ∧
      KeepsToOwnKeys (Faulty.view MemoryLedger.view) partialInstall otherModule
        (submit partialInstall otherModule).2 ∧
      (Faulty.view MemoryLedger.view).contents (submit partialInstall otherModule).2.ledger
        (guestKey "m" []) = some [] := by
  have hscan := Faulty.keepsInScans MemoryLedger.keepsInScans
  exact ⟨hscan, transaction_frame _ hscan partialInstall otherModule, by decide +kernel⟩

end Session

end LedgerSandbox
