import LedgerSandbox.Proofs.Simulation.Session
import LedgerSandbox.Proofs.Transaction.Order

/-!
# Transactions over related sessions

A transaction is carried out alike in two sessions if its steps are: the installation or the
run that it is about, and what it asks of the ledger itself (`OrderSim`). Then it also gets
the same response (`Session.submit_alike`).

The steps are alike on related ledgers that serve alike what an order may ask of them, which
is the guest keys of its module and the key of the module's record, or else scans
(`OrderServed`).
-/

namespace LedgerSandbox

variable {σ τ : Type} [Ledger σ] [Ledger τ]

/-! ## Steps of a transaction -/

section

variable {Q : Session σ → Session τ → Prop}

namespace Registry

theorem lookup_simulates (name : String)
    (hget : Simulates Q (Session.onLedger (Ledger.get (recordBytes name)))
      (Session.onLedger (Ledger.get (recordBytes name)))) :
    Simulates Q (lookup name) (lookup name) := by
  unfold lookup
  cases hname : ModuleName.validate name with
  | error failure => exact .throw _
  | ok _ =>
    have hkey : recordKey name = .ok (recordBytes name) := recordKey_of_accepted hname
    simp only [findKey, hkey, pure_bind]
    refine hget.bind fun found => ?_
    cases found with
    | none => exact .throw _
    | some bytecode => exact .pure _

theorem list_simulates
    (hrange : ∀ start stop, Simulates Q (Session.onLedger (Ledger.range start stop))
      (Session.onLedger (Ledger.range start stop))) :
    Simulates Q list list := by
  have hkey : CompositeKey.create recordIndex [] = .ok (0 :: CompositeKey.component recordIndex) := by
    decide
  unfold list CompositeKey.scan
  rw [hkey]
  exact (hrange _ _).bind fun items => .pure _

end Registry

/-- Whether the steps of an order are alike along a relation of sessions. -/
inductive OrderSim (Q : Session σ → Session τ → Prop) : Order → Prop
  | install {name : String} {bytecode : Bytes} {args : List Bytes} :
    Simulates Q (Registry.install name bytecode args) (Registry.install name bytecode args) →
    OrderSim Q (.install name bytecode args)
  | execute {name entry : String} {args : List Bytes} :
    Simulates Q (Session.onLedger (Ledger.get (Registry.recordBytes name)))
      (Session.onLedger (Ledger.get (Registry.recordBytes name))) →
    (∀ bytecode, Simulates Q (Session.invoke bytecode entry { moduleName := name, args })
      (Session.invoke bytecode entry { moduleName := name, args })) →
    OrderSim Q (.execute name entry args)
  | list :
    (∀ start stop, Simulates Q (Session.onLedger (Ledger.range start stop))
      (Session.onLedger (Ledger.range start stop))) →
    OrderSim Q .list

namespace Session

theorem carryOut_simulates {order : Order} (sim : OrderSim Q order) :
    Simulates Q (carryOut order) (carryOut order) := by
  cases sim with
  | install hinstall => exact hinstall.bind fun _ => .pure _
  | execute hget hinvoke =>
    refine (Registry.lookup_simulates _ hget).bind fun bytecode => ?_
    exact (hinvoke bytecode).bind fun _ => .pure _
  | list hrange =>
    refine (Registry.list_simulates hrange).bind fun names => ?_
    cases names.mapM id with
    | error failure => exact .throw failure
    | ok names => exact .pure _

/-- A request is answered alike if the order in it has like steps. -/
theorem submit_alike {r : Request} (sim : ∀ order, r.order = .ok order → OrderSim Q order)
    {s : Session σ} {t : Session τ} (rel : Q s t) :
    (submit r s).1 = (submit r t).1 ∧ Q (submit r s).2 (submit r t).2 := by
  rw [submit_eq, submit_eq]
  cases hread : r.order with
  | error failure => exact ⟨rfl, rel⟩
  | ok order =>
    have hres := carryOut_simulates (sim order hread) rel
    dsimp only
    generalize carryOut order s = x, carryOut order t = y at hres
    cases hres with
    | ok response rel' => exact ⟨rfl, rel'⟩
    | error failure rel' => exact ⟨rfl, rel'⟩

end Session

end

/-! ## Related ledgers -/

/-- Whether everything that an order may ask of its ledger is served alike along a relation
of ledgers. -/
inductive OrderServed (limits : HostLimits) (R : σ → τ → Prop) : Order → Prop
  | install {name : String} {bytecode : Bytes} (args : List Bytes) :
    LedgerSim name limits R →
    Simulates R (Ledger.get (Registry.recordBytes name)) (Ledger.get (Registry.recordBytes name)) →
    Simulates R (Ledger.put (Registry.recordBytes name) bytecode)
      (Ledger.put (Registry.recordBytes name) bytecode) →
    OrderServed limits R (.install name bytecode args)
  | execute {name : String} (entry : String) (args : List Bytes) :
    LedgerSim name limits R →
    Simulates R (Ledger.get (Registry.recordBytes name)) (Ledger.get (Registry.recordBytes name)) →
    OrderServed limits R (.execute name entry args)
  | list : (∀ start stop, Simulates R (Ledger.range start stop) (Ledger.range start stop)) →
    OrderServed limits R .list

/-- **Transactions cannot tell related ledgers apart**: what `OrderServed` lists is all they
ask for. -/
theorem OrderServed.sim {config : Config} {R : σ → τ → Prop} {order : Order}
    (h : OrderServed config.limits R order) : OrderSim (SessionRel config R) order := by
  cases h with
  | install args hguest hget hput =>
    exact .install (Registry.install_simulates _ _ args hguest hget hput)
  | @execute name entry args hguest hget =>
    refine .execute (Session.onLedger_simulates hget) fun bytecode => ?_
    exact Session.invoke_simulates bytecode entry { moduleName := name, args } hguest
  | list hrange => exact .list fun start stop => Session.onLedger_simulates (hrange start stop)

theorem orderServed_eq (limits : HostLimits) (order : Order) :
    OrderServed limits (Eq : σ → σ → Prop) order := by
  cases order with
  | install name bytecode args =>
    exact .install args ⟨fun _ _ => .refl _, fun _ _ _ _ => .refl _, fun _ _ => .refl _⟩ (.refl _)
      (.refl _)
  | execute name entry args =>
    exact .execute entry args ⟨fun _ _ => .refl _, fun _ _ _ _ => .refl _, fun _ _ => .refl _⟩
      (.refl _)
  | list => exact .list fun _ _ => .refl _

theorem Session.config_submit (r : Request) (s : Session σ) :
    (submit r s).2.sandbox.config = s.sandbox.config := by
  have hstart : SessionRel s.sandbox.config Eq s s := ⟨rfl, rfl, rfl⟩
  exact (submit_alike (fun order _ => (orderServed_eq _ order).sim) hstart).2.config_eq

end LedgerSandbox
