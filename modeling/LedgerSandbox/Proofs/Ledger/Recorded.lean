import LedgerSandbox.Proofs.Ledger.Changes
import LedgerSandbox.Proofs.Simulation.Session

/-!
# A ledger that records its writes

To speak of the writes that a ledger receives, it is put behind one that keeps a record
of them: `Recorded` notes every put and every delete, whether it is refused, and the
state of the ledger after it. It answers as the ledger inside does, so nobody can tell
that there is a record (`Recorded.install_forget`).

The changes of a commit are received in order, each one only after all before it were
accepted (`Recorded.applyAll_delivery`).
-/

namespace LedgerSandbox

/-- A write that a ledger has received. -/
structure WriteRecord (σ : Type) where
  key : Key
  /-- The value put under the key, or `none` for a delete. -/
  change : Option Value
  /-- Why the ledger refused the write, if it did. -/
  refusal : Option LedgerError
  /-- The ledger after the write. -/
  after : σ

/-- A ledger and the writes that it has received, the first one first. -/
structure Recorded (σ : Type) where
  inner : σ
  writes : List (WriteRecord σ)

/-- What a write asks for. -/
def WriteRecord.asked {σ : Type} (w : WriteRecord σ) : Change := (w.key, w.change)

namespace Recorded

variable {σ : Type}

/-- A ledger that has received nothing yet. -/
def start (inner : σ) : Recorded σ := ⟨inner, []⟩

/-- Runs a read of the ledger inside. -/
def onInner {α : Type} (action : EStateM LedgerError σ α) : EStateM LedgerError (Recorded σ) α :=
  fun r =>
    match action r.inner with
    | .ok a inner => .ok a { r with inner }
    | .error e inner => .error e { r with inner }

/-- Runs a write of the ledger inside and takes it down. -/
def receive (key : Key) (change : Option Value) (action : EStateM LedgerError σ Unit) :
    EStateM LedgerError (Recorded σ) Unit := fun r =>
  match action r.inner with
  | .ok () inner => .ok () ⟨inner, r.writes ++ [⟨key, change, none, inner⟩]⟩
  | .error e inner => .error e ⟨inner, r.writes ++ [⟨key, change, some e, inner⟩]⟩

instance [Ledger σ] : Ledger (Recorded σ) where
  get key := onInner (Ledger.get key)
  put key value := receive key (some value) (Ledger.put key value)
  delete key := receive key none (Ledger.delete key)
  range start stop := onInner (Ledger.range start stop)

/-- What the received writes ask for. -/
def changes (r : Recorded σ) : List Change := r.writes.map WriteRecord.asked

theorem changes_concat (inner : σ) (r : Recorded σ) (w : WriteRecord σ) :
    changes ⟨inner, r.writes ++ [w]⟩ = r.changes ++ [w.asked] :=
  List.map_append

/-! ## The record goes unnoticed -/

theorem onInner_forget {α : Type} (x : EStateM LedgerError σ α) :
    Simulates (fun (r : Recorded σ) s => r.inner = s) (onInner x) x := by
  rintro ⟨s, writes⟩ _ rfl
  unfold onInner
  dsimp only
  cases x s with
  | ok a s' => exact .ok a rfl
  | error e s' => exact .error e rfl

theorem receive_forget (key : Key) (change : Option Value) (x : EStateM LedgerError σ Unit) :
    Simulates (fun (r : Recorded σ) s => r.inner = s) (receive key change x) x := by
  rintro ⟨s, writes⟩ _ rfl
  unfold receive
  dsimp only
  cases x s with
  | ok a s' => exact .ok a rfl
  | error e s' => exact .error e rfl

variable [Ledger σ]

theorem ledgerSim_forget (name : String) (limits : HostLimits) :
    LedgerSim name limits fun (r : Recorded σ) s => r.inner = s where
  get _ _ := onInner_forget _
  put _ _ _ _ := receive_forget _ _ _
  delete _ _ := receive_forget _ _ _

/-- **The record goes unnoticed.** An installation on a recorded ledger does what it does
on the ledger itself. -/
theorem install_forget (config : Config) (name : String) (bytecode : Bytes) (args : List Bytes) :
    Simulates (SessionRel config fun (r : Recorded σ) s => r.inner = s)
      (Registry.install name bytecode args) (Registry.install name bytecode args) :=
  Registry.install_simulates name bytecode args (ledgerSim_forget name config.limits)
    (onInner_forget _) (receive_forget _ _ _)

/-- Two records that ask for the same, of ledgers related by `R`. -/
structure RecordedRel {τ : Type} (R : σ → τ → Prop) (r : Recorded σ) (r' : Recorded τ) : Prop where
  changes : r.changes = r'.changes
  inner : R r.inner r'.inner

/-- Ledgers that guest keys cannot tell apart come to the same record. -/
theorem ledgerSim_recordedRel {τ : Type} [Ledger τ] {name : String} {limits : HostLimits}
    {R : σ → τ → Prop} (sim : LedgerSim name limits R) :
    LedgerSim name limits (RecordedRel R) := by
  have hread : ∀ {α : Type} {x : EStateM LedgerError σ α} {y : EStateM LedgerError τ α},
      Simulates R x y → Simulates (RecordedRel R) (onInner x) (onInner y) := by
    intro α x y hxy r r' rel
    have hres := hxy rel.inner
    unfold onInner
    generalize x r.inner = q, y r'.inner = q' at hres
    cases hres with
    | ok a hR => exact .ok a ⟨rel.changes, hR⟩
    | error e hR => exact .error e ⟨rel.changes, hR⟩
  have hwrite : ∀ (key : Key) (change : Option Value) {x : EStateM LedgerError σ Unit}
      {y : EStateM LedgerError τ Unit}, Simulates R x y →
      Simulates (RecordedRel R) (receive key change x) (receive key change y) := by
    intro key change x y hxy r r' rel
    have hres := hxy rel.inner
    unfold receive
    generalize x r.inner = q, y r'.inner = q' at hres
    cases hres with
    | ok _ hR =>
      refine .ok () ⟨?_, hR⟩
      rw [changes_concat, changes_concat, rel.changes]
      rfl
    | error e hR =>
      refine .error e ⟨?_, hR⟩
      rw [changes_concat, changes_concat, rel.changes]
      rfl
  exact {
    get := fun key hkey => hread (sim.get key hkey)
    put := fun key value hkey hvalue => hwrite _ _ (sim.put key value hkey hvalue)
    delete := fun key hkey => hwrite _ _ (sim.delete key hkey) }

/-! ## What a commit sends -/

theorem write_eq (key : Key) (change : Option Value) :
    (Ledger.write key change : EStateM LedgerError (Recorded σ) Unit) =
      receive key change (Ledger.write key change) := by
  cases change with
  | some value => rfl
  | none => rfl

/-- What becomes of changes sent to a ledger: either all of them are received and
accepted, or they are received up to one that the ledger refuses. -/
inductive Delivery (changes : List Change) (r : Recorded σ) :
    EStateM.Result LedgerError (Recorded σ) Unit → Prop
  | complete (received : List (WriteRecord σ)) (inner : σ) :
    received.map WriteRecord.asked = changes → (∀ w ∈ received, w.refusal = none) →
    Delivery changes r (.ok () ⟨inner, r.writes ++ received⟩)
  | stopped (accepted : List (WriteRecord σ)) (w : WriteRecord σ) (rest : List Change) (inner : σ)
      (e : LedgerError) :
    accepted.map WriteRecord.asked ++ w.asked :: rest = changes →
    (∀ w ∈ accepted, w.refusal = none) → w.refusal = some e →
    Delivery changes r (.error e ⟨inner, r.writes ++ (accepted ++ [w])⟩)

omit [Ledger σ] in
theorem Delivery.cons {rest : List Change} {s s' : σ} {writes : List (WriteRecord σ)} {key : Key}
    {change : Option Value} {result : EStateM.Result LedgerError (Recorded σ) Unit}
    (h : Delivery rest ⟨s', writes ++ [⟨key, change, none, s'⟩]⟩ result) :
    Delivery ((key, change) :: rest) ⟨s, writes⟩ result := by
  have hmem : ∀ {l : List (WriteRecord σ)}, (∀ w ∈ l, w.refusal = none) →
      ∀ w ∈ ⟨key, change, none, s'⟩ :: l, w.refusal = none := by
    intro l hl w hw
    rcases List.mem_cons.mp hw with rfl | hw
    · rfl
    · exact hl w hw
  cases h with
  | complete received inner hasked hall =>
    rw [List.append_assoc]
    exact .complete (_ :: received) inner (congrArg ((key, change) :: ·) hasked) (hmem hall)
  | stopped accepted w rest inner e hasked hall hw =>
    rw [List.append_assoc]
    exact .stopped (_ :: accepted) w rest inner e (congrArg ((key, change) :: ·) hasked) (hmem hall) hw

/-- **Commits stop at the first refusal.** Changes are received in order, each one only
after all before it were accepted. -/
theorem applyAll_delivery (changes : List Change) (r : Recorded σ) :
    Delivery changes r (Layers.applyAll changes r) := by
  induction changes generalizing r with
  | nil =>
    obtain ⟨s, writes⟩ := r
    show Delivery [] ⟨s, writes⟩ (.ok () ⟨s, writes⟩)
    simpa using Delivery.complete (r := ⟨s, writes⟩) [] s rfl (by simp)
  | cons c rest ih =>
    obtain ⟨s, writes⟩ := r
    rw [Layers.applyAll_cons, write_eq, bind_apply, receive]
    -- The rest is sent only if this change was accepted, from the state that it left.
    cases Ledger.write c.1 c.2 s with
    | ok _ s' => exact (ih _).cons
    | error e s' => exact .stopped [] ⟨c.1, c.2, some e, s'⟩ rest s' e rfl (by simp) rfl

end Recorded

/-- The same session on a ledger that records its writes. -/
def Session.recorded {σ : Type} (s : Session σ) : Session (Recorded σ) := ⟨s.sandbox, .start s.ledger⟩

/-- The writes that the ledger has received from an action. -/
def received {σ α : Type} (result : EStateM.Result Failure (Session (Recorded σ)) α) :
    List (WriteRecord σ) :=
  (finalState result).ledger.writes

theorem received_bind_pure {σ α β : Type} (x : EStateM Failure (Session (Recorded σ)) α) (b : β)
    (s : Session (Recorded σ)) : received ((x >>= fun _ => pure b) s) = received (x s) := by
  unfold received
  rw [finalState_bind_pure]

end LedgerSandbox
