import LedgerSandbox.Proofs.Transaction.InMemory

/-!
# Histories of transactions

What every transaction keeps, histories of transactions keep (`Session.after_invariant`).

Starting from an empty ledger in memory, any transactions are run, with any arguments and
any bytecode. At all times the records on the ledger are those of the installations that
have succeeded so far (`Session.record_after_iff`): each name is installed once at most, and
for good (`Session.records_permanent`).
-/

namespace LedgerSandbox

namespace Session

/-- The session after some requests, the first one first. -/
def after {σ : Type} [Ledger σ] (requests : List Request) (s : Session σ) : Session σ :=
  requests.foldl (fun s r => (submit r s).2) s

@[simp] theorem after_nil {σ : Type} [Ledger σ] (s : Session σ) : after [] s = s := rfl

theorem after_append {σ : Type} [Ledger σ] (requests more : List Request) (s : Session σ) :
    after (requests ++ more) s = after more (after requests s) := List.foldl_append

theorem after_concat {σ : Type} [Ledger σ] (requests : List Request) (r : Request) (s : Session σ) :
    after (requests ++ [r]) s = (submit r (after requests s)).2 := after_append requests [r] s

/-- What every transaction keeps holds after any number of them. -/
theorem after_invariant {σ : Type} [Ledger σ] {P : Session σ → Prop}
    (hstep : ∀ r s, P s → P (submit r s).2) (requests : List Request) {s : Session σ} (h : P s) :
    P (after requests s) := by
  induction requests generalizing s with
  | nil => exact h
  | cons r rest ih => exact ih (hstep r s h)

theorem config_after {σ : Type} [Ledger σ] (requests : List Request) (s : Session σ) :
    (after requests s).sandbox.config = s.sandbox.config := by
  have hstep : ∀ r (t : Session σ), t.sandbox.config = s.sandbox.config →
      (submit r t).2.sandbox.config = s.sandbox.config := by
    intro r t h
    rw [config_submit, h]
  exact after_invariant hstep requests rfl

/-! ## Successful installations -/

/-- Whether request number `i` was to install bytecode as a module, and succeeded. -/
def InstalledAt (start : Session MemoryLedger) (requests : List Request) (i : Nat) (name : String)
    (bytecode : Bytes) : Prop :=
  ∃ r, requests[i]? = some r ∧ Installs r (after (requests.take i) start) name bytecode

variable {start : Session MemoryLedger} {requests : List Request} {name : String} {bytecode : Bytes}

theorem InstalledAt.lt {i : Nat} (h : InstalledAt start requests i name bytecode) :
    i < requests.length := by
  obtain ⟨r, hr, -⟩ := h
  exact (List.getElem?_eq_some_iff.mp hr).1

theorem installedAt_append {more : List Request} {i : Nat} (h : i < requests.length) :
    InstalledAt start (requests ++ more) i name bytecode ↔
      InstalledAt start requests i name bytecode := by
  unfold InstalledAt
  rw [List.getElem?_append_left h, List.take_append_of_le_length (Nat.le_of_lt h)]

theorem installedAt_concat {r : Request} {i : Nat} :
    InstalledAt start (requests ++ [r]) i name bytecode ↔
      InstalledAt start requests i name bytecode ∨
        i = requests.length ∧ Installs r (after requests start) name bytecode := by
  rcases Nat.lt_trichotomy i requests.length with hlt | rfl | hgt
  · rw [installedAt_append hlt]
    constructor
    · exact .inl
    · rintro (h | ⟨heq, -⟩)
      · exact h
      · omega
  · constructor
    · rintro ⟨r', hr', hinstalls⟩
      rw [List.getElem?_concat_length] at hr'
      cases hr'
      rw [List.take_left] at hinstalls
      exact .inr ⟨rfl, hinstalls⟩
    · rintro (h | ⟨-, hinstalls⟩)
      · exact absurd h.lt (Nat.lt_irrefl _)
      · refine ⟨r, List.getElem?_concat_length, ?_⟩
        rw [List.take_left]
        exact hinstalls
  · constructor
    · intro h
      have hlt := h.lt
      rw [List.length_append, List.length_singleton] at hlt
      omega
    · rintro (h | ⟨heq, -⟩)
      · have hlt := h.lt
        omega
      · omega

/-- **The records tell the history.** A name has a record just if it has been installed, and
the record is the bytecode that was installed. -/
theorem record_after_iff (hempty : start.ledger = ⟨∅⟩) :
    (after requests start).ledger.contents.get? (Registry.recordBytes name) = some bytecode ↔
      ∃ i, InstalledAt start requests i name bytecode := by
  -- Every transaction adds to the records what it has installed.
  induction requests using List.reverseRecOn with
  | nil =>
    rw [after_nil, hempty]
    constructor
    · intro h
      cases h
    · rintro ⟨i, r, hr, -⟩
      simp at hr
  | append_singleton requests r ih =>
    rw [after_concat, record_submit_iff, ih]
    constructor
    · rintro (⟨i, h⟩ | h)
      · exact ⟨i, installedAt_concat.mpr (.inl h)⟩
      · exact ⟨requests.length, installedAt_concat.mpr (.inr ⟨rfl, h⟩)⟩
    · rintro ⟨i, h⟩
      rcases installedAt_concat.mp h with h | ⟨-, h⟩
      · exact .inl ⟨i, h⟩
      · exact .inr h

theorem InstalledAt.accepted {i : Nat} (h : InstalledAt start requests i name bytecode) :
    ModuleName.Accepted name := by
  obtain ⟨r, -, hinstalls⟩ := h
  exact hinstalls.fresh.1

theorem InstalledAt.not_lt (hempty : start.ledger = ⟨∅⟩) {i j : Nat} {bytecode' : Bytes}
    (h : InstalledAt start requests i name bytecode)
    (h' : InstalledAt start requests j name bytecode') : ¬ i < j := by
  intro hlt
  -- After the first installation there is a record, and no installation succeeds any more.
  have hearlier : InstalledAt start (requests.take j) i name bytecode := by
    rw [← List.take_append_drop j requests] at h
    refine (installedAt_append ?_).mp h
    rw [List.length_take]
    have := h'.lt
    omega
  have hrecord := (record_after_iff hempty).mpr ⟨i, hearlier⟩
  obtain ⟨r, -, hinstalls⟩ := h'
  rw [hinstalls.fresh.2] at hrecord
  cases hrecord

theorem record_after_append {other : String} {value : Value}
    (h : (after requests start).ledger.contents.get? (Registry.recordBytes other) = some value)
    (more : List Request) :
    (after (requests ++ more) start).ledger.contents.get? (Registry.recordBytes other) = some value := by
  have hstep : ∀ r (s : Session MemoryLedger),
      s.ledger.contents.get? (Registry.recordBytes other) = some value →
      (submit r s).2.ledger.contents.get? (Registry.recordBytes other) = some value := by
    intro r s hrecord
    exact (record_submit_iff r s other value).mpr (.inl hrecord)
  rw [after_append]
  exact after_invariant hstep more h

/-! ## Permanence -/

/-- What it means that the modules installed so far are there for good. -/
structure PermanentRecords (start : Session MemoryLedger) (requests : List Request) : Prop where
  /-- A look-up finds what was installed under exactly this name. -/
  found_iff : ∀ name bytecode,
    Registry.lookup name (after requests start) = .ok bytecode (after requests start) ↔
      ∃ i, InstalledAt start requests i name bytecode
  missing_iff : ∀ name,
    Registry.lookup name (after requests start) =
        .error (.notFound name) (after requests start) ↔
      ∀ i bytecode, ¬ InstalledAt start requests i name bytecode
  rejected : ∀ name, ¬ ModuleName.Accepted name →
    Registry.lookup name (after requests start) = .error (.notFound name) (after requests start)
  once : ∀ name i j bytecode bytecode', InstalledAt start requests i name bytecode →
    InstalledAt start requests j name bytecode' → i = j
  /-- Another installation is refused and nothing changes: neither the ledger, nor what the
  sandbox has accepted and logged. No guest is run, for this holds in whatever sandbox, those
  included that have accepted the bytecode as some module or other. -/
  taken : ∀ name i bytecode, InstalledAt start requests i name bytecode →
    ∀ r bytecode' args, r.order = .ok (.install name bytecode' args) → ∀ sandbox,
      submit r ⟨sandbox, (after requests start).ledger⟩ =
        (.ofFailure (.alreadyExists name), ⟨sandbox, (after requests start).ledger⟩)
  /-- Whatever is requested later, records stay. -/
  kept : ∀ name key value, Registry.recordKey name = .ok key →
    (after requests start).ledger.contents.get? key = some value →
    ∀ more, (after (requests ++ more) start).ledger.contents.get? key = some value

/-- **Records are unique and permanent**, in every state that transactions lead to from an
empty ledger. -/
theorem records_permanent (sandbox : Sandbox) (requests : List Request) :
    PermanentRecords ⟨sandbox, ⟨∅⟩⟩ requests where
  found_iff name bytecode := by
    rw [Registry.lookup_eq_ok_iff, record_after_iff rfl]
    constructor
    · exact And.right
    · rintro ⟨i, h⟩
      exact ⟨h.accepted, i, h⟩
  missing_iff name := by
    rw [Registry.lookup_eq_notFound_iff]
    constructor
    · intro hnone i bytecode h
      have hrecord := (record_after_iff rfl).mpr ⟨i, h⟩
      rw [hnone h.accepted] at hrecord
      cases hrecord
    · intro hnot _
      cases hrecord : (after requests (⟨sandbox, ⟨∅⟩⟩ : Session MemoryLedger)).ledger.contents.get?
          (Registry.recordBytes name) with
      | none => rfl
      | some bytecode =>
        obtain ⟨i, h⟩ := (record_after_iff rfl).mp hrecord
        exact absurd h (hnot i bytecode)
  rejected name hrejected := Registry.lookup_rejected hrejected _
  once name i j bytecode bytecode' h h' := by
    rcases Nat.lt_trichotomy i j with hlt | heq | hgt
    · exact absurd hlt (h.not_lt rfl h')
    · exact heq
    · exact absurd hgt (h'.not_lt rfl h)
  taken name i bytecode h r bytecode' args horder sandbox' := by
    have hrecord := (record_after_iff rfl).mpr ⟨i, h⟩
    exact submit_taken (s := ⟨sandbox', _⟩) horder h.accepted hrecord
  kept name key value hkey hvalue more := by
    rw [Registry.eq_recordBytes hkey] at hvalue ⊢
    exact record_after_append hvalue more

end Session

end LedgerSandbox
