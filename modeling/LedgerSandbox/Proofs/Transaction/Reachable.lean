import LedgerSandbox.Proofs.SortedMap
import LedgerSandbox.Proofs.Transaction.History

/-!
# Reachable ledgers

What may stand on a ledger in memory that was empty at first, whatever transactions have
been run since: records of modules, and state of modules that have a record, within the
limits of the host (`WellFormed`). One transaction keeps a ledger well-formed, also if its
guest fails halfway (`Session.wellFormed_submit`), hence so do any number of them
(`Session.wellFormed_after`). `Session.reachable_ledger` says what this means for the entries
of the ledger and for look-ups.
-/

namespace LedgerSandbox

open ModuleName (Accepted)

/-- What changes leave under a key is what stood there, or what one of them put. -/
theorem applied_eq_or_mem (contents : Key → Option Value) (changes : List Change) (key : Key) :
    applied contents changes key = contents key ∨ (key, applied contents changes key) ∈ changes := by
  induction changes generalizing contents with
  | nil => exact .inl rfl
  | cons c rest ih =>
    rcases ih (Function.update contents c.1 c.2) with hsame | hmem
    · rw [show applied contents (c :: rest) key = applied _ rest key from rfl, hsame]
      by_cases hkey : key = c.1
      · subst hkey
        rw [Function.update_self]
        exact .inr List.mem_cons_self
      · rw [Function.update_of_ne hkey]
        exact .inl rfl
    · exact .inr (List.mem_cons_of_mem _ hmem)

theorem guestKey_takeWhile {name : String} (h : Accepted name) (own : Key) :
    (guestKey name own).takeWhile (· ≠ 0x5F) = encodeUtf8 name := by
  have hname : ∀ b ∈ encodeUtf8 name, decide (b ≠ 0x5F) = true := by
    intro b hb
    rw [decide_eq_true_iff]
    rintro rfl
    exact h.underscore_not_mem hb
  rw [guestKey, List.takeWhile_append_of_pos hname, List.takeWhile_cons_of_neg (by simp),
    List.append_nil]

/-! ## The invariant -/

/-- Whether a value may stand under a key, among other contents. -/
inductive IsEntry (limits : HostLimits) (contents : Key → Option Value) (key : Key)
    (value : Value) : Prop
  | record {name : String} : Accepted name → key = Registry.recordBytes name →
    IsEntry limits contents key value
  | guest {name : String} {own : Key} {bytecode : Bytes} : Accepted name →
    key = guestKey name own → contents (Registry.recordBytes name) = some bytecode →
    own.length ≤ limits.maxKeyLen → value.length ≤ limits.maxValueLen →
    IsEntry limits contents key value

variable {limits : HostLimits} {contents contents' : Key → Option Value}

/-- An entry stays one for as long as no record is taken away. -/
theorem IsEntry.mono {key : Key} {value : Value} (h : IsEntry limits contents key value)
    (hkept : ∀ name bytecode, contents (Registry.recordBytes name) = some bytecode →
      contents' (Registry.recordBytes name) = some bytecode) :
    IsEntry limits contents' key value := by
  cases h with
  | record hname hkey => exact .record hname hkey
  | guest hname hkey hrecord hown hvalue =>
    exact .guest hname hkey (hkept _ _ hrecord) hown hvalue

/-- What a guest puts under its keys are entries, once its module has a record. -/
theorem IsGuestChange.isEntry {name : String} {bytecode : Bytes} {key : Key} {value : Value}
    (h : IsGuestChange name limits (key, some value)) (hname : Accepted name)
    (hrecord : contents (Registry.recordBytes name) = some bytecode) :
    IsEntry limits contents key value := by
  obtain ⟨own, hkey, hown, hvalue⟩ := h
  exact .guest hname hkey hrecord hown (hvalue value rfl)

/-- Whether everything on a ledger is a record, or within the limits of the host and state
of a module with a record. -/
def WellFormed (limits : HostLimits) (contents : Key → Option Value) : Prop :=
  ∀ key value, contents key = some value → IsEntry limits contents key value

theorem wellFormed_empty : WellFormed limits (∅ : SortedMap Value).get? := by
  intro key value h
  rw [SortedMap.get?_empty] at h
  cases h

/-- Changes that put entries only, and take no record away, keep a ledger well-formed. -/
theorem WellFormed.applied {changes : List Change} (h : WellFormed limits contents)
    (hkept : ∀ name bytecode, contents (Registry.recordBytes name) = some bytecode →
      applied contents changes (Registry.recordBytes name) = some bytecode)
    (hput : ∀ key value, (key, some value) ∈ changes →
      IsEntry limits (applied contents changes) key value) :
    WellFormed limits (applied contents changes) := by
  intro key value hvalue
  rcases applied_eq_or_mem contents changes key with hsame | hmem
  · rw [hsame] at hvalue
    exact (h key value hvalue).mono hkept
  · rw [hvalue] at hmem
    exact hput key value hmem

namespace Session

theorem wellFormed_submit {r : Request} {s : Session MemoryLedger}
    (h : WellFormed s.sandbox.config.limits s.ledger.contents.get?) :
    WellFormed s.sandbox.config.limits (submit r s).2.ledger.contents.get? := by
  have hkept : ∀ name bytecode,
      s.ledger.contents.get? (Registry.recordBytes name) = some bytecode →
      (submit r s).2.ledger.contents.get? (Registry.recordBytes name) = some bytecode :=
    fun name bytecode hrecord => (record_submit_iff r s name bytecode).mpr (.inl hrecord)
  have heffect := submit_effect r s
  generalize (submit r s).1 = response, (submit r s).2 = t at heffect hkept
  cases heffect with
  | nothing hledger _ =>
    rw [hledger]
    exact h
  | @installed name bytecode args changes _ _ hname _ hguest hcontents =>
    have hrecord : t.ledger.contents.get? (Registry.recordBytes name) = some bytecode := by
      rw [hcontents, applied_append]
      exact Function.update_self ..
    rw [hcontents] at hkept hrecord ⊢
    refine h.applied hkept fun key value hmem => ?_
    rcases List.mem_append.mp hmem with hmem | hmem
    · exact (hguest _ hmem).isEntry hname hrecord
    · exact .record hname (congrArg Prod.fst (List.mem_singleton.mp hmem))
  | @executed name entry args bytecode changes _ hname hrecord hguest hcontents =>
    have hrecord' := hkept name bytecode hrecord
    rw [hcontents] at hkept hrecord' ⊢
    exact h.applied hkept fun key value hmem => (hguest _ hmem).isEntry hname hrecord'

theorem wellFormed_after {start : Session MemoryLedger} (hempty : start.ledger = ⟨∅⟩)
    (requests : List Request) :
    WellFormed start.sandbox.config.limits (after requests start).ledger.contents.get? := by
  have hstart : WellFormed start.sandbox.config.limits start.ledger.contents.get? := by
    rw [hempty]
    exact wellFormed_empty
  -- The limits in force are at all times those that were set at the start.
  have hstep : ∀ r (s : Session MemoryLedger),
      WellFormed s.sandbox.config.limits s.ledger.contents.get? →
      WellFormed (submit r s).2.sandbox.config.limits (submit r s).2.ledger.contents.get? := by
    intro r s h
    rw [config_submit]
    exact wellFormed_submit h
  have hafter := after_invariant hstep requests hstart
  rw [config_after] at hafter
  exact hafter

/-! ## The entries, as they are listed -/

/-- What the entries of a ledger are, given the limits of the host. -/
structure LedgerShape (limits : HostLimits) (s : Session MemoryLedger) : Prop where
  /-- An entry is a record, or state of an installed module, the one named before the first
  underscore of the key. -/
  entries : ∀ key value, (key, value) ∈ s.ledger.contents.entries →
    (∃ name, Accepted name ∧ Registry.recordKey name = .ok key) ∨
    ∃ name own bytecode, key = encodeUtf8 name ++ 0x5F :: own ∧
      key.takeWhile (· ≠ 0x5F) = encodeUtf8 name ∧
      Registry.lookup name s = .ok bytecode s ∧
      own.length ≤ limits.maxKeyLen ∧ value.length ≤ limits.maxValueLen
  /-- There is no state of a module that is not installed. -/
  uninstalled : ∀ name, Accepted name → Registry.lookup name s = .error (.notFound name) s →
    ∀ own value, (guestKey name own, value) ∉ s.ledger.contents.entries
  no_empty_key : ∀ value, ([], value) ∉ s.ledger.contents.entries

theorem ledgerShape_of_wellFormed {s : Session MemoryLedger}
    (h : WellFormed limits s.ledger.contents.get?) : LedgerShape limits s where
  entries key value hmem := by
    cases h key value (SortedMap.mem_entries_iff.mp hmem) with
    | record hname hkey =>
      refine .inl ⟨_, hname, ?_⟩
      rw [Registry.recordKey_of_accepted hname, hkey]
    | @guest name own bytecode hname hkey hrecord hown hvalue =>
      refine .inr ⟨name, own, bytecode, hkey, ?_, ?_, hown, hvalue⟩
      · rw [hkey, guestKey_takeWhile hname]
      · exact Registry.lookup_eq_ok_iff.mpr ⟨hname, hrecord⟩
  uninstalled name hname hmissing own value hmem := by
    cases h _ value (SortedMap.mem_entries_iff.mp hmem) with
    | record _ hkey => exact guestKey_ne_recordBytes hname own _ hkey
    | guest hname' hkey hrecord _ _ =>
      -- The key names one module only, and that one has a record.
      obtain ⟨rfl, -⟩ := (guestKey_inj hname hname').mp hkey
      rw [Registry.lookup_eq_notFound_iff.mp hmissing hname] at hrecord
      cases hrecord
  no_empty_key value hmem := by
    cases h _ value (SortedMap.mem_entries_iff.mp hmem) with
    | record _ hkey => exact Registry.recordBytes_ne_nil _ hkey.symm
    | guest _ hkey _ _ _ => exact guestKey_ne_nil _ _ hkey.symm

/-- **Nothing stray on the ledger.** Whatever transactions are run on an empty ledger, it
holds records, and state of installed modules within the limits of the host. -/
theorem reachable_ledger (sandbox : Sandbox) (requests : List Request) :
    LedgerShape sandbox.config.limits (after requests ⟨sandbox, ⟨∅⟩⟩) :=
  ledgerShape_of_wellFormed (wellFormed_after rfl requests)

end Session

end LedgerSandbox
