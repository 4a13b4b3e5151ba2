import LedgerSandbox.Host.State
import LedgerSandbox.ModuleName
import LedgerSandbox.Proofs.Ledger.CompositeKey
import LedgerSandbox.Registry

/-!
# Guest keys and record keys

Two kinds of keys share one ledger: the keys of guests, `name_key`, and the keys of
module records. An accepted module name is not empty and holds neither an underscore
nor U+0000, and so

* a guest key names its module and its key in one way only (`guestKey_inj`), whatever
  bytes the key holds;
* no guest key is the key of a record (`guestKey_ne_recordBytes`).
-/

namespace LedgerSandbox

/-- The ledger key of the key `key` of the module `name`. -/
def guestKey (name : String) (key : Key) : Key := encodeUtf8 name ++ 0x5F :: key

theorem Invocation.namespacedKey_eq (invocation : Invocation) (key : Key) :
    invocation.namespacedKey key = guestKey invocation.moduleName key := rfl

namespace ModuleName

/-- Whether a module may be installed under a name. -/
def Accepted (name : String) : Prop := validate name = .ok ()

instance (name : String) : Decidable (Accepted name) := by
  unfold Accepted
  exact match h : validate name with
    | .ok () => isTrue rfl
    | .error _ => isFalse (by simp)

theorem accepted_iff {name : String} :
    Accepted name ↔ name ≠ "" ∧ ∀ c ∈ name.toList, isReserved c = false := by
  unfold Accepted validate
  by_cases hempty : name = ""
  · simp [hempty, throw, throwThe, MonadExceptOf.throw]
  · rw [if_neg hempty]
    cases hfind : name.toList.find? isReserved with
    | none => simpa [hempty, pure, Except.pure] using List.find?_eq_none.mp hfind
    | some c =>
      have hc := List.find?_some hfind
      have hmem := List.mem_of_find?_eq_some hfind
      simp only [throw, throwThe, MonadExceptOf.throw, reduceCtorEq, false_iff]
      rintro ⟨-, hall⟩
      rw [hall c hmem] at hc
      exact Bool.false_ne_true hc

variable {name : String}

theorem validate_error {failure : Failure} (h : validate name = .error failure) :
    ∃ reason, failure = .invalidArguments reason := by
  unfold validate at h
  split at h
  · cases h
    exact ⟨_, rfl⟩
  · split at h
    · cases h
    · cases h
      exact ⟨_, rfl⟩

/-- A reserved ASCII character is not among the bytes of an accepted name. -/
theorem Accepted.not_mem (h : Accepted name) {b : UInt8} (hb : b.toNat < 0x80)
    (hres : isReserved (Char.ofNat b.toNat) = true) : b ∉ encodeUtf8 name := by
  intro hmem
  obtain ⟨c, hc, hcb⟩ := exists_char_of_mem_encodeUtf8 hmem hb
  have hfree := (accepted_iff.mp h).2 c hc
  rw [← hcb, Char.ofNat_toNat, hfree] at hres
  exact Bool.false_ne_true hres

theorem Accepted.underscore_not_mem (h : Accepted name) : 0x5F ∉ encodeUtf8 name :=
  h.not_mem (by decide) (by decide)

theorem Accepted.nul_not_mem (h : Accepted name) : 0x00 ∉ encodeUtf8 name :=
  h.not_mem (by decide) (by decide)

theorem Accepted.encodeUtf8_ne_nil (h : Accepted name) : encodeUtf8 name ≠ [] := by
  intro hnil
  exact (accepted_iff.mp h).1 (encodeUtf8_injective (hnil.trans (by decide : [] = encodeUtf8 "")))

end ModuleName

open ModuleName (Accepted)

/-- Two lists that are cut at the first place of the same element agree before and after it. -/
theorem append_cons_inj {α : Type} {c : α} {xs ys k l : List α} (hx : c ∉ xs) (hy : c ∉ ys)
    (h : xs ++ c :: k = ys ++ c :: l) : xs = ys ∧ k = l := by
  induction xs generalizing ys with
  | nil =>
    cases ys with
    | nil => exact ⟨rfl, (List.cons.inj h).2⟩
    | cons y ys => exact absurd ((List.cons.inj h).1 ▸ List.mem_cons_self) hy
  | cons x xs ih =>
    cases ys with
    | nil => exact absurd ((List.cons.inj h).1 ▸ List.mem_cons_self) hx
    | cons y ys =>
      obtain ⟨rfl, htail⟩ := List.cons.inj h
      obtain ⟨rfl, hrest⟩ := ih (fun hm => hx (List.mem_cons_of_mem _ hm))
        (fun hm => hy (List.mem_cons_of_mem _ hm)) htail
      exact ⟨rfl, hrest⟩

/-- **Unique parsing.** A guest key belongs to one module only, under one key only. -/
theorem guestKey_inj {a b : String} {k l : Key} (ha : Accepted a) (hb : Accepted b) :
    guestKey a k = guestKey b l ↔ a = b ∧ k = l := by
  unfold guestKey
  constructor
  · intro h
    obtain ⟨hname, hkey⟩ := append_cons_inj ha.underscore_not_mem hb.underscore_not_mem h
    exact ⟨encodeUtf8_injective hname, hkey⟩
  · rintro ⟨rfl, rfl⟩
    rfl

theorem guestKey_ne_nil (name : String) (key : Key) : guestKey name key ≠ [] := by
  simp [guestKey]

namespace Registry

/-- The bytes that make up the key of a module's record. -/
def recordBytes (name : String) : Key :=
  0 :: CompositeKey.component recordIndex ++ CompositeKey.component name

/-- The characters refused in names include those refused in components. -/
theorem isReserved_component_eq_false {c : Char} (h : ModuleName.isReserved c = false) :
    CompositeKey.isReserved c = false := by
  simp only [ModuleName.isReserved, Bool.or_eq_false_iff] at h
  exact Bool.or_eq_false_iff.mpr ⟨h.1.2, h.2⟩

theorem recordKey_of_accepted {name : String} (h : Accepted name) :
    recordKey name = .ok (recordBytes name) := by
  refine CompositeKey.create_eq_ok_iff.mpr ⟨?_, by simp [recordBytes]⟩
  intro text htext c hc
  rcases List.mem_cons.mp htext with rfl | htext
  · have hindex : recordIndex.toList.any CompositeKey.isReserved = false := by decide
    exact Bool.eq_false_iff.mpr (List.any_eq_false.mp hindex c hc)
  · rw [List.mem_singleton.mp htext] at hc
    exact isReserved_component_eq_false ((ModuleName.accepted_iff.mp h).2 c hc)

end Registry

/-- A record key starts with U+0000, a guest key with a character of the name. -/
theorem guestKey_ne_nul_cons {name : String} (h : Accepted name) (key : Key) (rest : Bytes) :
    guestKey name key ≠ 0 :: rest := by
  intro heq
  cases hname : encodeUtf8 name with
  | nil => exact h.encodeUtf8_ne_nil hname
  | cons b bytes =>
    rw [guestKey, hname, List.cons_append] at heq
    have hb : b = 0 := (List.cons.inj heq).1
    exact h.nul_not_mem (hname ▸ hb ▸ List.mem_cons_self)

/-- **Separate keyspaces.** No guest key is the key of a record. -/
theorem guestKey_ne_recordBytes {name : String} (h : Accepted name) (key : Key)
    (other : String) : guestKey name key ≠ Registry.recordBytes other :=
  guestKey_ne_nul_cons h key _

end LedgerSandbox
