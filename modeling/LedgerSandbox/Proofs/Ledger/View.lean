import LedgerSandbox.Proofs.Ledger.Recorded
import Mathlib.Logic.Function.Basic

/-!
# What a ledger holds

A ledger is a store behind four operations, and what it holds shows in its answers only.
`View` says what a dependable ledger is: its contents are a partial map, reads answer from
the map and leave it alone, an accepted write changes it at one key, and a refused write
does not change it. Refusals may come at any time and for any reason.

The contents after some writes are then what the accepted ones among them make of the
contents before (`Recorded.install_faithful`, for the writes of an installation).
-/

namespace LedgerSandbox

variable {σ : Type}

/-! ## Reads -/

/-- Whether one state of a ledger comes from another by reads alone. -/
inductive ReadOnly [Ledger σ] (s : σ) : σ → Prop
  | refl : ReadOnly s s
  | get (key : Key) {t : σ} : ReadOnly s t → ReadOnly s (finalState (Ledger.get key t))

/-- Something about a ledger that reads do not change, whether they succeed or fail. -/
structure Observer (σ : Type) [Ledger σ] (α : Type) where
  observe : σ → α
  observe_get : ∀ key s, observe (finalState (Ledger.get key s)) = observe s

theorem ReadOnly.observe [Ledger σ] {α : Type} {s t : σ} (h : ReadOnly s t) (o : Observer σ α) :
    o.observe t = o.observe s := by
  induction h with
  | refl => rfl
  | get key _ ih => exact (o.observe_get key _).trans ih

theorem Recorded.writes_get [Ledger σ] (key : Key) (r : Recorded σ) :
    (finalState (Ledger.get key r)).writes = r.writes := by
  show (finalState (Recorded.onInner (Ledger.get key) r)).writes = r.writes
  unfold Recorded.onInner
  cases (Ledger.get key r.inner : EStateM.Result LedgerError σ (Option Value)) with
  | ok found s => rfl
  | error e s => rfl

theorem Recorded.inner_get [Ledger σ] (key : Key) (r : Recorded σ) :
    (finalState (Ledger.get key r)).inner = finalState (Ledger.get key r.inner) := by
  show (finalState (Recorded.onInner (Ledger.get key) r)).inner = _
  unfold Recorded.onInner
  cases (Ledger.get key r.inner : EStateM.Result LedgerError σ (Option Value)) with
  | ok found s => rfl
  | error e s => rfl

theorem ReadOnly.writes [Ledger σ] {r r' : Recorded σ} (h : ReadOnly r r') :
    r'.writes = r.writes := by
  induction h with
  | refl => rfl
  | get key _ ih => exact (Recorded.writes_get key _).trans ih

theorem ReadOnly.inner [Ledger σ] {r r' : Recorded σ} (h : ReadOnly r r') :
    ReadOnly r.inner r'.inner := by
  induction h with
  | refl => exact .refl
  | get key _ ih =>
    rw [Recorded.inner_get]
    exact .get key ih

/-! ## Contents -/

/-- What changes make of some contents, the first change first. -/
def applied (contents : Key → Option Value) (changes : List Change) : Key → Option Value :=
  changes.foldl (fun m c => Function.update m c.1 c.2) contents

theorem applied_append (contents : Key → Option Value) (changes more : List Change) :
    applied contents (changes ++ more) = applied (applied contents changes) more :=
  List.foldl_append

theorem applied_of_not_mem {contents : Key → Option Value} {changes : List Change} {key : Key}
    (h : ∀ c ∈ changes, c.1 ≠ key) : applied contents changes key = contents key := by
  induction changes generalizing contents with
  | nil => rfl
  | cons c rest ih =>
    have hne : key ≠ c.1 := (h c List.mem_cons_self).symm
    show applied (Function.update contents c.1 c.2) rest key = contents key
    rw [ih fun d hd => h d (List.mem_cons_of_mem _ hd), Function.update_of_ne hne]

theorem keys_ne_of_ascending {changes : List Change} (h : changes.Pairwise fun a b => a.1 < b.1) :
    changes.Pairwise fun a b => a.1 ≠ b.1 := by
  refine h.imp fun {a b} hlt heq => ?_
  rw [heq] at hlt
  exact List.lt_irrefl _ hlt

/-- Of changes with different keys each one shows. -/
theorem applied_of_mem {contents : Key → Option Value} {changes : List Change} {c : Change}
    (hkeys : changes.Pairwise fun a b => a.1 ≠ b.1) (h : c ∈ changes) :
    applied contents changes c.1 = c.2 := by
  induction changes generalizing contents with
  | nil => exact absurd h List.not_mem_nil
  | cons d rest ih =>
    obtain ⟨hfirst, hrest⟩ := List.pairwise_cons.mp hkeys
    show applied (Function.update contents d.1 d.2) rest c.1 = c.2
    -- Later changes have other keys and leave the first one in place.
    rcases List.mem_cons.mp h with rfl | h
    · rw [applied_of_not_mem fun e he => (hfirst e he).symm, Function.update_self]
    · exact ih hrest h

/-- Changes of different keys show unless each of them is idle. -/
theorem applied_eq_self_iff {contents : Key → Option Value} {changes : List Change}
    (hkeys : changes.Pairwise fun a b => a.1 ≠ b.1) :
    applied contents changes = contents ↔ ∀ c ∈ changes, contents c.1 = c.2 := by
  constructor
  · intro h c hc
    rw [← h]
    exact applied_of_mem hkeys hc
  · intro h
    funext key
    by_cases hkey : ∃ c ∈ changes, c.1 = key
    · obtain ⟨c, hc, rfl⟩ := hkey
      rw [applied_of_mem hkeys hc, h c hc]
    · exact applied_of_not_mem fun c hc heq => hkey ⟨c, hc, heq⟩

/-- The contents of a dependable ledger. -/
structure View (σ : Type) [Ledger σ] where
  contents : σ → Key → Option Value
  get_ok : ∀ {key s found t}, Ledger.get key s = .ok found t → found = contents s key
  contents_get : ∀ key s, contents (finalState (Ledger.get key s)) = contents s
  write_ok : ∀ {key change s t}, Ledger.write key change s = .ok () t →
    contents t = Function.update (contents s) key change
  write_error : ∀ {key change s e t}, Ledger.write key change s = .error e t →
    contents t = contents s

namespace View

def observer [Ledger σ] (V : View σ) : Observer σ (Key → Option Value) where
  observe := V.contents
  observe_get := V.contents_get

/-- Whether scans leave the contents alone, like other reads. -/
def KeepsInScans [Ledger σ] (V : View σ) : Prop :=
  ∀ start stop s, V.contents (finalState (Ledger.range start stop s)) = V.contents s

end View

/-! ## Contents behind a record -/

namespace Recorded

/-- What the accepted ones among some writes ask for. -/
def accepted (writes : List (WriteRecord σ)) : List Change :=
  (writes.filter (·.refusal.isNone)).map WriteRecord.asked

theorem accepted_append (writes more : List (WriteRecord σ)) :
    accepted (writes ++ more) = accepted writes ++ accepted more := by
  unfold accepted
  rw [List.filter_append, List.map_append]

theorem accepted_eq_map {writes : List (WriteRecord σ)} (h : ∀ w ∈ writes, w.refusal = none) :
    accepted writes = writes.map WriteRecord.asked := by
  unfold accepted
  rw [List.filter_eq_self.mpr fun w hw => by rw [h w hw, Option.isNone_none]]

variable [Ledger σ] {V : View σ} {contents : Key → Option Value}

/-- The ledger now, and after each recorded write, holds what the writes accepted until
then make of the given contents. -/
structure Faithful (V : View σ) (contents : Key → Option Value) (r : Recorded σ) : Prop where
  now : V.contents r.inner = applied contents (accepted r.writes)
  after : ∀ earlier w later, r.writes = earlier ++ w :: later →
    V.contents w.after = applied contents (accepted (earlier ++ [w]))

theorem faithful_start (V : View σ) (s : σ) : Faithful V (V.contents s) (start s) where
  now := rfl
  after earlier w later h := by simp [start] at h

theorem Faithful.get {r : Recorded σ} (h : Faithful V contents r) (key : Key) :
    Faithful V contents (finalState (Ledger.get key r)) where
  now := by rw [inner_get, V.contents_get, writes_get, h.now]
  after earlier w later hwrites := h.after earlier w later (by rw [← hwrites, writes_get])

theorem Faithful.write {r : Recorded σ} (h : Faithful V contents r) (key : Key)
    (change : Option Value) : Faithful V contents (finalState (Ledger.write key change r)) := by
  have hmore : ∀ (w : WriteRecord σ), V.contents w.after =
      applied contents (accepted (r.writes ++ [w])) → Faithful V contents ⟨w.after, r.writes ++ [w]⟩ := by
    intro w hw
    refine ⟨hw, fun earlier w' later hsplit => ?_⟩
    -- The split is at the new write, or it is a split of the writes before.
    rcases List.eq_nil_or_concat later with rfl | ⟨later, last, rfl⟩
    · obtain ⟨rfl, hlast⟩ := List.append_inj' hsplit rfl
      obtain rfl := List.head_eq_of_cons_eq hlast
      exact hw
    · rw [List.concat_eq_append, ← List.cons_append, ← List.append_assoc] at hsplit
      exact h.after earlier w' later (List.append_inj' hsplit rfl).1
  rw [write_eq]
  unfold receive
  cases hres : (Ledger.write key change r.inner : EStateM.Result LedgerError σ Unit) with
  | ok _ s =>
    refine hmore ⟨key, change, none, s⟩ ?_
    rw [accepted_append, applied_append, ← h.now]
    exact V.write_ok hres
  | error e s =>
    refine hmore ⟨key, change, some e, s⟩ ?_
    rw [accepted_append, applied_append, ← h.now]
    exact V.write_error hres

/-- **The record tells the contents.** Behind an installation the ledger holds what the
accepted writes make of its old contents. -/
theorem install_faithful (V : View σ) (name : String) (bytecode : Bytes) (args : List Bytes)
    (s : Session σ) :
    Faithful V (V.contents s.ledger)
      (finalState (Registry.install name bytecode args s.recorded)).ledger := by
  have keeps : ∀ (key : Key) (change : Option Value),
      Simulates (fun r r' => r = r' ∧ Faithful V (V.contents s.ledger) r)
        (Ledger.write key change) (Ledger.write key change) :=
    fun key change => .of_invariant fun r h => h.write key change
  have reads : ∀ key : Key, Simulates (fun r r' => r = r' ∧ Faithful V (V.contents s.ledger) r)
      (Ledger.get key) (Ledger.get key) :=
    fun key => .of_invariant fun r h => h.get key
  have sim : LedgerSim name s.sandbox.config.limits
      fun r r' => r = r' ∧ Faithful V (V.contents s.ledger) r :=
    ⟨fun key _ => reads _, fun key value _ _ => keeps _ (some value), fun key _ => keeps _ none⟩
  exact Session.ledger_invariant
    (Registry.install_simulates name bytecode args sim (reads _) (keeps _ (some bytecode)))
    (faithful_start V s.ledger)

end Recorded

end LedgerSandbox
