import LedgerSandbox.Proofs.Ledger.Staging

/-!
# Commits

Changes made on an overlay stay there (`Layers.applyAll_buffer`). A commit hands what they come
down to to the ledger below, one change after the other, and stops at the first that is refused.
The changes accepted before it stay and the others are lost: the overlay is empty afterwards, also
after a refusal, so that there is nothing to commit again (`Layers.commit_delivers`).

The ledger below may refuse whatever it likes. `Layers.sent` are the writes that it receives.
-/

namespace LedgerSandbox

variable {σ : Type}

/-! ## The writes of a delivery -/

/-- What comes before some element of a list does not include the last one. -/
theorem mem_of_concat_eq {α : Type} {xs earlier later : List α} {x y v : α}
    (h : xs ++ [x] = earlier ++ y :: later) (hv : v ∈ earlier) : v ∈ xs := by
  have hinit := congrArg List.dropLast h
  rw [List.dropLast_concat, List.dropLast_append_of_ne_nil (List.cons_ne_nil y later)] at hinit
  exact hinit ▸ List.mem_append_left _ hv

namespace Recorded.Delivery

variable {changes : List Change} {r : Recorded σ}
  {result : EStateM.Result LedgerError (Recorded σ) Unit}

theorem asked_first (hr : r.writes = []) (h : Delivery changes r result) :
    (finalState result).writes.map WriteRecord.asked <+: changes := by
  cases h with
  | complete received inner hasked _ =>
    rw [finalState_ok, hr, List.nil_append]
    exact ⟨[], by rw [List.append_nil, hasked]⟩
  | stopped accepted w rest inner e hasked _ _ =>
    rw [finalState_error, hr, List.nil_append, ← hasked]
    exact ⟨rest, by simp⟩

/-- Only the last of the writes can be a refused one. -/
theorem in_order (hr : r.writes = []) (h : Delivery changes r result)
    {earlier later : List (WriteRecord σ)} {w : WriteRecord σ}
    (hsplit : (finalState result).writes = earlier ++ w :: later) :
    ∀ v ∈ earlier, v.refusal = none := by
  intro v hv
  cases h with
  | complete received inner _ hall =>
    rw [finalState_ok, hr, List.nil_append] at hsplit
    obtain rfl : received = earlier ++ w :: later := hsplit
    exact hall v (List.mem_append_left _ hv)
  | stopped accepted w' rest inner e _ hall _ =>
    rw [finalState_error, hr, List.nil_append] at hsplit
    exact hall v (mem_of_concat_eq hsplit hv)

theorem ok_iff (hr : r.writes = []) (h : Delivery changes r result) :
    (∃ t, result = .ok () t) ↔ ∀ w ∈ (finalState result).writes, w.refusal = none := by
  cases h with
  | complete received inner _ hall =>
    rw [finalState_ok, hr, List.nil_append]
    exact ⟨fun _ => hall, fun _ => ⟨_, rfl⟩⟩
  | stopped accepted w rest inner e _ _ hw =>
    rw [finalState_error, hr, List.nil_append]
    simp [hw]

theorem error_iff (hr : r.writes = []) (h : Delivery changes r result) (e : LedgerError) :
    (∃ t, result = .error e t) ↔ ∃ w ∈ (finalState result).writes, w.refusal = some e := by
  cases h with
  | complete received inner _ hall =>
    rw [finalState_ok, hr, List.nil_append]
    simp +contextual [hall]
  | stopped accepted w rest inner e' _ hall hw =>
    rw [finalState_error, hr, List.nil_append]
    simp +contextual [hall, hw]

theorem asked_of_ok (hr : r.writes = []) (h : Delivery changes r result)
    (hok : ∃ t, result = .ok () t) :
    (finalState result).writes.map WriteRecord.asked = changes := by
  cases h with
  | complete received inner hasked _ => rw [finalState_ok, hr, List.nil_append, hasked]
  | stopped => simp at hok

theorem accepted_first (hr : r.writes = []) (h : Delivery changes r result) :
    accepted (finalState result).writes <+: changes := by
  cases h with
  | complete received inner hasked hall =>
    rw [finalState_ok, hr, List.nil_append, accepted_eq_map hall]
    exact ⟨[], by rw [List.append_nil, hasked]⟩
  | stopped accepted w rest inner e hasked hall hw =>
    rw [finalState_error, hr, List.nil_append, accepted_append, accepted_eq_map hall, ← hasked]
    exact ⟨w.asked :: rest, by simp [Recorded.accepted, hw]⟩

end Recorded.Delivery

variable [Ledger σ]

namespace Recorded

theorem applyAll_forget (changes : List Change) :
    Simulates (fun (r : Recorded σ) s => r.inner = s) (Layers.applyAll changes)
      (Layers.applyAll changes) := by
  induction changes with
  | nil => exact .pure ()
  | cons c rest ih =>
    rw [Layers.applyAll_cons, Layers.applyAll_cons, write_eq]
    exact (receive_forget _ _ _).bind fun _ => ih

theorem Faithful.applyAll {V : View σ} {contents : Key → Option Value} {r : Recorded σ}
    (h : Faithful V contents r) (changes : List Change) :
    Faithful V contents (finalState (Layers.applyAll changes r)) := by
  induction changes generalizing r with
  | nil => exact h
  | cons c rest ih =>
    have hwrite := h.write c.1 c.2
    rw [Layers.applyAll_cons, bind_apply]
    cases hres : Ledger.write c.1 c.2 r with
    | ok _ r' =>
      rw [hres] at hwrite
      exact ih hwrite
    | error e r' =>
      rw [hres] at hwrite
      exact hwrite

end Recorded

namespace Layers

/-! ## Changes on an overlay -/

/-- Changes on an overlay stay in it, and none is refused. -/
theorem applyAll_buffer (changes : List Change) (base : σ) (o : Overlay) (below : List Overlay) :
    applyAll changes (⟨base, o :: below⟩ : Layers σ) =
      .ok () ⟨base, changes.foldl (fun o c => o.insert c.1 c.2) o :: below⟩ := by
  induction changes generalizing o with
  | nil => rfl
  | cons c rest ih =>
    have hwrite : Ledger.write c.1 c.2 (⟨base, o :: below⟩ : Layers σ) =
        .ok () ⟨base, o.insert c.1 c.2 :: below⟩ := by
      cases hchange : c.2 with
      | some value => rfl
      | none => rfl
    rw [applyAll_cons, bind_apply, hwrite]
    exact ih _

theorem applyAll_ofBase (history : List Change) (base : σ) :
    applyAll history (ofBase base) = .ok () ⟨base, [Overlay.replay history]⟩ :=
  applyAll_buffer history base ∅ []

/-! ## Committing a single overlay -/

/-- Without overlays, changes go to the ledger at the bottom. -/
theorem applyAll_onBase (changes : List Change) (base : σ) :
    applyAll changes (⟨base, []⟩ : Layers σ) = onBase (applyAll changes) ⟨base, []⟩ := by
  induction changes generalizing base with
  | nil => rfl
  | cons c rest ih =>
    rw [applyAll_cons, applyAll_cons, bind_apply, write_onBase]
    unfold onBase
    rw [bind_apply]
    dsimp only
    cases Ledger.write c.1 c.2 base with
    | ok _ base' => exact ih base'
    | error e base' => rfl

theorem commit_single (base : σ) (o : Overlay) :
    commit (⟨base, [o]⟩ : Layers σ) =
      match applyAll o.entries base with
      | .ok () base => .ok () (.ofBase base)
      | .error e base => .error e (.ofBase base) := by
  unfold commit
  dsimp only
  rw [applyAll_onBase]
  unfold onBase
  dsimp only
  cases applyAll o.entries base with
  | ok _ base' => rfl
  | error e base' => rfl

/-- The state after a history of changes on an empty overlay. -/
def buffered (history : List Change) (base : σ) : Layers σ :=
  finalState (applyAll history (ofBase base))

/-- The writes that the ledger at the bottom receives from a commit. -/
def sent (l : Layers σ) : List (WriteRecord σ) :=
  (finalState (commit (⟨.start l.base, l.overlays⟩ : Layers (Recorded σ)))).base.writes

theorem buffered_eq (history : List Change) (base : σ) :
    buffered history base = ⟨base, [Overlay.replay history]⟩ := by
  rw [buffered, applyAll_ofBase, finalState_ok]

theorem sent_single (base : σ) (o : Overlay) :
    sent (⟨base, [o]⟩ : Layers σ) =
      (finalState (applyAll o.entries (Recorded.start base))).writes := by
  unfold sent
  rw [commit_single]
  cases applyAll o.entries (Recorded.start base) with
  | ok _ r => rfl
  | error e r => rfl

/-- A commit ends as the delivery of the buffered changes does. -/
theorem commit_eq_delivery (base : σ) (o : Overlay) :
    commit (⟨base, [o]⟩ : Layers σ) =
      match applyAll o.entries (Recorded.start base) with
      | .ok () r => .ok () (ofBase r.inner)
      | .error e r => .error e (ofBase r.inner) := by
  have hforget : SameResult (fun (r : Recorded σ) s => r.inner = s)
      (applyAll o.entries (.start base)) (applyAll o.entries base) :=
    Recorded.applyAll_forget o.entries rfl
  rw [commit_single]
  generalize applyAll o.entries (Recorded.start base) = p, applyAll o.entries base = q at hforget
  cases hforget with
  | ok _ hinner => rw [← hinner]
  | error e hinner => rw [← hinner]

theorem exists_commit_eq_ok_iff (base : σ) (o : Overlay) :
    (∃ t, commit (⟨base, [o]⟩ : Layers σ) = .ok () t) ↔
      ∃ r, applyAll o.entries (Recorded.start base) = .ok () r := by
  rw [commit_eq_delivery]
  cases applyAll o.entries (Recorded.start base) with
  | ok _ r => simp
  | error e r => simp

theorem exists_commit_eq_error_iff (base : σ) (o : Overlay) (e : LedgerError) :
    (∃ t, commit (⟨base, [o]⟩ : Layers σ) = .error e t) ↔
      ∃ r, applyAll o.entries (Recorded.start base) = .error e r := by
  rw [commit_eq_delivery]
  cases applyAll o.entries (Recorded.start base) with
  | ok _ r => simp
  | error e' r => simp

/-- The overlay is taken in any case. -/
theorem finalState_commit (base : σ) (o : Overlay) :
    finalState (commit (⟨base, [o]⟩ : Layers σ)) =
      ofBase (finalState (applyAll o.entries (Recorded.start base))).inner := by
  rw [commit_eq_delivery]
  cases applyAll o.entries (Recorded.start base) with
  | ok _ r => rfl
  | error e r => rfl

/-- What a commit does after a history of changes, which come down to the changes of a plan. -/
structure CommitDelivers (history : List Change) (base : σ) (plan : List Change) : Prop where
  /-- None of the changes is refused, and none of them reaches the ledger below. -/
  reached : applyAll history (ofBase base) = .ok () (buffered history base) ∧
    (buffered history base).base = base
  plan_last : LastChanges history plan
  /-- The ledger below receives the first ones of the planned changes, in their order. -/
  asked_first : (sent (buffered history base)).map WriteRecord.asked <+: plan
  /-- A change is sent only if all earlier ones were accepted. -/
  in_order : ∀ earlier w later, sent (buffered history base) = earlier ++ w :: later →
    ∀ v ∈ earlier, v.refusal = none
  ok_iff : (∃ t, commit (buffered history base) = .ok () t) ↔
    ∀ w ∈ sent (buffered history base), w.refusal = none
  error_iff : ∀ e, (∃ t, commit (buffered history base) = .error e t) ↔
    ∃ w ∈ sent (buffered history base), w.refusal = some e
  all_sent : (∃ t, commit (buffered history base) = .ok () t) →
    (sent (buffered history base)).map WriteRecord.asked = plan
  accepted_first : Recorded.accepted (sent (buffered history base)) <+: plan
  /-- If refused writes change nothing, then just the accepted ones show in the end. -/
  contents : ∀ V : View σ, V.contents (finalState (commit (buffered history base))).base =
    applied (V.contents base) (Recorded.accepted (sent (buffered history base)))
  emptied : (finalState (commit (buffered history base))).overlays = [∅]
  /-- Committing again does nothing. -/
  again : sent (finalState (commit (buffered history base))) = [] ∧
    commit (finalState (commit (buffered history base))) =
      .ok () (finalState (commit (buffered history base)))

/-- **Commits deliver in order up to the first refusal**, on whatever ledger. -/
theorem commit_delivers (history : List Change) (base : σ) :
    ∃ plan, CommitDelivers history base plan := by
  have hdelivery := Recorded.applyAll_delivery (Overlay.replay history).entries (.start base)
  have hstart : (Recorded.start base).writes = [] := rfl
  refine ⟨(Overlay.replay history).entries, ?_⟩
  exact {
    reached := by
      rw [buffered_eq, applyAll_ofBase]
      exact ⟨rfl, rfl⟩
    plan_last := Overlay.lastChanges_replay history
    asked_first := by
      rw [buffered_eq, sent_single]
      exact hdelivery.asked_first hstart
    in_order := by
      intro earlier w later hsplit
      rw [buffered_eq, sent_single] at hsplit
      exact hdelivery.in_order hstart hsplit
    ok_iff := by
      rw [buffered_eq, sent_single, exists_commit_eq_ok_iff]
      exact hdelivery.ok_iff hstart
    error_iff := by
      intro e
      rw [buffered_eq, sent_single, exists_commit_eq_error_iff]
      exact hdelivery.error_iff hstart e
    all_sent := by
      rw [buffered_eq, sent_single, exists_commit_eq_ok_iff]
      exact hdelivery.asked_of_ok hstart
    accepted_first := by
      rw [buffered_eq, sent_single]
      exact hdelivery.accepted_first hstart
    contents := by
      intro V
      rw [buffered_eq, sent_single, finalState_commit]
      exact ((Recorded.faithful_start V base).applyAll _).now
    emptied := by
      rw [buffered_eq, finalState_commit]
      rfl
    again := by
      rw [buffered_eq, finalState_commit]
      exact ⟨rfl, rfl⟩ }

end Layers

end LedgerSandbox
