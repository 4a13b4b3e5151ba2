import LedgerSandbox.Proofs.Ledger.Commit

/-!
# What an installation does

An installation ends at one of its six exits (`Registry.Installation`,
`Registry.install_cases`). At five of them the ledger has been read only. At the last one
the ledger is sent a list of changes: what the writes of the initializer come down to, and
then the module record.

What the initializer writes is defined by its run alone (`Registry.stagedRun`): the same
run on an overlay, with every write that the overlay receives recorded.
-/

namespace LedgerSandbox

variable {σ : Type} [Ledger σ]

/-! ## The exits of an installation -/

namespace Registry

variable {name : String} {bytecode : Bytes} {args : List Bytes} {s : Session σ}

/-- The session in which an initializer starts: an empty overlay over the ledger, which has
been asked for a record of the name. -/
def stagedStart (name : String) (s : Session σ) : Session (Recorded (Layers σ)) :=
  ⟨s.sandbox, .start (.ofBase (finalState (Ledger.get (recordBytes name) s.ledger)))⟩

/-- The run of an initializer, every write of it recorded. -/
def stagedRun (name : String) (bytecode : Bytes) (args : List Bytes) (s : Session σ) :
    EStateM.Result Failure (Session (Recorded (Layers σ))) Completion :=
  Session.invoke bytecode s.sandbox.config.initEntry { moduleName := name, args }
    (stagedStart name s)

/-- The writes that the initializer of a module issues when the module is installed. -/
def stagedWrites (name : String) (bytecode : Bytes) (args : List Bytes) (s : Session σ) :
    List Change :=
  (finalState (stagedRun name bytecode args s)).ledger.changes

/-- The changes that an installation means to make: what the writes of the initializer come
down to, and then the record. -/
def plannedChanges (name : String) (bytecode : Bytes) (args : List Bytes) (s : Session σ) :
    List Change :=
  (Overlay.replay (stagedWrites name bytecode args s)).entries ++ [(recordBytes name, some bytecode)]

/-- The run of an initializer has read the ledger, and issued its writes to the overlay. -/
theorem staged_stagedRun (name : String) (bytecode : Bytes) (args : List Bytes) (s : Session σ) :
    SameResult
      (SessionRel s.sandbox.config (Staged name s.sandbox.config.limits s.ledger))
      (stagedRun name bytecode args s)
      (Session.invoke bytecode s.sandbox.config.initEntry { moduleName := name, args }
        ⟨s.sandbox, .ofBase (finalState (Ledger.get (recordBytes name) s.ledger))⟩) := by
  exact Session.invoke_simulates bytecode _ { moduleName := name, args }
    (Staged.ledgerSim name s.sandbox.config.limits s.ledger)
    ⟨rfl, rfl, rfl, .get _ .refl, rfl, fun _ hc => absurd hc List.not_mem_nil⟩

/-- The session that a run on an overlay leaves, without the overlay. -/
def unstaged (t : Session (Recorded (Layers σ))) : Session σ := ⟨t.sandbox, t.ledger.inner.base⟩

/-- **Everything an installation can come to.** -/
inductive Installation (name : String) (bytecode : Bytes) (args : List Bytes) (s : Session σ) :
    EStateM.Result Failure (Session σ) Unit → Prop
  | badName (failure : Failure) : ModuleName.validate name = .error failure →
    Installation name bytecode args s (.error failure s)
  | unread (e : LedgerError) (l : σ) : ModuleName.Accepted name →
    Ledger.get (recordBytes name) s.ledger = .error e l →
    Installation name bytecode args s (.error (.ledger e) ⟨s.sandbox, l⟩)
  | taken (old : Value) (l : σ) : ModuleName.Accepted name →
    Ledger.get (recordBytes name) s.ledger = .ok (some old) l →
    Installation name bytecode args s (.error (.alreadyExists name) ⟨s.sandbox, l⟩)
  | failed (l : σ) (failure : Failure) (t : Session (Recorded (Layers σ))) :
    ModuleName.Accepted name → Ledger.get (recordBytes name) s.ledger = .ok none l →
    stagedRun name bytecode args s = .error failure t →
    Installation name bytecode args s (.error failure (unstaged t))
  | refused (l : σ) (completion : Completion) (t : Session (Recorded (Layers σ))) :
    ModuleName.Accepted name → Ledger.get (recordBytes name) s.ledger = .ok none l →
    stagedRun name bytecode args s = .ok completion t → completion.code ≠ 0 →
    Installation name bytecode args s (.error (.initFailed completion.code) (unstaged t))
  | sent (l : σ) (completion : Completion) (t : Session (Recorded (Layers σ))) :
    ModuleName.Accepted name → Ledger.get (recordBytes name) s.ledger = .ok none l →
    stagedRun name bytecode args s = .ok completion t → completion.code = 0 →
    Installation name bytecode args s
      (Session.onLedger (Layers.applyAll (plannedChanges name bytecode args s)) (unstaged t))

/-- Under an accepted name an installation looks for a record, runs the initializer and
puts the record. -/
theorem install_accepted (hname : ModuleName.Accepted name) (bytecode : Bytes) (args : List Bytes)
    (s : Session σ) :
    install name bytecode args s =
      match Ledger.get (recordBytes name) s.ledger with
      | .error e l => .error (.ledger e) ⟨s.sandbox, l⟩
      | .ok (some _) l => .error (.alreadyExists name) ⟨s.sandbox, l⟩
      | .ok none l =>
        match onOverlay (runInitializer name bytecode args) ⟨s.sandbox, l⟩ with
        | .error failure t => .error failure t
        | .ok () t => Session.onLedger (Ledger.put (recordBytes name) bytecode) t := by
  have hvalid : ModuleName.validate name = .ok () := hname
  have hkey : recordKey name = .ok (recordBytes name) := recordKey_of_accepted hname
  unfold install
  simp only [hvalid, findKey, hkey, pure_bind]
  rw [bind_apply, Session.onLedger]
  cases (Ledger.get (recordBytes name) s.ledger : EStateM.Result LedgerError σ _) with
  | error e l => rfl
  | ok found l =>
    cases found with
    | some old => rfl
    | none =>
      dsimp only
      rw [if_neg (by simp), bind_apply]
      cases onOverlay (runInitializer name bytecode args) (⟨s.sandbox, l⟩ : Session σ) with
      | ok _ t => rfl
      | error failure t => rfl

/-- A run on an overlay that gives 0 is followed by the commit of the overlay. -/
theorem onOverlay_runInitializer (name : String) (bytecode : Bytes) (args : List Bytes)
    (s : Session σ) :
    onOverlay (runInitializer name bytecode args) s =
      match Session.invoke bytecode s.sandbox.config.initEntry { moduleName := name, args }
          ⟨s.sandbox, .ofBase s.ledger⟩ with
      | .error failure t => .error failure ⟨t.sandbox, t.ledger.base⟩
      | .ok completion t =>
        if completion.code ≠ 0 then
          .error (.initFailed completion.code) ⟨t.sandbox, t.ledger.base⟩
        else match Layers.commit t.ledger with
          | .error e l => .error (.ledger e) ⟨t.sandbox, l.base⟩
          | .ok () l => .ok () ⟨t.sandbox, l.base⟩ := by
  unfold onOverlay runInitializer
  rw [bind_apply, get_apply]
  dsimp only
  rw [bind_apply]
  cases Session.invoke bytecode s.sandbox.config.initEntry { moduleName := name, args }
    (⟨s.sandbox, .ofBase s.ledger⟩ : Session (Layers σ)) with
  | error failure t => rfl
  | ok completion t =>
    dsimp only
    by_cases hcode : completion.code ≠ 0
    · rw [if_pos hcode, if_pos hcode]
      rfl
    · rw [if_neg hcode, if_neg hcode]
      unfold Session.onLedger
      cases Layers.commit t.ledger with
      | ok _ l => rfl
      | error e l => rfl

/-- A commit and the record after it are one list of changes. -/
theorem commit_put (o : Overlay) (key : Key) (bytecode : Bytes) (sandbox : Sandbox) (base : σ) :
    (match Layers.applyAll o.entries base with
      | .error e l => .error (.ledger e) ⟨sandbox, l⟩
      | .ok () l => Session.onLedger (Ledger.put key bytecode) ⟨sandbox, l⟩) =
      Session.onLedger (Layers.applyAll (o.entries ++ [(key, some bytecode)])) ⟨sandbox, base⟩ := by
  unfold Session.onLedger
  rw [Layers.applyAll_append, bind_apply]
  cases Layers.applyAll o.entries base with
  | error e l => rfl
  | ok _ l =>
    dsimp only
    rw [Layers.applyAll_singleton]
    rfl

theorem install_cases (name : String) (bytecode : Bytes) (args : List Bytes) (s : Session σ) :
    Installation name bytecode args s (install name bytecode args s) := by
  cases hvalid : ModuleName.validate name with
  | error failure =>
    unfold install
    rw [hvalid]
    exact .badName failure hvalid
  | ok _ =>
    have hname : ModuleName.Accepted name := hvalid
    rw [install_accepted hname]
    have hrun := staged_stagedRun name bytecode args s
    cases hget : (Ledger.get (recordBytes name) s.ledger : EStateM.Result LedgerError σ _) with
    | error e l => exact .unread e l hname hget
    | ok found l =>
      cases found with
      | some old => exact .taken old l hname hget
      | none =>
        rw [hget, finalState_ok] at hrun
        dsimp only
        rw [onOverlay_runInitializer]
        dsimp only
        -- From here on the run without a record is the recorded one.
        generalize hstaged : stagedRun name bytecode args s = r,
          Session.invoke bytecode s.sandbox.config.initEntry { moduleName := name, args }
            (⟨s.sandbox, .ofBase l⟩ : Session (Layers σ)) = r' at hrun
        cases hrun with
        | @error failure t t' rel =>
          obtain ⟨sandbox, ledger⟩ := t'
          obtain ⟨hsandbox, -, rfl, -, -, -⟩ := rel
          obtain rfl : t.sandbox = sandbox := hsandbox
          exact .failed l failure t hname hget hstaged
        | @ok completion t t' rel =>
          obtain ⟨sandbox, ledger⟩ := t'
          obtain ⟨hsandbox, -, rfl, -, hoverlays, -⟩ := rel
          obtain rfl : t.sandbox = sandbox := hsandbox
          by_cases hcode : completion.code ≠ 0
          · dsimp only
            rw [if_pos hcode]
            exact .refused l completion t hname hget hstaged hcode
          · -- A single overlay stands over the ledger, and it holds the plan but for the record.
            have hlayers : t.ledger.inner =
                ⟨t.ledger.inner.base, [Overlay.replay t.ledger.changes]⟩ := Layers.ext rfl hoverlays
            have hplan : plannedChanges name bytecode args s =
                (Overlay.replay t.ledger.changes).entries ++ [(recordBytes name, some bytecode)] := by
              rw [plannedChanges, stagedWrites, hstaged, finalState_ok]
            have hsent := Installation.sent l completion t hname hget hstaged (not_not.mp hcode)
            rw [hplan, unstaged, ← commit_put] at hsent
            dsimp only
            rw [if_neg hcode, hlayers, Layers.commit_single]
            generalize Layers.applyAll _ t.ledger.inner.base = r at hsent ⊢
            cases r with
            | ok _ l => exact hsent
            | error e l => exact hsent

/-- Up to the changes that an installation sends, it only reads. -/
theorem install_phases (name : String) (bytecode : Bytes) (args : List Bytes) (s : Session σ) :
    (∃ failure t, install name bytecode args s = .error failure t ∧ ReadOnly s.ledger t.ledger) ∨
      ∃ t, install name bytecode args s =
          Session.onLedger (Layers.applyAll (plannedChanges name bytecode args s)) t ∧
        ReadOnly s.ledger t.ledger ∧ ModuleName.Accepted name := by
  have hread : ReadOnly s.ledger (finalState (Ledger.get (recordBytes name) s.ledger)) :=
    .get _ .refl
  have hrun := (staged_stagedRun name bytecode args s).final.ledger
  have hbase := hrun.base
  rw [← hrun.inner] at hbase
  have hcases := install_cases name bytecode args s
  generalize install name bytecode args s = result at hcases ⊢
  cases hcases with
  | badName failure _ => exact .inl ⟨failure, s, rfl, .refl⟩
  | unread e l _ hget => exact .inl ⟨_, _, rfl, by rwa [hget] at hread⟩
  | taken old l _ hget => exact .inl ⟨_, _, rfl, by rwa [hget] at hread⟩
  | failed l failure t _ _ hstaged => exact .inl ⟨_, _, rfl, by rwa [hstaged] at hbase⟩
  | refused l completion t _ _ hstaged _ => exact .inl ⟨_, _, rfl, by rwa [hstaged] at hbase⟩
  | sent l completion t hname _ hstaged _ => exact .inr ⟨_, rfl, by rwa [hstaged] at hbase, hname⟩

/-- Recording the writes that a ledger receives does not change what an initializer
issues. -/
theorem stagedWrites_recorded (name : String) (bytecode : Bytes) (args : List Bytes)
    (s : Session σ) :
    stagedWrites name bytecode args s.recorded = stagedWrites name bytecode args s := by
  have sim := Recorded.ledgerSim_recordedRel
    (Recorded.ledgerSim_forget (σ := σ) name s.sandbox.config.limits).buffered
  have hstart : SessionRel s.sandbox.config (Recorded.RecordedRel (BufferedRel name
      s.sandbox.config.limits fun (r : Recorded σ) l => r.inner = l))
      (stagedStart name s.recorded) (stagedStart name s) := by
    refine ⟨rfl, rfl, rfl, rfl, fun o ho c hc => ?_, Recorded.inner_get _ _⟩
    rw [List.mem_singleton.mp ho] at hc
    exact absurd hc List.not_mem_nil
  exact (Session.invoke_simulates bytecode s.sandbox.config.initEntry
    { moduleName := name, args } sim hstart).final.ledger.changes

end Registry

end LedgerSandbox
