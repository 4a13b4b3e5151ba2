import LedgerSandbox.Proofs.Wasm.Instructions

/-!
# Soundness of the checks

Every step of a well-typed machine leaves a well-typed one (`Machine.typed_step`), and so a run
gives results of the types that its first function declares (`run_results_typed`). This holds
whatever the host does, as long as it answers calls with results of the declared types
(`Host.Typed`).
-/

namespace LedgerSandbox.Wasm

open Operands (ofValues pushMany_ofValues)

variable {w : Setting} {p : Place} {ops : Operands}

/-! ## Labels -/

/-- The label that a branch goes to carries what the checks say, and goes on with it. A branch to
the function itself finds no label. -/
theorem LabelsTyped.drop {c : Context} {labels : List Label} {results types : List ValType}
    {depth : Nat} (h : LabelsTyped c p labels results) (htypes : p.labels[depth]? = some types) :
    (labels.drop depth = [] ∧ types = p.results) ∨
      ∃ (q : Place) (vs : List Value) (target after : Code) (outer : List Label)
        (ends : List ValType),
        labels.drop depth = ⟨types.length, vs ++ q.below, target, after⟩ :: outer ∧
        q.locals = p.locals ∧ q.results = p.results ∧
        (c.atPlace q).Accepts ((ofValues vs).pushMany types) target ends ∧
        LabelsTyped c q outer ends := by
  induction h generalizing depth with
  | @function locals results =>
    cases depth with
    | zero => exact .inl ⟨rfl, (Option.some.inj htypes).symm⟩
    | succ depth => cases htypes
  | @block p vs carried results ends target after labels htarget hafter hlabels ih =>
    cases depth with
    | zero =>
      cases htypes
      exact .inr ⟨p, vs, target, after, labels, ends, rfl, rfl, rfl, htarget, hlabels⟩
    | succ depth => exact ih htypes

namespace Machine

variable {m : Machine} {vs taken rest : List Value}

theorem typed_proceed {x : Except Trap Machine} (h : Keeps w x) :
    (proceed x).Typed w := by
  cases x with
  | ok m => exact .running (h m rfl)
  | error trap => exact .trapped trap

/-! ## Blocks -/

/-- A function returns with its results on top. -/
theorem typed_leaveFunction (h : m.Ready w p ops) (hstack : m.frame.stack = taken ++ rest)
    (htaken : Stacked p.results taken) : m.leaveFunction.Typed w := by
  have htake : m.frame.stack.take m.frame.arity = taken := by
    rw [h.frame.arity, ← htaken.length_eq, hstack, List.take_left]
  have hcallers := h.callers
  unfold leaveFunction
  rw [htake]
  dsimp only
  generalize m.callers = callers, p.results = results, hends : w.ends = ends at hcallers htaken
  cases hcallers with
  | nil =>
    refine .finished ?_ h.store
    rw [List.map_reverse, htaken, List.reverse_reverse, hends]
  | @cons q below _ caller callers hcaller hawaits hcallers =>
    rw [pushMany_ofValues htaken] at hawaits
    rw [← hends] at hcallers
    refine .running ⟨q, taken ++ below, ?_, h.functions, h.store, ⟨hawaits.locals, hawaits.arity,
      hawaits.code⟩, hcallers⟩
    show taken ++ caller.stack = taken ++ below ++ q.below
    rw [hcaller, List.append_assoc]

/-- At the end of a block, the code around it goes on with its results. -/
theorem typed_leaveBlock (h : m.Ready w p (ofValues vs))
    (hstack : m.frame.stack = vs ++ p.below) (hcode : m.frame.code = []) :
    m.leaveBlock.Typed w := by
  obtain ⟨results, haccepts, hlabels⟩ := h.frame.code
  rw [hcode] at haccepts
  have hvs : Stacked results vs := Context.stacked_of_accepts_nil haccepts
  unfold leaveBlock
  generalize m.frame.labels = labels at hlabels
  cases hlabels with
  | function => exact typed_leaveFunction h hstack hvs
  | @block q below _ _ ends' target after labels htarget hafter hlabels =>
    rw [pushMany_ofValues hvs] at hafter
    refine .running ⟨q, vs ++ below, ?_, h.functions, h.store,
      ⟨h.frame.locals, h.frame.arity, ends', hafter, hlabels⟩, h.callers⟩
    show m.frame.stack = vs ++ below ++ q.below
    rw [hstack, List.append_assoc]
    rfl

theorem typed_branch {types : List ValType} {depth : Nat} (h : m.Ready w p ops)
    (htypes : p.labels[depth]? = some types) (hstack : m.frame.stack = taken ++ rest)
    (htaken : Stacked types taken) : (m.branch depth).Typed w := by
  obtain ⟨results, -, hlabels⟩ := h.frame.code
  unfold branch
  rcases hlabels.drop htypes with
    ⟨hdrop, rfl⟩ | ⟨q, vs, target, after, outer, ends', hdrop, hlocals, hresults, htarget, houter⟩
  · rw [hdrop]
    exact typed_leaveFunction h hstack htaken
  · rw [pushMany_ofValues htaken] at htarget
    rw [hdrop]
    refine .running ⟨q, taken ++ vs, ?_, h.functions, h.store,
      ⟨hlocals ▸ h.frame.locals, hresults ▸ h.frame.arity, ends', htarget, houter⟩,
      hresults ▸ h.callers⟩
    show m.frame.stack.take types.length ++ (vs ++ q.below) = taken ++ vs ++ q.below
    rw [hstack, ← htaken.length_eq, List.take_left, List.append_assoc]

/-- A block is entered with its parameters on top. What a branch to it does next has to be
accepted where the code around it is. -/
theorem typed_enter {params results carried : List ValType} {target body : Code}
    (h : m.Ready w p ((ofValues rest).pushMany results))
    (hstack : m.frame.stack = taken ++ rest ++ p.below) (htaken : Stacked params taken)
    (hbody : (w.context.atPlace (p.inside carried (rest ++ p.below))).Accepts (.ofTypes params)
      body results)
    (htarget : ∀ ends,
      (w.context.atPlace p).Accepts ((ofValues rest).pushMany results) m.frame.code ends →
      (w.context.atPlace p).Accepts ((ofValues rest).pushMany carried) target ends) :
    (m.enter params.length carried.length target body).Typed w := by
  obtain ⟨ends', hafter, hlabels⟩ := h.frame.code
  have hbelow : m.frame.stack.drop params.length = rest ++ p.below := by
    rw [hstack, ← htaken.length_eq, List.append_assoc, List.drop_left]
  rw [Operands.ofTypes_eq htaken] at hbody
  unfold enter
  rw [hbelow]
  refine ⟨p.inside carried (rest ++ p.below), taken, ?_, h.functions, h.store,
    ⟨h.frame.locals, h.frame.arity, results, hbody, .block (htarget ends' hafter) hafter hlabels⟩,
    h.callers⟩
  show m.frame.stack = taken ++ (rest ++ p.below)
  rw [hstack, List.append_assoc]

/-! ## Calls -/

theorem typed_call {f : Function} (h : m.Ready w p ((ofValues rest).pushMany f.type.results))
    (hf : f ∈ w.functions) (hstack : m.frame.stack = taken ++ rest ++ p.below)
    (htaken : Stacked f.type.params taken) : (m.call f).Typed w := by
  have hbelow : m.frame.stack.drop f.type.params.length = rest ++ p.below := by
    rw [hstack, ← htaken.length_eq, List.append_assoc, List.drop_left]
  have hargs : m.frame.stack.take f.type.params.length = taken := by
    rw [hstack, ← htaken.length_eq, List.append_assoc, List.take_left]
  unfold call
  dsimp only
  rw [hbelow, hargs]
  cases f with
  | imported slot type =>
    refine .calling hf fun results memory hresults => ?_
    have hstacked : Stacked type.results results.reverse := by
      rw [Stacked, List.map_reverse, hresults]
    have hawaits : m.frame.Awaits w.context p (ofValues (results.reverse ++ rest)) := by
      rw [← pushMany_ofValues hstacked]
      exact h.frame
    refine ⟨p, results.reverse ++ rest, ?_, h.functions, h.store.withBytes memory m.store.data,
      ⟨hawaits.locals, hawaits.arity, hawaits.code⟩, h.callers⟩
    show results.reverse ++ (rest ++ p.below) = results.reverse ++ rest ++ p.below
    rw [List.append_assoc]
  | defined type locals code =>
    dsimp only
    split
    case isTrue => exact .trapped _
    case isFalse =>
      have hlocals : (taken.reverse ++ locals).toArray.map Value.type =
          (type.params ++ locals.map Value.type).toArray := by
        rw [List.map_toArray, List.map_append, List.map_reverse, htaken, List.reverse_reverse]
        rfl
      cases w.typed.typed _ hf with
      | defined hcode =>
        exact .running ⟨.entry (type.params ++ locals.map Value.type).toArray type.results, [], rfl,
          h.functions, h.store, ⟨hlocals, rfl, type.results, hcode, .function⟩,
          .cons rfl (h.withStack _).frame h.callers⟩

/-! ## Instructions -/

theorem typed_callIndex {index : Nat} (h : m.Ready w p ops)
    (hstack : m.frame.stack = vs ++ p.below)
    (hcheck : (Instr.call index).check (w.context.atPlace p) (ofValues vs) = .ok ops) :
    (m.callIndex index).Typed w := by
  obtain ⟨type, hitem, happly⟩ := Except.bind_eq_ok_iff.mp hcheck
  obtain ⟨taken, rest, rfl, htaken, rfl⟩ := Operands.apply_eq_ok_iff.mp happly
  unfold callIndex
  rw [h.functions]
  split
  case h_1 f hf =>
    have hdeclared : itemAt w.context.functions index = .ok f.type :=
      itemAt_eq_ok_iff.mpr (w.typed.declared index f hf)
    cases hdeclared.symm.trans hitem
    exact typed_call h (Array.mem_of_getElem? hf) hstack htaken
  case h_2 => exact .trapped _

/-- The type of a function that is called by reference is looked at when it is called. -/
theorem typed_callIndirect {type : FuncType} {table : Nat} (h : m.Ready w p ops)
    (hstack : m.frame.stack = vs ++ p.below)
    (hcheck : (Instr.callIndirect type table).check (w.context.atPlace p) (ofValues vs) = .ok ops) :
    (m.callIndirect type table).Typed w := by
  obtain ⟨_, -, htail⟩ := Except.bind_eq_ok_iff.mp hcheck
  split at htail
  case isTrue => cases htail
  case isFalse =>
    obtain ⟨_, hpop, happly⟩ := Except.bind_eq_ok_iff.mp htail
    obtain ⟨element, _, rfl, helement, rfl⟩ := Operands.pop_eq_ok_iff.mp hpop
    obtain ⟨element, rfl⟩ := Value.exists_i32 helement
    obtain ⟨taken, rest, rfl, htaken, rfl⟩ := Operands.apply_eq_ok_iff.mp happly
    unfold callIndirect
    rw [hstack, h.functions]
    dsimp only [List.cons_append]
    split
    case h_1 => exact .trapped _
    case h_2 =>
      split
      case h_1 f hf =>
        split
        case isTrue htype =>
          cases htype
          exact typed_call (h.withStack _) (Array.mem_of_getElem? hf) rfl htaken
        case isFalse => exact .trapped _
      case h_2 => exact .trapped _
    case h_3 => exact .trapped _

theorem typed_block {type : FuncType} {body : Code} (h : m.Ready w p ops)
    (hstack : m.frame.stack = vs ++ p.below)
    (hcheck : (Instr.block type body).check (w.context.atPlace p) (ofValues vs) = .ok ops) :
    (m.exec (.block type body)).Typed w := by
  obtain ⟨_, -, htail⟩ := Except.bind_eq_ok_iff.mp hcheck
  obtain ⟨_, hparams, htail⟩ := Except.bind_eq_ok_iff.mp htail
  obtain ⟨taken, rest, rfl, htaken, rfl⟩ := Operands.popMany_eq_ok_iff.mp hparams
  obtain ⟨left, hbody, htail⟩ := Except.bind_eq_ok_iff.mp htail
  obtain ⟨_, hfinish, hops⟩ := Except.bind_eq_ok_iff.mp htail
  cases hops
  exact .running (typed_enter h hstack htaken ⟨left, hbody, hfinish⟩ fun _ => id)

/-- A branch to a loop finds the operands that the loop was entered with, so it can do the loop
again. -/
theorem typed_loop {type : FuncType} {body : Code} (h : m.Ready w p ops)
    (hstack : m.frame.stack = vs ++ p.below)
    (hcheck : (Instr.loop type body).check (w.context.atPlace p) (ofValues vs) = .ok ops) :
    (m.exec (.loop type body)).Typed w := by
  obtain ⟨_, -, htail⟩ := Except.bind_eq_ok_iff.mp hcheck
  obtain ⟨_, hparams, htail⟩ := Except.bind_eq_ok_iff.mp htail
  obtain ⟨taken, rest, rfl, htaken, rfl⟩ := Operands.popMany_eq_ok_iff.mp hparams
  obtain ⟨left, hbody, htail⟩ := Except.bind_eq_ok_iff.mp htail
  obtain ⟨_, hfinish, hops⟩ := Except.bind_eq_ok_iff.mp htail
  cases hops
  refine .running (typed_enter h hstack htaken ⟨left, hbody, hfinish⟩ fun _ hafter => ?_)
  rw [pushMany_ofValues htaken]
  exact Context.accepts_cons_iff.mpr ⟨_, hcheck, hafter⟩

theorem typed_ifElse {type : FuncType} {yes no : Code} (h : m.Ready w p ops)
    (hstack : m.frame.stack = vs ++ p.below)
    (hcheck : (Instr.ifElse type yes no).check (w.context.atPlace p) (ofValues vs) = .ok ops) :
    (m.exec (.ifElse type yes no)).Typed w := by
  obtain ⟨_, -, htail⟩ := Except.bind_eq_ok_iff.mp hcheck
  obtain ⟨_, hpop, hblock⟩ := Except.bind_eq_ok_iff.mp htail
  obtain ⟨condition, _, rfl, hcondition, rfl⟩ := Operands.pop_eq_ok_iff.mp hpop
  obtain ⟨condition, rfl⟩ := Value.exists_i32 hcondition
  obtain ⟨_, hparams, hblock⟩ := Except.bind_eq_ok_iff.mp hblock
  obtain ⟨taken, rest, rfl, htaken, rfl⟩ := Operands.popMany_eq_ok_iff.mp hparams
  obtain ⟨left, hyes, hblock⟩ := Except.bind_eq_ok_iff.mp hblock
  obtain ⟨_, hyesFinish, hblock⟩ := Except.bind_eq_ok_iff.mp hblock
  obtain ⟨left', hno, hblock⟩ := Except.bind_eq_ok_iff.mp hblock
  obtain ⟨_, hnoFinish, hops⟩ := Except.bind_eq_ok_iff.mp hblock
  cases hops
  have hchosen : (w.context.atPlace (p.inside type.results (rest ++ p.below))).Accepts
      (.ofTypes type.params) (if condition ≠ 0 then yes else no) type.results := by
    split
    · exact ⟨left, hyes, hyesFinish⟩
    · exact ⟨left', hno, hnoFinish⟩
  unfold exec
  dsimp only
  rw [hstack]
  exact .running (typed_enter (h.withStack _) rfl htaken hchosen fun _ => id)

theorem label_eq_ok_iff {depth : Nat} {types : List ValType} :
    (w.context.atPlace p).label depth = .ok types ↔ p.labels[depth]? = some types := by
  have hlabels : (w.context.atPlace p).labels[depth]? = p.labels[depth]? := rfl
  unfold Context.label
  rw [hlabels]
  cases p.labels[depth]? with
  | none => exact iff_of_false nofun nofun
  | some found => exact ⟨fun h => congrArg some (Except.ok.inj h), fun h => by cases h; rfl⟩

theorem typed_br {depth : Nat} (h : m.Ready w p ops) (hstack : m.frame.stack = vs ++ p.below)
    (hcheck : (Instr.br depth).check (w.context.atPlace p) (ofValues vs) = .ok ops) :
    (m.exec (.br depth)).Typed w := by
  obtain ⟨types, hlabel, htail⟩ := Except.bind_eq_ok_iff.mp hcheck
  obtain ⟨_, hpop, -⟩ := Except.bind_eq_ok_iff.mp htail
  obtain ⟨taken, rest, rfl, htaken, -⟩ := Operands.popMany_eq_ok_iff.mp hpop
  rw [List.append_assoc] at hstack
  exact typed_branch h (label_eq_ok_iff.mp hlabel) hstack htaken

theorem typed_brIf {depth : Nat} (h : m.Ready w p ops)
    (hstack : m.frame.stack = vs ++ p.below)
    (hcheck : (Instr.brIf depth).check (w.context.atPlace p) (ofValues vs) = .ok ops) :
    (m.exec (.brIf depth)).Typed w := by
  obtain ⟨types, hlabel, htail⟩ := Except.bind_eq_ok_iff.mp hcheck
  obtain ⟨_, hpop, happly⟩ := Except.bind_eq_ok_iff.mp htail
  obtain ⟨condition, _, rfl, hcondition, rfl⟩ := Operands.pop_eq_ok_iff.mp hpop
  obtain ⟨condition, rfl⟩ := Value.exists_i32 hcondition
  obtain ⟨taken, rest, rfl, htaken, rfl⟩ := Operands.apply_eq_ok_iff.mp happly
  unfold exec
  dsimp only
  rw [hstack]
  dsimp only [List.cons_append]
  split
  case isTrue =>
    exact typed_branch (h.withStack _) (label_eq_ok_iff.mp hlabel) (List.append_assoc ..) htaken
  case isFalse =>
    rw [pushMany_ofValues htaken] at h
    exact .running h.typed_withStack

theorem typed_brTable {depths : List Nat} {default : Nat} (h : m.Ready w p ops)
    (hstack : m.frame.stack = vs ++ p.below)
    (hcheck : (Instr.brTable depths default).check (w.context.atPlace p) (ofValues vs) = .ok ops) :
    (m.exec (.brTable depths default)).Typed w := by
  obtain ⟨_, hpop, htail⟩ := Except.bind_eq_ok_iff.mp hcheck
  obtain ⟨index, rest, rfl, hindex, rfl⟩ := Operands.pop_eq_ok_iff.mp hpop
  obtain ⟨index, rfl⟩ := Value.exists_i32 hindex
  obtain ⟨types, hdefault, htail⟩ := Except.bind_eq_ok_iff.mp htail
  obtain ⟨_, hdepths, htail⟩ := Except.bind_eq_ok_iff.mp htail
  obtain ⟨_, htypes, -⟩ := Except.bind_eq_ok_iff.mp htail
  -- Whichever depth is chosen, there are the operands that its label carries.
  have hchosen : ∃ others left,
      (w.context.atPlace p).label (depths[index.toNat]?.getD default) = .ok others ∧
      (ofValues rest).popMany others = .ok left := by
    cases hdepth : depths[index.toNat]? with
    | none => exact ⟨types, _, hdefault, htypes⟩
    | some depth =>
      obtain ⟨others, hlabel, hfits⟩ :=
        Except.bind_eq_ok_iff.mp (Except.forM_eq_ok_iff.mp hdepths _ (List.mem_of_getElem? hdepth))
      split at hfits
      case isTrue => cases hfits
      case isFalse =>
        obtain ⟨left, hleft, -⟩ := Except.bind_eq_ok_iff.mp hfits
        exact ⟨others, left, hlabel, hleft⟩
  obtain ⟨others, left, hlabel, hleft⟩ := hchosen
  obtain ⟨taken, below, rfl, htaken, -⟩ := Operands.popMany_eq_ok_iff.mp hleft
  unfold exec
  dsimp only
  rw [hstack]
  exact typed_branch (h.withStack _) (label_eq_ok_iff.mp hlabel) (List.append_assoc ..) htaken

theorem typed_ret (h : m.Ready w p ops) (hstack : m.frame.stack = vs ++ p.below)
    (hcheck : Instr.ret.check (w.context.atPlace p) (ofValues vs) = .ok ops) :
    (m.exec .ret).Typed w := by
  obtain ⟨_, hpop, -⟩ := Except.bind_eq_ok_iff.mp hcheck
  obtain ⟨taken, rest, rfl, htaken, -⟩ := Operands.popMany_eq_ok_iff.mp hpop
  rw [List.append_assoc] at hstack
  exact typed_leaveFunction h hstack htaken

/-- Instructions that are accepted leave a well-typed machine. -/
theorem typed_exec {i : Instr} (h : m.Ready w p ops) (hstack : m.frame.stack = vs ++ p.below)
    (hcheck : i.check (w.context.atPlace p) (ofValues vs) = .ok ops) : (m.exec i).Typed w := by
  cases i with
  | unreachable => exact .trapped _
  | block type body => exact typed_block h hstack hcheck
  | loop type body => exact typed_loop h hstack hcheck
  | ifElse type yes no => exact typed_ifElse h hstack hcheck
  | br depth => exact typed_br h hstack hcheck
  | brIf depth => exact typed_brIf h hstack hcheck
  | brTable depths default => exact typed_brTable h hstack hcheck
  | ret => exact typed_ret h hstack hcheck
  | call index => exact typed_callIndex h hstack hcheck
  | callIndirect type table => exact typed_callIndirect h hstack hcheck
  | localGet | localSet | localTee | globalGet | globalSet =>
    exact typed_proceed (keeps_onVariables hstack h _ hcheck)
  | load | store | memorySize | memoryGrow | memoryInit | dataDrop | memoryCopy | memoryFill =>
    exact typed_proceed (keeps_onMemory hstack h _ hcheck)
  | tableGet | tableSet | tableInit | elemDrop | tableCopy | tableGrow | tableSize | tableFill =>
    exact typed_proceed (keeps_onTables hstack h _ hcheck)
  | const | unary | binary | drop | select | selectOf | refNull | refIsNull | refFunc | nop =>
    exact typed_proceed (keeps_onOperands hstack h _ hcheck)

/-- **One step of a well-typed machine leaves a well-typed one**, if it does not trap. -/
theorem typed_step (h : m.Typed w) : m.step.Typed w := by
  obtain ⟨p, vs, hstack, h⟩ := h
  unfold step
  split
  case h_1 hcode => exact typed_leaveBlock h hstack hcode
  case h_2 i code hcode =>
    obtain ⟨results, haccepts, hlabels⟩ := h.frame.code
    rw [hcode] at haccepts
    obtain ⟨next, hcheck, hrest⟩ := Context.accepts_cons_iff.mp haccepts
    have hready : Machine.Ready w p next { m with frame := { m.frame with code } } :=
      ⟨h.functions, h.store, ⟨h.frame.locals, h.frame.arity, results, hrest, hlabels⟩, h.callers⟩
    exact typed_exec hready hstack hcheck

end Machine

/-! ## Runs -/

/-- Whether a host answers the calls of functions with results of the declared types. -/
def Host.Typed {σ : Type} (functions : Array Function) (host : Host σ) : Prop :=
  ∀ slot type, .imported slot type ∈ functions → ∀ args memory s,
    (host slot args memory s).1.1.map Value.type = type.results

/-- **A run gives results of the declared types**, and leaves a store that holds what is
declared. -/
theorem run_typed {σ : Type} {host : Host σ} (hhost : host.Typed w.functions)
    {budget left : Nat} {m : Machine} {s s' : σ} {results : List Value} {store : Store}
    (h : m.Typed w) (hrun : run host budget m s = (.finished results store left, s')) :
    results.map Value.type = w.ends ∧ store.Typed w.context := by
  induction budget generalizing m s with
  | zero => cases hrun
  | succ budget ih =>
    have hstep := Machine.typed_step h
    unfold run at hrun
    cases hevent : m.step with
    | running m' =>
      rw [hevent] at hrun hstep
      cases hstep with
      | running h' => exact ih h' hrun
    | calling slot args m' =>
      rw [hevent] at hrun hstep
      cases hstep with
      | calling himported hanswered =>
        exact ih (hanswered _ _ (hhost slot _ himported args m'.store.memory s)) hrun
    | finished results' store' =>
      rw [hevent] at hrun hstep
      cases hrun
      cases hstep with
      | finished hresults hstore => exact ⟨hresults, hstore⟩
    | trapped trap =>
      rw [hevent] at hrun
      cases hrun

/-- A machine is well typed that is about to call a function with arguments of its types. -/
theorem Machine.typed_start {store : Store} {index : Nat} {f : Function} {args : List Value}
    (hstore : store.Typed w.context) (hf : w.functions[index]? = some f)
    (hargs : args.map Value.type = f.type.params) (hends : w.ends = f.type.results) :
    (start w.functions store index args).Typed w := by
  have hstacked : Stacked f.type.params args.reverse := by
    rw [Stacked, List.map_reverse, hargs]
  have hcheck : (Instr.call index).check (w.context.atPlace (.entry #[] f.type.results))
      (ofValues args.reverse) = .ok ((ofValues []).pushMany f.type.results) := by
    refine Except.bind_eq_ok_iff.mpr ⟨f.type, itemAt_eq_ok_iff.mpr (w.typed.declared index f hf), ?_⟩
    exact Operands.apply_eq_ok_iff.mpr
      ⟨args.reverse, [], (List.append_nil _).symm, hstacked, rfl⟩
  have hcode : (w.context.atPlace (.entry #[] f.type.results)).Accepts (ofValues args.reverse)
      [.call index] f.type.results :=
    Context.accepts_cons_iff.mpr ⟨_, hcheck, _, rfl, Operands.finish_pushMany f.type.results⟩
  have harity : ((w.functions[index]?.map (·.type.results.length)).getD 0) =
      f.type.results.length := by
    rw [hf]
    rfl
  exact ⟨.entry #[] f.type.results, args.reverse, (List.append_nil _).symm, rfl, hstore,
    ⟨Array.map_empty, harity, _, hcode, .function⟩, hends ▸ .nil⟩

end LedgerSandbox.Wasm
