import LedgerSandbox.Proofs.Wasm.TypedStore
import LedgerSandbox.Wasm.Machine

/-!
# Machines that are well typed

A machine is well typed if everything in it is of the types that the checks have gone by
(`Machine.Typed`): the store, the variables and operands of the function that runs, and what each
waiting function expects of the one that it has called.

The operands of a function are those of its innermost block, on top of those that the blocks
around it have left aside. The checks know of the former only. So a place in code (`Place`) says
what lies below them, and a label says how the code around its block goes on with what lies there
(`LabelsTyped`).
-/

namespace LedgerSandbox.Wasm

/-! ## Code -/

/-- A place in the code of a function. -/
structure Place where
  locals : Array ValType
  /-- The results of the function. -/
  results : List ValType
  /-- The operands that a branch to each enclosing block carries, innermost first. -/
  labels : List (List ValType)
  /-- The operands outside of the innermost block. -/
  below : List Value

/-- The place within a block. -/
def Place.inside (p : Place) (carried : List ValType) (below : List Value) : Place :=
  { p with labels := carried :: p.labels, below }

/-- The place where the code of a function begins. -/
def Place.entry (locals : Array ValType) (results : List ValType) : Place :=
  ⟨locals, results, [results], []⟩

namespace Context

/-- What code at some place may refer to. -/
def atPlace (c : Context) (p : Place) : Context :=
  { c with locals := p.locals, labels := p.labels, results := p.results }

/-- Whether code ends its block with the given results, from some operands on. -/
def Accepts (c : Context) (ops : Operands) (code : Code) (results : List ValType) : Prop :=
  ∃ left, checkCode c ops code = .ok left ∧ left.finish results = .ok ()

variable {c : Context} {ops : Operands} {code : Code} {i : Instr} {results : List ValType}

theorem stacked_of_accepts_nil {vs : List Value} (h : c.Accepts (.ofValues vs) [] results) :
    Stacked results vs := by
  obtain ⟨left, hcheck, hfinish⟩ := h
  rw [checkCode] at hcheck
  cases hcheck
  exact Operands.finish_eq_ok_iff.mp hfinish

theorem accepts_cons_iff :
    c.Accepts ops (i :: code) results ↔
      ∃ next, i.check c ops = .ok next ∧ c.Accepts next code results := by
  unfold Accepts
  rw [checkCode]
  constructor
  · rintro ⟨left, hcheck, hfinish⟩
    obtain ⟨next, hi, hcheck⟩ := Except.bind_eq_ok_iff.mp hcheck
    exact ⟨next, hi, left, hcheck, hfinish⟩
  · rintro ⟨next, hi, left, hcheck, hfinish⟩
    exact ⟨left, Except.bind_eq_ok_iff.mpr ⟨next, hi, hcheck⟩, hfinish⟩

end Context

open Operands (ofValues)

/-- Whether the labels around a block fit the place within it, if the block gives the given
results. -/
inductive LabelsTyped (c : Context) : Place → List Label → List ValType → Prop
  | function {locals : Array ValType} {results : List ValType} :
    LabelsTyped c (.entry locals results) [] results
  | block {p : Place} {vs : List Value} {carried results ends : List ValType} {target after : Code}
    {labels : List Label} :
    (c.atPlace p).Accepts ((ofValues vs).pushMany carried) target ends →
    (c.atPlace p).Accepts ((ofValues vs).pushMany results) after ends →
    LabelsTyped c p labels ends →
    LabelsTyped c (p.inside carried (vs ++ p.below))
      (⟨carried.length, vs ++ p.below, target, after⟩ :: labels) results

/-! ## Functions that run -/

/-- Whether a function that runs goes on well with the given operands of its innermost block. -/
structure Frame.Awaits (c : Context) (p : Place) (ops : Operands) (frame : Frame) : Prop where
  locals : frame.locals.map Value.type = p.locals
  arity : frame.arity = p.results.length
  code : ∃ ends, (c.atPlace p).Accepts ops frame.code ends ∧ LabelsTyped c p frame.labels ends

/-- Whether functions that wait go on well when a call of the innermost gives the given results,
and the outermost ends with results of the types `ends`. -/
inductive CallersTyped (c : Context) (ends : List ValType) : List ValType → List Frame → Prop
  | nil : CallersTyped c ends ends []
  | cons {p : Place} {rest : List Value} {results : List ValType} {caller : Frame}
    {callers : List Frame} :
    caller.stack = rest ++ p.below → caller.Awaits c p ((ofValues rest).pushMany results) →
    CallersTyped c ends p.results callers → CallersTyped c ends results (caller :: callers)

/-! ## Machines -/

/-- Whether the code of a function is accepted. -/
inductive Function.Typed (c : Context) : Function → Prop
  | imported (slot : Nat) (type : FuncType) : Typed c (.imported slot type)
  | defined {type : FuncType} {locals : List Value} {code : Code} :
    (c.atPlace (.entry (type.params ++ locals.map Value.type).toArray type.results)).Accepts
      (ofValues []) code type.results →
    Typed c (.defined type locals code)

/-- Whether functions are as they are declared. -/
structure FunctionsTyped (c : Context) (functions : Array Function) : Prop where
  declared : ∀ (index : Nat) (f : Function), functions[index]? = some f →
    c.functions[index]? = some f.type
  typed : ∀ f ∈ functions, f.Typed c

/-- What a machine is to go by: the functions of an instance, which have been accepted, and the
results that the first of them to be called has to give. -/
structure Setting where
  context : Context
  functions : Array Function
  typed : FunctionsTyped context functions
  ends : List ValType

/-- Whether a machine goes on well with the given operands of the innermost block. -/
structure Machine.Ready (w : Setting) (p : Place) (ops : Operands) (m : Machine) : Prop where
  functions : m.functions = w.functions
  store : m.store.Typed w.context
  frame : m.frame.Awaits w.context p ops
  callers : CallersTyped w.context w.ends p.results m.callers

theorem Machine.Ready.withStack {w : Setting} {p : Place} {ops : Operands} {m : Machine}
    (h : m.Ready w p ops) (stack : List Value) : (m.withStack stack).Ready w p ops :=
  ⟨h.functions, h.store, ⟨h.frame.locals, h.frame.arity, h.frame.code⟩, h.callers⟩

/-- Whether a machine is well typed. -/
def Machine.Typed (w : Setting) (m : Machine) : Prop :=
  ∃ (p : Place) (vs : List Value), m.frame.stack = vs ++ p.below ∧ m.Ready w p (ofValues vs)

/-- Whether an event is one of a well-typed machine: it is one still, it is one when the host has
answered a call with results of the declared types, or its first function has given the results
that it has to give. -/
inductive Event.Typed (w : Setting) : Event → Prop
  | running {m : Machine} : m.Typed w → Typed w (.running m)
  | calling {slot : Nat} {args : List Value} {m : Machine} {type : FuncType} :
    .imported slot type ∈ w.functions →
    (∀ results memory, results.map Value.type = type.results →
      (Machine.resume { m with store := { m.store with memory } } results).Typed w) →
    Typed w (.calling slot args m)
  | finished {results : List Value} {store : Store} : results.map Value.type = w.ends →
    store.Typed w.context → Typed w (.finished results store)
  | trapped (trap : Trap) : Typed w (.trapped trap)

end LedgerSandbox.Wasm
