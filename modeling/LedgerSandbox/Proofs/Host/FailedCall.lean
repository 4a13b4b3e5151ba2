import LedgerSandbox.Proofs.Host.Outcome
import LedgerSandbox.Proofs.Ledger.Dependable

/-!
# Host calls that fail

A host call that fails leaves no trace. A call can fail at many points: when an argument is
read, a range of memory, a limit, the ledger, and last when the answer is copied out. At none
of them has anything changed yet (`HostFunction.Fails.untouched`).

The ledger is one whose refused writes change nothing. Reads may do to it what they like as
long as it does not show: `Observer` says what is looked at.

So a guest can act on the code that it gets (`HostFunction.failed_call_no_effect`): −1 says
that one of the listed reasons applied and that nothing has happened, and any other code is
not negative and says that the call was served.
-/

namespace LedgerSandbox

variable {σ α : Type}

/-! ## Arguments -/

namespace GuestMemory

theorem argument?_eq_none_iff {value : Wasm.Value} (h : value.type.isInteger) :
    argument? value = none ↔ ∃ word : UInt64, value = .i64 word ∧ 2 ^ 32 ≤ word.toNat := by
  cases value with
  | i32 word => simp [argument?]
  | i64 word =>
    have hbound : word ≤ 0xFFFFFFFF ↔ word.toNat < 2 ^ 32 := by
      rw [UInt64.le_iff_toNat_le]
      exact Nat.lt_succ_iff.symm
    simp [argument?, hbound]
  | f32 | f64 | v128 | funcref | externref => cases h

theorem mapM_argument?_eq_none_iff {args : List Wasm.Value} :
    args.mapM argument? = none ↔ ∃ value ∈ args, argument? value = none := by
  induction args with
  | nil => simp
  | cons value rest ih =>
    simp only [List.mapM_cons, List.mem_cons, exists_eq_or_imp, ← ih]
    cases argument? value with
    | none => simp
    | some word => cases rest.mapM argument? <;> simp

/-- Integers can be read as arguments unless one of them takes more than 32 bits. -/
theorem mapM_argument?_eq_none_iff_exists_wide {args : List Wasm.Value}
    (hintegers : ∀ value ∈ args, value.type.isInteger) :
    args.mapM argument? = none ↔
      ∃ word : UInt64, .i64 word ∈ args ∧ 2 ^ 32 ≤ word.toNat := by
  rw [mapM_argument?_eq_none_iff]
  constructor
  · rintro ⟨value, hvalue, hnone⟩
    obtain ⟨word, rfl, hword⟩ := (argument?_eq_none_iff (hintegers value hvalue)).mp hnone
    exact ⟨word, hvalue, hword⟩
  · rintro ⟨word, hmem, hword⟩
    exact ⟨.i64 word, hmem, (argument?_eq_none_iff (hintegers _ hmem)).mpr ⟨word, rfl, hword⟩⟩

theorem length_of_mapM_argument? {args : List Wasm.Value} {words : List UInt32}
    (h : args.mapM argument? = some words) : words.length = args.length := by
  induction args generalizing words with
  | nil =>
    cases h
    rfl
  | cons value rest ih =>
    rw [List.mapM_cons] at h
    obtain ⟨word, -, htail⟩ := Option.bind_eq_some_iff.mp h
    obtain ⟨more, hmore, hwords⟩ := Option.bind_eq_some_iff.mp htail
    obtain rfl : word :: more = words := Option.some.inj hwords
    rw [List.length_cons, List.length_cons, ih hmore]

end GuestMemory

variable [Ledger σ]

/-! ## Nothing has changed -/

namespace Caller

/-- Whether a guest and its host are as they were before, as far as one can observe. -/
structure Untouched (o : Observer σ α) (before after : Caller σ) : Prop where
  memory : after.memory = before.memory
  ledger : o.observe after.host.ledger = o.observe before.host.ledger
  /-- This includes the result handed over so far. -/
  invocation : after.host.invocation = before.host.invocation
  limits : after.host.limits = before.host.limits
  log : after.host.log = before.host.log

variable {o : Observer σ α} {c : Caller σ}

theorem Untouched.refl (o : Observer σ α) (c : Caller σ) : c.Untouched o c :=
  ⟨rfl, rfl, rfl, rfl, rfl⟩

theorem untouched_withLedger {ledger : σ} (h : o.observe ledger = o.observe c.host.ledger) :
    c.Untouched o (c.withLedger ledger) :=
  ⟨rfl, h, rfl, rfl, rfl⟩

/-- A ledger that was only read looks as before. -/
theorem untouched_get {key : Key} {r : EStateM.Result LedgerError σ (Option Value)}
    (h : Ledger.get key c.host.ledger = r) : c.Untouched o (c.withLedger (finalState r)) :=
  untouched_withLedger (h ▸ o.observe_get key c.host.ledger)

end Caller

namespace HostFunction

variable {f : HostFunction} {words : List UInt32} {c c' : Caller σ} {o : Observer σ α}

/-- **A failing call changes nothing**, whatever the reason. -/
theorem Fails.untouched
    (hrefused : ∀ {key change s e t}, Ledger.write key change s = .error e t →
      o.observe t = o.observe s) (h : Fails f words c c') : c.Untouched o c' := by
  cases h with
  | unreadable | longKey | longValue | longResult | noParameter | parameterUnwritable =>
    exact .refl o c
  | getRefused _ hget | absent _ hget | valueUnwritable _ hget =>
    exact Caller.untouched_get hget
  | @putRefused _ _ _ _ _ key value _ _ _ _ hput =>
    have hwrite : Ledger.write (ledgerKey c key) (some value) c.host.ledger = .error _ _ := hput
    exact Caller.untouched_withLedger (hrefused hwrite)
  | @deleteRefused _ _ _ key _ _ _ hdelete =>
    have hwrite : Ledger.write (ledgerKey c key) none c.host.ledger = .error _ _ := hdelete
    exact Caller.untouched_withLedger (hrefused hwrite)

/-- The code of a served call is not negative. -/
theorem Serves.code_nonneg {code : Int64}
    (hmemory : ∀ memory, c.memory = some memory → memory.size < 2 ^ 63)
    (h : Serves f words c code c') : 0 ≤ code := by
  cases h with
  | print | putState | deleteState | returnResult => decide
  | getParameter _ hwrite | getState _ _ _ hwrite =>
    obtain ⟨memory, hsome, hcheck, -⟩ := hwrite
    exact GuestMemory.code_nonneg_of_checkWrite (hmemory memory hsome) hcheck

/-! ## The answer -/

/-- Whether a call with the given arguments fails: because one of them does not fit 32 bits, or
for one of the reasons to fail on fitting ones. -/
def Refuses (f : HostFunction) (args : List Wasm.Value) (c : Caller σ) : Prop :=
  (∃ word : UInt64, .i64 word ∈ args ∧ 2 ^ 32 ≤ word.toNat) ∨
    ∃ words c', args.mapM GuestMemory.argument? = some words ∧ Fails f words c c'

/-- A call that is served has no reason to fail. -/
theorem Serves.not_refuses {args : List Wasm.Value} {code : Int64}
    (hintegers : ∀ value ∈ args, value.type.isInteger)
    (hwords : args.mapM GuestMemory.argument? = some words) (h : Serves f words c code c') :
    ¬ f.Refuses args c := by
  rintro (hwide | ⟨words', d, hwords', hfails⟩)
  · rw [(GuestMemory.mapM_argument?_eq_none_iff_exists_wide hintegers).mpr hwide] at hwords
    cases hwords
  · cases hwords.symm.trans hwords'
    exact hfails.not_serves h

/-- The three ways in which a call goes. -/
theorem call_cases {args : List Wasm.Value} (harity : args.length = f.arity) (c : Caller σ) :
    (args.mapM GuestMemory.argument? = none ∧ f.call args c = (failureCode, c)) ∨
      ∃ words, args.mapM GuestMemory.argument? = some words ∧
        ((∃ code c', Serves f words c code c' ∧ f.call args c = (code, c')) ∨
          ∃ c', Fails f words c c' ∧ f.call args c = (failureCode, c')) := by
  unfold call
  cases hwords : args.mapM GuestMemory.argument? with
  | none => exact .inl ⟨rfl, rfl⟩
  | some words =>
    have hlength : words.length = f.arity :=
      (GuestMemory.length_of_mapM_argument? hwords).trans harity
    refine .inr ⟨words, rfl, ?_⟩
    have hsettled := run_settled hlength c
    dsimp only
    generalize f.run words c = r at hsettled
    cases hsettled with
    | served hserves => exact .inl ⟨_, _, hserves, rfl⟩
    | failed hfails => exact .inr ⟨_, hfails, rfl⟩
    | absent hfails => exact .inr ⟨_, hfails, rfl⟩

theorem run_of_length_ne (h : words.length ≠ f.arity) (c : Caller σ) :
    f.run words c = .ok failureCode c := by
  unfold run
  split
  case h_7 => rfl
  all_goals exact absurd rfl h

/-- A call is answered at once, or it is settled on the words that its arguments are. -/
theorem call_settled (f : HostFunction) (args : List Wasm.Value) (c : Caller σ) :
    f.call args c = (failureCode, c) ∨
      ∃ words, args.mapM GuestMemory.argument? = some words ∧
        ((∃ code c', Serves f words c code c' ∧ f.call args c = (code, c')) ∨
          ∃ c', Fails f words c c' ∧ f.call args c = (failureCode, c')) := by
  by_cases harity : args.length = f.arity
  case pos =>
    rcases call_cases harity c with ⟨-, heq⟩ | hsettled
    · exact .inl heq
    · exact .inr hsettled
  case neg =>
    left
    unfold call
    cases hwords : args.mapM GuestMemory.argument? with
    | none => rfl
    | some words =>
      rw [← GuestMemory.length_of_mapM_argument? hwords] at harity
      dsimp only
      rw [run_of_length_ne harity]

/-- A call with a code that is not negative is served. -/
theorem serves_of_code_nonneg {args : List Wasm.Value} (h : 0 ≤ (f.call args c).1) :
    ∃ words, args.mapM GuestMemory.argument? = some words ∧
      Serves f words c (f.call args c).1 (f.call args c).2 := by
  have hfailure : ¬ 0 ≤ failureCode := by decide
  rcases f.call_settled args c with heq | ⟨words, hwords, hcall⟩
  · rw [heq] at h
    exact absurd h hfailure
  · rcases hcall with ⟨code, c', hserves, heq⟩ | ⟨c', -, heq⟩
    · rw [heq]
      exact ⟨words, hwords, hserves⟩
    · rw [heq] at h
      exact absurd h hfailure

/-- A function can be declared with as many integers as it has parameters and with at most one
result, an integer. -/
theorem checkType_eq_ok_iff {type : Wasm.FuncType} :
    f.checkType type = .ok () ↔
      (type.params.length = f.arity ∧ ∀ t ∈ type.params, t.isInteger) ∧
        type.results.length ≤ 1 ∧ ∀ t ∈ type.results, t.isInteger := by
  unfold checkType
  split
  case isTrue hparams =>
    refine iff_of_false (fun h => nomatch h) fun ⟨⟨harity, hintegers⟩, _⟩ => ?_
    simp [harity, List.all_eq_true.mpr hintegers] at hparams
  case isFalse hparams =>
    have hdeclared : type.params.length = f.arity ∧ ∀ t ∈ type.params, t.isInteger := by
      simpa using hparams
    split
    case isTrue hresults =>
      refine iff_of_false (fun h => nomatch h) fun ⟨_, hone, hintegers⟩ => ?_
      simp [Nat.not_lt.mpr hone, List.all_eq_true.mpr hintegers] at hresults
    case isFalse hresults =>
      exact iff_of_true rfl ⟨hdeclared, by simpa using hresults⟩

/-- The answer has the declared type. -/
theorem type_encodeResult {type : Wasm.FuncType} (h : f.checkType type = .ok ()) (code : Int64) :
    (encodeResult type code).map Wasm.Value.type = type.results := by
  obtain ⟨-, hlength, hinteger⟩ := checkType_eq_ok_iff.mp h
  unfold encodeResult
  match hresults : type.results with
  | [] => rfl
  | [.i64] => rfl
  | [.i32] => rfl
  | [.f32] | [.f64] | [.v128] | [.funcref] | [.externref] =>
    exact absurd (hinteger _ (hresults ▸ List.mem_singleton_self _)) (by decide)
  | _ :: _ :: _ => simp [hresults] at hlength

/-- What a guest can rely on when it calls the host. -/
structure Answers (o : Observer σ α) (f : HostFunction) (type : Wasm.FuncType)
    (args : List Wasm.Value) (c : Caller σ) : Prop where
  /-- The guest is always answered, with a value of the type that it declared. -/
  typed : (f.callAs type args c).1.map Wasm.Value.type = type.results
  code : 0 ≤ (f.call args c).1 ∨ (f.call args c).1 = failureCode
  failed_iff : (f.call args c).1 = failureCode ↔ f.Refuses args c
  untouched : (f.call args c).1 = failureCode → c.Untouched o (f.callAs type args c).2
  served : (f.call args c).1 ≠ failureCode → ∃ words,
    args.mapM GuestMemory.argument? = some words ∧
      Serves f words c (f.call args c).1 (f.callAs type args c).2

/-- **A host call that fails has no effect**, and the guest can tell from the code which calls
fail: for every function under every type it can be declared with, every arguments of this
type, every memory or none, every host with its limits, and every ledger whose refused
writes change nothing. -/
theorem failed_call_no_effect
    (hrefused : ∀ {key change s e t}, Ledger.write key change s = .error e t →
      o.observe t = o.observe s)
    {type : Wasm.FuncType} (htype : f.checkType type = .ok ()) {args : List Wasm.Value}
    (hargs : args.map Wasm.Value.type = type.params)
    (hmemory : ∀ memory, c.memory = some memory → memory.size < 2 ^ 63) :
    Answers o f type args c := by
  obtain ⟨⟨harity, hparams⟩, -⟩ := checkType_eq_ok_iff.mp htype
  have hlength : args.length = f.arity := by
    rw [← harity, ← hargs, List.length_map]
  have hintegers : ∀ value ∈ args, value.type.isInteger := by
    intro value hvalue
    exact hparams _ (hargs ▸ List.mem_map_of_mem hvalue)
  have hunfit := GuestMemory.mapM_argument?_eq_none_iff_exists_wide hintegers
  have htyped := type_encodeResult htype (f.call args c).1
  rcases call_cases hlength c with ⟨hnone, heq⟩ | ⟨words, hwords, hcall⟩
  case inl =>
    exact {
      typed := htyped
      code := .inr (by rw [heq])
      failed_iff := iff_of_true (by rw [heq]) (.inl (hunfit.mp hnone))
      untouched _ := by
        show c.Untouched o (f.call args c).2
        rw [heq]
        exact .refl o c
      served hne := absurd (by rw [heq]) hne }
  case inr =>
    rcases hcall with ⟨code, c', hserves, heq⟩ | ⟨c', hfails, heq⟩
    case inl =>
      have hcode : 0 ≤ code := hserves.code_nonneg hmemory
      have hne : (f.call args c).1 ≠ failureCode := by
        rw [heq]
        rintro rfl
        exact absurd hcode (by decide)
      have hnot : ¬ f.Refuses args c := hserves.not_refuses hintegers hwords
      exact {
        typed := htyped
        code := .inl (by rw [heq]; exact hcode)
        failed_iff := iff_of_false hne hnot
        untouched h := absurd h hne
        served _ := ⟨words, hwords, by
          show Serves f words c (f.call args c).1 (f.call args c).2
          rw [heq]
          exact hserves⟩ }
    case inr =>
      exact {
        typed := htyped
        code := .inr (by rw [heq])
        failed_iff := iff_of_true (by rw [heq]) (.inr ⟨words, c', hwords, hfails⟩)
        untouched _ := by
          show c.Untouched o (f.call args c).2
          rw [heq]
          exact hfails.untouched hrefused
        served hne := absurd (by rw [heq]) hne }

/-- A guest that puts the empty value under the empty key, on a ledger that refuses to. -/
def refusedPut : Caller (Faulty MemoryLedger) where
  memory := some .empty
  host := {
    invocation := { moduleName := "m" }
    limits := {}
    ledger := ⟨⟨∅⟩, { failPut := some [] }⟩ }

/-- The call reaches the ledger, fails there, and nothing has changed. -/
theorem failed_call_no_effect_refusedPut :
    (call .putState [.i32 0, .i32 0, .i64 0, .i64 0] refusedPut).1 = failureCode ∧
      Answers (Faulty.view MemoryLedger.view).observer .putState
        ⟨[.i32, .i32, .i64, .i64], [.i64]⟩ [.i32 0, .i32 0, .i64 0, .i64 0] refusedPut := by
  refine ⟨by decide, failed_call_no_effect (Faulty.view MemoryLedger.view).write_error rfl rfl ?_⟩
  rintro _ ⟨⟩
  decide

end HostFunction

end LedgerSandbox
