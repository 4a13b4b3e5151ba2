import LedgerSandbox.Proofs.Host.Imports
import Mathlib.Algebra.Group.Int.Defs

/-!
# Integers of either width

A module declares each parameter of a host function, and its result if it wants one, as an integer
of 32 or of 64 bits. What a call does is the same under all these types
(`HostFunction.width_invisible`): the words that are passed are read back from integers of either
width (`GuestMemory.mapM_argument?_passAll`), and the result, a length or a failure, is the same
number in either width (`HostFunction.signed?_encodeResult`).

The latter holds since a length that is given back has been written to the guest's memory, and a
memory of less than `2 ^ 31` bytes has no room for one that 32 bits would show as negative
(`HostFunction.Serves.toInt_code_lt`).
-/

namespace LedgerSandbox

/-- An integer as a signed number. -/
def Wasm.Value.signed? : Value → Option Int64
  | .i32 word => some word.toInt32.toInt64
  | .i64 word => some word.toInt64
  | _ => none

/-! ## Passing words -/

namespace GuestMemory

/-- A word as an integer of some type: the same bits, with zeros before them if there is room for
more. -/
def pass (type : Wasm.ValType) (word : UInt32) : Wasm.Value :=
  match type with
  | .i64 => .i64 word.toUInt64
  | _ => .i32 word

/-- Words as integers of some types. -/
def passAll (types : List Wasm.ValType) (words : List UInt32) : List Wasm.Value :=
  List.zipWith pass types words

theorem type_pass {type : Wasm.ValType} (h : type = .i32 ∨ type = .i64) (word : UInt32) :
    (pass type word).type = type := by
  rcases h with rfl | rfl
  · rfl
  · rfl

theorem argument?_pass (type : Wasm.ValType) (word : UInt32) :
    argument? (pass type word) = some word := by
  have hfits : word.toUInt64 ≤ 0xFFFFFFFF := by
    rw [UInt64.le_iff_toNat_le, UInt32.toNat_toUInt64]
    exact Nat.le_of_lt_succ word.toNat_lt
  cases type with
  | i64 => rw [pass, argument?, if_pos hfits, UInt32.toUInt32_toUInt64]
  | i32 | f32 | f64 | v128 | funcref | externref => rfl

theorem map_type_passAll {types : List Wasm.ValType} {words : List UInt32}
    (hlength : types.length = words.length) (htypes : ∀ t ∈ types, t = .i32 ∨ t = .i64) :
    (passAll types words).map Wasm.Value.type = types := by
  induction types generalizing words with
  | nil => rfl
  | cons type types ih =>
    cases words with
    | nil => cases hlength
    | cons word words =>
      obtain ⟨htype, hrest⟩ := List.forall_mem_cons.mp htypes
      rw [passAll, List.zipWith_cons_cons, List.map_cons, type_pass htype]
      exact congrArg _ (ih (Nat.succ.inj hlength) hrest)

/-- Words are read back, whatever the types. -/
theorem mapM_argument?_passAll {types : List Wasm.ValType} {words : List UInt32}
    (hlength : types.length = words.length) :
    (passAll types words).mapM argument? = some words := by
  induction types generalizing words with
  | nil =>
    rw [List.length_nil] at hlength
    rw [List.eq_nil_of_length_eq_zero hlength.symm]
    rfl
  | cons type types ih =>
    cases words with
    | nil => cases hlength
    | cons word words =>
      have hrest := ih (Nat.succ.inj hlength)
      rw [passAll] at hrest ⊢
      rw [List.zipWith_cons_cons, List.mapM_cons, argument?_pass, hrest]
      rfl

/-- A length that can be written to a small memory is a small number. -/
theorem toInt_code_lt_of_checkWrite {memory : ByteArray} {address : UInt32} {data : Bytes}
    (hsize : memory.size < 2 ^ 31) (h : checkWrite memory address data = .ok ()) :
    (Int64.ofNat data.length).toInt < 2 ^ 31 := by
  have hbound := checkWrite_eq_ok_iff.mp h
  have hmemory := toNat_size_le memory
  have hwords : (Int64.size : Int) = 2 ^ 64 := rfl
  rw [Int64.toInt_ofNat', Int.bmod_def, hwords]
  split
  case isTrue => omega
  case isFalse => omega

end GuestMemory

/-! ## Results -/

namespace HostFunction

open GuestMemory (argument? passAll)

variable {σ : Type} {f : HostFunction} {type type' : Wasm.FuncType} {words : List UInt32}
  {code : Int64}

/-- Whether 32 bits hold a code. -/
def Narrow (code : Int64) : Prop := code.toInt32.toInt64 = code

theorem narrow_failureCode : Narrow failureCode := by
  unfold Narrow
  decide

theorem narrow_of_lt (hnonneg : 0 ≤ code) (hlt : code.toInt < 2 ^ 31) : Narrow code := by
  rw [Int64.le_iff_toInt_le, Int64.toInt_zero] at hnonneg
  unfold Narrow
  rw [← Int64.toInt_inj, Int32.toInt_toInt64, Int64.toInt_toInt32]
  exact Int.bmod_eq_of_le (by omega) (by omega)

/-- A result of 32 bits has the low bits of the code. -/
theorem toInt32_toUInt32_toUInt64 (code : Int64) :
    code.toUInt64.toUInt32.toInt32 = code.toInt32 := by
  rw [← Int32.toBitVec_inj, Int64.toBitVec_toInt32]
  exact (BitVec.signExtend_eq_setWidth_of_le code.toBitVec (by decide : 32 ≤ 64)).symm

/-- A result of either width is the code. -/
theorem signed?_encodeResult (hgives : Gives type.results) (hresults : type.results ≠ [])
    (hnarrow : Narrow code) : (encodeResult type code).map Wasm.Value.signed? = [some code] := by
  obtain ⟨result, hresult⟩ : ∃ result, type.results = [result] := by
    refine List.length_eq_one_iff.mp (Nat.le_antisymm hgives.atMostOne ?_)
    exact List.length_pos_iff.mpr hresults
  unfold encodeResult
  rcases hgives.integers result (hresult ▸ List.mem_singleton_self result) with rfl | rfl
  · rw [hresult]
    show [some code.toUInt64.toUInt32.toInt32.toInt64] = [some code]
    rw [toInt32_toUInt32_toUInt64, hnarrow]
  · rw [hresult]
    show [some code.toUInt64.toInt64] = [some code]
    rw [Int64.toInt64_toUInt64]

variable [Ledger σ] {c c' : Caller σ}

/-- The code of a served call is small if the memory of the guest is. -/
theorem Serves.toInt_code_lt
    (hmemory : ∀ memory, c.memory = some memory → memory.size < 2 ^ 31)
    (h : Serves f words c code c') : code.toInt < 2 ^ 31 := by
  cases h with
  | print | putState | deleteState | returnResult => decide
  | getParameter _ hwrite | getState _ _ _ hwrite =>
    obtain ⟨memory, hsome, hcheck, -⟩ := hwrite
    exact GuestMemory.toInt_code_lt_of_checkWrite (hmemory memory hsome) hcheck

/-! ## Calls under a type -/

/-- What a call comes to that passes arguments of the declared types. -/
structure Answered (f : HostFunction) (type : Wasm.FuncType) (args : List Wasm.Value)
    (c : Caller σ) : Prop where
  /-- If the arguments are words, then there is one for every place that the function looks at,
  and the call is served or fails. -/
  settled : ∀ words, args.mapM argument? = some words →
    words.length = f.arity ∧ Settled f words c (f.run words c)
  /-- If they are not, the call fails and has done nothing. -/
  unfit : args.mapM argument? = none → f.callAs type args c = (encodeResult type failureCode, c)
  /-- There are as many results as declared, of the declared types. -/
  typed : (f.callAs type args c).1.map Wasm.Value.type = type.results

/-- What two calls have in common that pass the same words under two types. -/
structure CalledAlike (f : HostFunction) (type type' : Wasm.FuncType) (words : List UInt32)
    (c : Caller σ) : Prop where
  /-- Either way, the words are passed as integers of the declared types. -/
  passed : (passAll type.params words).map Wasm.Value.type = type.params ∧
    (passAll type'.params words).map Wasm.Value.type = type'.params
  /-- The memory, the ledger, the result handed over and the log are the same afterwards. -/
  caller : (f.callAs type (passAll type.params words) c).2 =
    (f.callAs type' (passAll type'.params words) c).2
  /-- The results are the same number: −1 if the call fails, and the code of a served call, which
  is not negative, otherwise. -/
  results : type.results ≠ [] → type'.results ≠ [] →
    (∀ memory, c.memory = some memory → memory.size < 2 ^ 31) →
    ∃ code, (f.callAs type (passAll type.params words) c).1.map Wasm.Value.signed? = [some code] ∧
      (f.callAs type' (passAll type'.params words) c).1.map Wasm.Value.signed? = [some code] ∧
      ((code = failureCode ∧ ∃ c', Fails f words c c') ∨
        (0 ≤ code ∧ ∃ c', Serves f words c code c'))

theorem Fits.answered {args : List Wasm.Value} (h : f.Fits type)
    (hargs : args.map Wasm.Value.type = type.params) (c : Caller σ) : Answered f type args c where
  settled words hwords := by
    have hlength : words.length = f.arity := by
      rw [GuestMemory.length_of_mapM_argument? hwords, ← h.params.arity, ← hargs, List.length_map]
    exact ⟨hlength, run_settled hlength c⟩
  unfit hnone := by
    unfold callAs call
    rw [hnone]
  typed := type_encodeResult (fits_iff.mp h) _

theorem callAs_eq (type : Wasm.FuncType) (args : List Wasm.Value) (c : Caller σ) :
    f.callAs type args c = (encodeResult type (f.call args c).1, (f.call args c).2) := rfl

/-- A call only depends on the words that its arguments are. -/
theorem call_congr {args args' : List Wasm.Value} (h : args.mapM argument? = args'.mapM argument?)
    (c : Caller σ) : f.call args c = f.call args' c := by
  unfold call
  rw [h]

/-- A call of words fails with −1, or is served with a code that is not negative. -/
theorem call_passAll_cases {types : List Wasm.ValType} (hlength : types.length = words.length)
    (harity : words.length = f.arity)
    (hmemory : ∀ memory, c.memory = some memory → memory.size < 2 ^ 31) :
    let code := (f.call (passAll types words) c).1
    Narrow code ∧ ((code = failureCode ∧ ∃ c', Fails f words c c') ∨
      (0 ≤ code ∧ ∃ c', Serves f words c code c')) := by
  have hwords := GuestMemory.mapM_argument?_passAll hlength
  have hargs : (passAll types words).length = f.arity :=
    (GuestMemory.length_of_mapM_argument? hwords).symm.trans harity
  rcases call_cases hargs c with ⟨hnone, -⟩ | ⟨words', hwords', hcall⟩
  · cases hwords.symm.trans hnone
  · cases hwords.symm.trans hwords'
    rcases hcall with ⟨code, c', hserves, heq⟩ | ⟨c', hfails, heq⟩
    · have hnonneg : 0 ≤ code :=
        hserves.code_nonneg fun memory hsome => Nat.lt_trans (hmemory memory hsome) (by decide)
      rw [heq]
      exact ⟨narrow_of_lt hnonneg (hserves.toInt_code_lt hmemory), .inr ⟨hnonneg, c', hserves⟩⟩
    · rw [heq]
      exact ⟨narrow_failureCode, .inl ⟨rfl, c', hfails⟩⟩

theorem Fits.calledAlike (h : f.Fits type) (h' : f.Fits type') (harity : words.length = f.arity)
    (c : Caller σ) : CalledAlike f type type' words c := by
  have hlength : type.params.length = words.length := h.params.arity.trans harity.symm
  have hlength' : type'.params.length = words.length := h'.params.arity.trans harity.symm
  have hwords := GuestMemory.mapM_argument?_passAll hlength
  have hwords' := GuestMemory.mapM_argument?_passAll hlength'
  have hcall : f.call (passAll type.params words) c = f.call (passAll type'.params words) c :=
    call_congr (hwords.trans hwords'.symm) c
  have hpassed := GuestMemory.map_type_passAll hlength h.params.integers
  have hpassed' := GuestMemory.map_type_passAll hlength' h'.params.integers
  refine ⟨⟨hpassed, hpassed'⟩, by rw [callAs_eq, callAs_eq, hcall], ?_⟩
  intro hresults hresults' hmemory
  obtain ⟨hnarrow, hcode⟩ := call_passAll_cases hlength harity hmemory
  refine ⟨(f.call (passAll type.params words) c).1, ?_, ?_, hcode⟩
  · exact signed?_encodeResult h.results hresults hnarrow
  · rw [callAs_eq, ← hcall]
    exact signed?_encodeResult h'.results hresults' hnarrow

theorem fits_of_resolveImport {i : Wasm.Import} (hi : resolveImport i = .ok (.function f))
    (htype : i.type = .func type) : f.Fits type := by
  cases resolveImport_eq_ok_iff.mp hi with
  | function hfits =>
    cases htype
    exact hfits

/-- **The width of integers does not matter.** Under every type that a function can be imported
with, every call is answered as declared. Under any two of them, calls that pass the same words do
the same and come to the same result. -/
theorem width_invisible {i i' : Wasm.Import} (hi : resolveImport i = .ok (.function f))
    (htype : i.type = .func type) (hi' : resolveImport i' = .ok (.function f))
    (htype' : i'.type = .func type') (c : Caller σ) :
    (∀ args, args.map Wasm.Value.type = type.params → Answered f type args c) ∧
      ∀ words, words.length = f.arity → CalledAlike f type type' words c := by
  have hfits := fits_of_resolveImport hi htype
  have hfits' := fits_of_resolveImport hi' htype'
  exact ⟨fun args hargs => hfits.answered hargs c,
    fun words harity => hfits.calledAlike hfits' harity c⟩

/-- An import of `__get_parameter` with integers of 32 bits. -/
def narrowImport : Wasm.Import :=
  ⟨hostModule, getParameter.field, .func ⟨[.i32, .i32], [.i32]⟩⟩

/-- The same with a mixture of widths. -/
def mixedImport : Wasm.Import :=
  ⟨hostModule, getParameter.field, .func ⟨[.i64, .i32], [.i64]⟩⟩

/-- A guest with four bytes of memory, called with one argument of three bytes. -/
def guestWithArgument : Caller MemoryLedger where
  memory := some ⟨#[0, 0, 0, 0]⟩
  host := {
    invocation := { moduleName := "m", args := [[7, 8, 9]] }
    limits := {}
    ledger := ⟨∅⟩ }

theorem width_invisible_getParameter :
    resolveImport narrowImport = .ok (.function .getParameter) ∧
      resolveImport mixedImport = .ok (.function .getParameter) ∧
      (∀ args, args.map Wasm.Value.type = [.i32, .i32] →
        Answered .getParameter ⟨[.i32, .i32], [.i32]⟩ args guestWithArgument) ∧
      CalledAlike .getParameter ⟨[.i32, .i32], [.i32]⟩ ⟨[.i64, .i32], [.i64]⟩ [0, 1]
        guestWithArgument ∧
      (callAs .getParameter ⟨[.i64, .i32], [.i64]⟩ [.i64 0, .i32 1] guestWithArgument).1 =
        [.i64 3] := by
  have hnarrow : resolveImport narrowImport = .ok (.function .getParameter) := rfl
  have hmixed : resolveImport mixedImport = .ok (.function .getParameter) := rfl
  obtain ⟨hanswered, halike⟩ := width_invisible hnarrow rfl hmixed rfl guestWithArgument
  exact ⟨hnarrow, hmixed, hanswered, halike [0, 1] rfl, by decide +kernel⟩

end HostFunction

end LedgerSandbox
