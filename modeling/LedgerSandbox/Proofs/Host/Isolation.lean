import LedgerSandbox.Proofs.Ledger.Dependable

/-!
# Modules do not see each other's state

Any number of guests share one ledger, and their calls of the host come in any order. Each
of them sees what it would see if its module kept its state in a map of its own, and the
keys of no module stay as they are (`state_isolation`).

The independent maps are defined without any ledger (`HostCall.serveAlone`,
`Private.serve`). The shared ledger simulates them (`Agree`): it holds the map of every
module under the guest keys of the module. That the simulation holds is the unique parsing
of guest keys (`guestKey_inj`).
-/

namespace LedgerSandbox

/-! ## Host calls -/

/-- What a guest asks of its host. -/
inductive HostCall where
  | print (message : Bytes)
  | getParameter (index : Nat)
  | getState (key : Key)
  | putState (key : Key) (value : Value)
  | deleteState (key : Key)
  | returnResult (result : Bytes)

/-- What the host answers. -/
inductive HostAnswer where
  | done
  | found (value : Option Bytes)
  | refused (error : HostError)
deriving DecidableEq

namespace HostState

variable {σ : Type}

/-- A host put on a ledger. -/
abbrev onto (context : HostState Unit) (ledger : σ) : HostState σ :=
  ⟨context.invocation, context.limits, ledger, context.log⟩

/-- A host without its ledger. -/
def context (h : HostState σ) : HostState Unit := ⟨h.invocation, h.limits, (), h.log⟩

end HostState

/-- What the host answers after an operation. -/
def HostAnswer.ofResult {σ α : Type} (found : α → HostAnswer) :
    EStateM.Result HostError (HostState σ) α → HostAnswer × HostState σ
  | .ok a h => (found a, h)
  | .error e h => (.refused e, h)

/-- Serves a call on a host. -/
def HostCall.serve {σ : Type} [Ledger σ] (h : HostState σ) : HostCall → HostAnswer × HostState σ
  | .print message => (.done, h.print message)
  | .getParameter index => (.found (h.parameter? index), h)
  | .getState key => HostAnswer.ofResult .found (HostState.getState key h)
  | .putState key value => HostAnswer.ofResult (fun _ => .done) (HostState.putState key value h)
  | .deleteState key => HostAnswer.ofResult (fun _ => .done) (HostState.deleteState key h)
  | .returnResult result => HostAnswer.ofResult (fun _ => .done) (HostState.returnResult result h)

/-- The state of one module, as the module sees it. -/
abbrev Store := Key → Option Value

/-- Serves a call of a module that keeps its state in a map of its own. -/
def HostCall.serveAlone (h : HostState Unit) (store : Store) :
    HostCall → HostAnswer × HostState Unit × Store
  | .print message =>
    if h.limits.maxPrintLen < message.length then (.done, h, store)
    else
      let entry := ⟨h.invocation.moduleName, Text.decodeLossy message⟩
      (.done, { h with log := h.log.push entry }, store)
  | .getParameter index => (.found h.invocation.args[index]?, h, store)
  | .getState key =>
    if h.limits.maxKeyLen < key.length then (.refused (.keyTooLarge key.length), h, store)
    else (.found (store key), h, store)
  | .putState key value =>
    if h.limits.maxKeyLen < key.length then (.refused (.keyTooLarge key.length), h, store)
    else if h.limits.maxValueLen < value.length then
      (.refused (.valueTooLarge value.length), h, store)
    else (.done, h, Function.update store key (some value))
  | .deleteState key =>
    if h.limits.maxKeyLen < key.length then (.refused (.keyTooLarge key.length), h, store)
    else (.done, h, Function.update store key none)
  | .returnResult result =>
    if h.limits.maxResultLen < result.length then
      (.refused (.resultTooLarge result.length), h, store)
    else (.done, { h with invocation := { h.invocation with captured := some result } }, store)

/-! ## Many guests -/

variable {ι : Type} [DecidableEq ι]

/-- Guests on one ledger. -/
structure Shared (ι : Type) where
  ledger : MemoryLedger
  contexts : ι → HostState Unit

/-- Guests whose modules have a map each. -/
structure Private (ι : Type) where
  stores : String → Store
  contexts : ι → HostState Unit

/-- Serves a call of a guest on the shared ledger. -/
def Shared.serve (i : ι) (call : HostCall) (w : Shared ι) : HostAnswer × Shared ι :=
  let (answer, h) := call.serve ((w.contexts i).onto w.ledger)
  (answer, ⟨h.ledger, Function.update w.contexts i h.context⟩)

/-- Serves a call of a guest on the map of its module. -/
def Private.serve (i : ι) (call : HostCall) (p : Private ι) : HostAnswer × Private ι :=
  let name := (p.contexts i).invocation.moduleName
  let (answer, h, store) := call.serveAlone (p.contexts i) (p.stores name)
  (answer, ⟨Function.update p.stores name store, Function.update p.contexts i h⟩)

/-- Serves calls one after the other: the answers, each with the guest that gets it. -/
def serveAll {ω : Type} (serve : ι → HostCall → ω → HostAnswer × ω) :
    List (ι × HostCall) → ω → List (ι × HostAnswer) × ω
  | [], w => ([], w)
  | (i, call) :: rest, w =>
    let (answer, w) := serve i call w
    let (answers, w) := serveAll serve rest w
    ((i, answer) :: answers, w)

omit [DecidableEq ι] in
theorem serveAll_cons {ω : Type} (serve : ι → HostCall → ω → HostAnswer × ω) (i : ι)
    (call : HostCall) (rest : List (ι × HostCall)) (w : ω) :
    serveAll serve ((i, call) :: rest) w =
      ((i, (serve i call w).1) :: (serveAll serve rest (serve i call w).2).1,
        (serveAll serve rest (serve i call w).2).2) := rfl

/-- The module of a guest. -/
def Shared.nameOf (w : Shared ι) (i : ι) : String := (w.contexts i).invocation.moduleName

/-- The same guests, the map of each module being what the ledger holds under its guest keys. -/
def Shared.apart (w : Shared ι) : Private ι where
  stores name key := w.ledger.contents.get? (guestKey name key)
  contexts := w.contexts

/-! ## One call -/

theorem guestKey_right_inj (name : String) {key key' : Key} :
    guestKey name key = guestKey name key' ↔ key = key' := by
  simp [guestKey]

/-- A call served on a ledger and on a map of the module `name`: the answer and the guest's
context are the same, the ledger holds what the map holds, and keys of others keep their
values. -/
structure ServedAlike (name : String) (l : MemoryLedger)
    (served : HostAnswer × HostState MemoryLedger) (alone : HostAnswer × HostState Unit × Store) :
    Prop where
  answer : served.1 = alone.1
  context : served.2.context = alone.2.1
  holds : ∀ key, served.2.ledger.contents.get? (guestKey name key) = alone.2.2 key
  others : ∀ key, (∀ k, key ≠ guestKey name k) →
    served.2.ledger.contents.get? key = l.contents.get? key

variable {name : String} {l : MemoryLedger} {store : Store}

theorem ServedAlike.unchanged (hholds : ∀ key, l.contents.get? (guestKey name key) = store key)
    (answer : HostAnswer) (h : HostState Unit) :
    ServedAlike name l (answer, h.onto l) (answer, h, store) :=
  ⟨rfl, rfl, hholds, fun _ _ => rfl⟩

theorem ServedAlike.written (hholds : ∀ key, l.contents.get? (guestKey name key) = store key)
    (h : HostState Unit) (key : Key) (change : Option Value) :
    ServedAlike name l
      (.done, h.onto ⟨Overlay.applyChange l.contents (guestKey name key) change⟩)
      (.done, h, Function.update store key change) := by
  refine ⟨rfl, rfl, fun key' => ?_, fun key' hother => ?_⟩
  · show (Overlay.applyChange l.contents (guestKey name key) change).get? (guestKey name key') = _
    rw [Overlay.get?_applyChange]
    by_cases hkey : key' = key
    · rw [hkey, Function.update_self]
      exact (Function.update_self key change store).symm
    · rw [Function.update_of_ne (fun heq => hkey ((guestKey_right_inj name).mp heq)), hholds key']
      exact (Function.update_of_ne hkey change store).symm
  · show (Overlay.applyChange l.contents (guestKey name key) change).get? key' = _
    rw [Overlay.get?_applyChange, Function.update_of_ne (hother key)]

/-- **One call.** A call served on the ledger does what it does on the map of its module. -/
theorem HostCall.serve_alike (call : HostCall) (h : HostState Unit)
    (hholds : ∀ key, l.contents.get? (guestKey h.invocation.moduleName key) = store key) :
    ServedAlike h.invocation.moduleName l (call.serve (h.onto l)) (call.serveAlone h store) := by
  have hget : ∀ key, HostState.onLedger (Ledger.get (guestKey h.invocation.moduleName key))
      (h.onto l) = .ok (store key) (h.onto l) := by
    intro key
    unfold HostState.onLedger
    rw [MemoryLedger.get_apply, if_neg (guestKey_ne_nil _ _)]
    exact congrArg (EStateM.Result.ok · (h.onto l)) (hholds key)
  have hwrite : ∀ key change, HostState.onLedger
      (Ledger.write (guestKey h.invocation.moduleName key) change) (h.onto l) =
      .ok () (h.onto ⟨Overlay.applyChange l.contents (guestKey h.invocation.moduleName key) change⟩) := by
    intro key change
    unfold HostState.onLedger
    rw [MemoryLedger.write_apply, if_neg (guestKey_ne_nil _ _)]
  cases call with
  | print message =>
    simp only [serve, serveAlone, HostState.print]
    by_cases hlong : h.limits.maxPrintLen < message.length
    · rw [if_pos hlong, if_pos hlong]
      exact .unchanged hholds .done h
    · rw [if_neg hlong, if_neg hlong]
      exact .unchanged hholds .done { h with log := h.log.push _ }
  | getParameter index => exact .unchanged hholds _ h
  | getState key =>
    simp only [serve, serveAlone, HostState.getState_eq]
    by_cases hlong : h.limits.maxKeyLen < key.length
    · rw [if_pos hlong, if_pos hlong]
      exact .unchanged hholds _ h
    · rw [if_neg hlong, if_neg hlong, hget key]
      exact .unchanged hholds _ h
  | putState key value =>
    simp only [serve, serveAlone, HostState.putState_eq]
    by_cases hlong : h.limits.maxKeyLen < key.length
    · rw [if_pos hlong, if_pos hlong]
      exact .unchanged hholds _ h
    · rw [if_neg hlong, if_neg hlong]
      by_cases hlarge : h.limits.maxValueLen < value.length
      · rw [if_pos hlarge, if_pos hlarge]
        exact .unchanged hholds _ h
      · rw [if_neg hlarge, if_neg hlarge]
        have hput := hwrite key (some value)
        rw [Ledger.write] at hput
        rw [hput]
        exact .written hholds h key (some value)
  | deleteState key =>
    simp only [serve, serveAlone, HostState.deleteState_eq]
    by_cases hlong : h.limits.maxKeyLen < key.length
    · rw [if_pos hlong, if_pos hlong]
      exact .unchanged hholds _ h
    · rw [if_neg hlong, if_neg hlong]
      have hdelete := hwrite key none
      rw [Ledger.write] at hdelete
      rw [hdelete]
      exact .written hholds h key none
  | returnResult result =>
    simp only [serve, serveAlone, HostState.returnResult_eq]
    by_cases hlarge : h.limits.maxResultLen < result.length
    · rw [if_pos hlarge, if_pos hlarge]
      exact .unchanged hholds _ h
    · rw [if_neg hlarge, if_neg hlarge]
      exact .unchanged hholds .done
        { h with invocation := { h.invocation with captured := some result } }

theorem HostCall.moduleName_serveAlone (call : HostCall) (h : HostState Unit) (store : Store) :
    (call.serveAlone h store).2.1.invocation.moduleName = h.invocation.moduleName := by
  unfold serveAlone
  split
  · split
    · rfl
    · rfl
  · rfl
  · split
    · rfl
    · rfl
  · split
    · rfl
    · split
      · rfl
      · rfl
  · split
    · rfl
    · rfl
  · split
    · rfl
    · rfl

/-! ## The simulation -/

/-- The guests have the same contexts, bound to the given accepted names, and the ledger
holds the map of every guest's module under its guest keys. -/
structure Agree (names : ι → String) (w : Shared ι) (p : Private ι) : Prop where
  contexts : w.contexts = p.contexts
  moduleName : ∀ i, (p.contexts i).invocation.moduleName = names i
  accepted : ∀ i, ModuleName.Accepted (names i)
  stores : ∀ i key, w.ledger.contents.get? (guestKey (names i) key) = p.stores (names i) key

variable {names : ι → String} {w : Shared ι} {p : Private ι}

/-- One call keeps the agreement, gets the same answer, and leaves all keys alone that are
no guest keys of any of the modules. -/
theorem Agree.serve (agree : Agree names w p) (i : ι) (call : HostCall) :
    (w.serve i call).1 = (p.serve i call).1 ∧ Agree names (w.serve i call).2 (p.serve i call).2 ∧
      ∀ key, (∀ j k, key ≠ guestKey (names j) k) →
        (w.serve i call).2.ledger.contents.get? key = w.ledger.contents.get? key := by
  have hname := agree.moduleName i
  have hholds : ∀ key, w.ledger.contents.get? (guestKey (p.contexts i).invocation.moduleName key) =
      p.stores (names i) key := by
    intro key
    rw [hname]
    exact agree.stores i key
  have hserve := call.serve_alike (p.contexts i) hholds
  have hsame := call.moduleName_serveAlone (p.contexts i) (p.stores (names i))
  rw [hname] at hserve hsame
  unfold Shared.serve Private.serve
  rw [hname, agree.contexts]
  dsimp only
  generalize call.serve ((p.contexts i).onto w.ledger) = served at hserve
  generalize call.serveAlone (p.contexts i) (p.stores (names i)) = alone at hserve hsame
  obtain ⟨answer, h⟩ := served
  obtain ⟨answer', h', store⟩ := alone
  refine ⟨hserve.answer, ⟨?_, fun j => ?_, agree.accepted, fun j key => ?_⟩, fun key hother => ?_⟩
  · exact congrArg (Function.update p.contexts i) hserve.context
  · by_cases hj : j = i
    · rw [hj]
      show (Function.update p.contexts i h' i).invocation.moduleName = names i
      rw [Function.update_self]
      exact hsame
    · show (Function.update p.contexts i h' j).invocation.moduleName = names j
      rw [Function.update_of_ne hj]
      exact agree.moduleName j
  -- The call changes the map of one module, and guest keys of another one are different keys.
  · show h.ledger.contents.get? _ = Function.update p.stores (names i) store (names j) key
    by_cases hj : names j = names i
    · rw [hj, Function.update_self]
      exact hserve.holds key
    · rw [Function.update_of_ne hj, ← agree.stores j key]
      refine hserve.others _ fun k heq => hj ?_
      exact ((guestKey_inj (agree.accepted j) (agree.accepted i)).mp heq).1
  · exact hserve.others key (hother i)

/-- Any number of calls keep the agreement. -/
theorem Agree.serveAll (agree : Agree names w p) (calls : List (ι × HostCall)) :
    (LedgerSandbox.serveAll Shared.serve calls w).1 =
        (LedgerSandbox.serveAll Private.serve calls p).1 ∧
      Agree names (LedgerSandbox.serveAll Shared.serve calls w).2
        (LedgerSandbox.serveAll Private.serve calls p).2 ∧
      ∀ key, (∀ j k, key ≠ guestKey (names j) k) →
        (LedgerSandbox.serveAll Shared.serve calls w).2.ledger.contents.get? key =
          w.ledger.contents.get? key := by
  induction calls generalizing w p with
  | nil => exact ⟨rfl, agree, fun _ _ => rfl⟩
  | cons c rest ih =>
    obtain ⟨i, call⟩ := c
    obtain ⟨hanswer, hagree, hothers⟩ := agree.serve i call
    obtain ⟨hanswers, hagree', hothers'⟩ := ih hagree
    refine ⟨?_, hagree', fun key hother => (hothers' key hother).trans (hothers key hother)⟩
    rw [serveAll_cons, serveAll_cons, hanswer, hanswers]

/-! ## One module alone -/

/-- Two worlds that one module cannot tell apart: it has the same map, and its guests have
the same contexts. -/
structure SameModule (names : ι → String) (name : String) (p q : Private ι) : Prop where
  store : p.stores name = q.stores name
  contexts : ∀ i, names i = name → p.contexts i = q.contexts i
  left : ∀ i, (p.contexts i).invocation.moduleName = names i

variable {q : Private ι}

theorem Private.answer_serve (i : ι) (call : HostCall) (p : Private ι) :
    (p.serve i call).1 = (call.serveAlone (p.contexts i)
      (p.stores (p.contexts i).invocation.moduleName)).1 := rfl

theorem Private.contexts_serve (i : ι) (call : HostCall) (p : Private ι) :
    (p.serve i call).2.contexts = Function.update p.contexts i (call.serveAlone (p.contexts i)
      (p.stores (p.contexts i).invocation.moduleName)).2.1 := rfl

theorem Private.stores_serve (i : ι) (call : HostCall) (p : Private ι) :
    (p.serve i call).2.stores = Function.update p.stores (p.contexts i).invocation.moduleName
      (call.serveAlone (p.contexts i) (p.stores (p.contexts i).invocation.moduleName)).2.2 := rfl

theorem Private.moduleName_serve (i : ι) (call : HostCall)
    (h : ∀ j, (p.contexts j).invocation.moduleName = names j) (j : ι) :
    (((p.serve i call).2.contexts j).invocation.moduleName) = names j := by
  rw [contexts_serve]
  by_cases hj : j = i
  · rw [hj, Function.update_self, HostCall.moduleName_serveAlone, h i]
  · rw [Function.update_of_ne hj, h j]

theorem SameModule.serve (same : SameModule names name p q) {i : ι} (hi : names i = name)
    (call : HostCall) :
    (p.serve i call).1 = (q.serve i call).1 ∧
      SameModule names name (p.serve i call).2 (q.serve i call).2 := by
  have hcontext := same.contexts i hi
  have hname : (q.contexts i).invocation.moduleName = name := by rw [← hcontext, same.left i, hi]
  refine ⟨?_, ?_, fun j hj => ?_, Private.moduleName_serve i call same.left⟩
  · rw [Private.answer_serve, Private.answer_serve, hcontext, hname, same.store]
  · rw [Private.stores_serve, Private.stores_serve, hcontext, hname, same.store,
      Function.update_self, Function.update_self]
  · rw [Private.contexts_serve, Private.contexts_serve, hcontext, hname, same.store]
    by_cases heq : j = i
    · rw [heq, Function.update_self, Function.update_self]
    · rw [Function.update_of_ne heq, Function.update_of_ne heq, same.contexts j hj]

theorem SameModule.serve_other (same : SameModule names name p q) {i : ι} (hi : names i ≠ name)
    (call : HostCall) : SameModule names name (p.serve i call).2 q := by
  refine ⟨?_, fun j hj => ?_, Private.moduleName_serve i call same.left⟩
  · rw [Private.stores_serve, same.left i, Function.update_of_ne (Ne.symm hi), same.store]
  · have hne : j ≠ i := fun heq => hi (heq ▸ hj)
    rw [Private.contexts_serve, Function.update_of_ne hne, same.contexts j hj]

/-- A module gets the same answers if the calls of all others are left out. -/
theorem SameModule.serveAll (same : SameModule names name p q) (calls : List (ι × HostCall)) :
    (LedgerSandbox.serveAll Private.serve calls p).1.filter (fun a => names a.1 = name) =
      (LedgerSandbox.serveAll Private.serve (calls.filter fun c => names c.1 = name) q).1 := by
  induction calls generalizing p q with
  | nil => rfl
  | cons c rest ih =>
    obtain ⟨i, call⟩ := c
    by_cases hi : names i = name
    · obtain ⟨hanswer, hsame⟩ := same.serve hi call
      rw [List.filter_cons_of_pos (by simpa using hi), serveAll_cons, serveAll_cons,
        List.filter_cons_of_pos (by simpa using hi), ih hsame, hanswer]
    · rw [List.filter_cons_of_neg (by simpa using hi), ← ih (same.serve_other hi call),
        serveAll_cons, List.filter_cons_of_neg (by simpa using hi)]

/-! ## Isolation -/

/-- What it means that the modules of some guests do not see each other's state. -/
structure Isolated (w : Shared ι) (calls : List (ι × HostCall)) : Prop where
  /-- Every call is answered as if the module of its guest had a map of its own. -/
  answers : (serveAll Shared.serve calls w).1 = (serveAll Private.serve calls w.apart).1
  contexts : (serveAll Shared.serve calls w).2.contexts =
    (serveAll Private.serve calls w.apart).2.contexts
  /-- In the end the ledger holds the map of every module under its guest keys. -/
  stores : ∀ i key,
    (serveAll Shared.serve calls w).2.ledger.contents.get? (guestKey (w.nameOf i) key) =
      (serveAll Private.serve calls w.apart).2.stores (w.nameOf i) key
  /-- Keys of none of the modules keep their values. -/
  others : ∀ key, (∀ i k, key ≠ guestKey (w.nameOf i) k) →
    (serveAll Shared.serve calls w).2.ledger.contents.get? key = w.ledger.contents.get? key
  /-- A module gets the answers that it gets if the other modules make no calls. -/
  alone : ∀ name, (serveAll Shared.serve calls w).1.filter (fun a => w.nameOf a.1 = name) =
    (serveAll Shared.serve (calls.filter fun c => w.nameOf c.1 = name) w).1

/-- **State isolation.** Guests of modules with accepted names may share a ledger: in
whatever order they call the host, each of them sees the state of its own module only. -/
theorem state_isolation (w : Shared ι) (hnames : ∀ i, ModuleName.Accepted (w.nameOf i))
    (calls : List (ι × HostCall)) : Isolated w calls := by
  have agree : Agree w.nameOf w w.apart := ⟨rfl, fun _ => rfl, hnames, fun _ _ => rfl⟩
  obtain ⟨hanswers, hagree, hothers⟩ := agree.serveAll calls
  refine ⟨hanswers, hagree.contexts, hagree.stores, hothers, fun name => ?_⟩
  have same : SameModule w.nameOf name w.apart w.apart := ⟨rfl, fun _ _ => rfl, fun _ => rfl⟩
  -- That the other modules may be left out is seen on the independent maps.
  rw [hanswers, (agree.serveAll _).1]
  exact same.serveAll calls

/-- Three guests on an empty ledger, the last one of another module. -/
def threeGuests : Shared (Fin 3) where
  ledger := ⟨∅⟩
  contexts i := ⟨{ moduleName := if i = 2 then "b" else "a" }, {}, (), #[]⟩

/-- Calls with the key `_`, among others. -/
def threeGuestsCalls : List (Fin 3 × HostCall) :=
  [(0, .putState [0x5F] [1]), (2, .putState [0x5F] [2]), (1, .getState [0x5F]),
    (2, .deleteState [0x5F]), (0, .getState [0x5F]), (2, .getState [0x5F, 0x00])]

theorem state_isolation_threeGuests :
    (∀ i, ModuleName.Accepted (threeGuests.nameOf i)) ∧ Isolated threeGuests threeGuestsCalls := by
  have hnames : ∀ i, ModuleName.Accepted (threeGuests.nameOf i) := by decide +kernel
  exact ⟨hnames, state_isolation threeGuests hnames threeGuestsCalls⟩

example : (serveAll Shared.serve threeGuestsCalls threeGuests).1 =
    [(0, .done), (2, .done), (1, .found (some [1])), (2, .done), (0, .found (some [1])),
      (2, .found none)] := by
  decide +kernel

end LedgerSandbox
