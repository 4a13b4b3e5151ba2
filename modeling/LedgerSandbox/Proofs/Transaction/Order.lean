import LedgerSandbox.Proofs.Registry.NoTrace

/-!
# What a transaction asks for

A transaction first reads its function and its arguments, which may fail, and then carries
out what they ask for (`Session.transact_eq`). The reading does not look at the session, so
a request that cannot be read changes nothing at all (`Session.submit_unreadable`).
-/

namespace LedgerSandbox

/-- A transaction as it is submitted: the name of a function and its arguments. -/
structure Request where
  function : String
  arguments : List Bytes
deriving DecidableEq

/-- What a transaction does once its arguments are read. -/
inductive Order where
  | install (name : String) (bytecode : Bytes) (args : List Bytes)
  | execute (name entry : String) (args : List Bytes)
  | list

/-- What the arguments of an execution name: the module, the entry function, and the
arguments of the entry function. -/
def Session.executeArguments : List Bytes → Except Failure (String × String × List Bytes)
  | name :: entry :: args =>
    match decodeUtf8? name with
    | none => .error (.invalidArguments "module name is not valid UTF-8")
    | some name =>
      match decodeUtf8? entry with
      | none => .error (.invalidArguments "entry function is not valid UTF-8")
      | some entry => .ok (name, entry, args)
  | _ => .error (.invalidArguments "execute expects a module name and an entry function")

/-- Reads what a request asks for. -/
def Request.order (r : Request) : Except Failure Order :=
  match Command.parse r.function with
  | .error failure => .error failure
  | .ok .install =>
    match Session.installArguments r.arguments with
    | .error failure => .error failure
    | .ok (name, bytecode, args) => .ok (.install name bytecode args)
  | .ok .execute =>
    match Session.executeArguments r.arguments with
    | .error failure => .error failure
    | .ok (name, entry, args) => .ok (.execute name entry args)
  | .ok .list => .ok .list

/-! ## What can be read -/

namespace Command

variable {function : String}

theorem parse_eq_install_iff :
    parse function = .ok .install ↔ function = "install" ∨ function = "create" := by
  unfold parse
  split_ifs with hinstall hexecute hlist
  · simp [hinstall]
  · simp [hexecute]
  · simp [hinstall]
  · simp [hinstall]

theorem parse_eq_execute_iff : parse function = .ok .execute ↔ function = "execute" := by
  unfold parse
  split_ifs with hinstall hexecute hlist
  · rcases hinstall with rfl | rfl
    · simp
    · simp
  · simp [hexecute]
  · simp [hexecute]
  · simp [hexecute]

theorem parse_eq_list_iff :
    parse function = .ok .list ↔ function = "list" ∨ function = "installedChaincodes" := by
  unfold parse
  split_ifs with hinstall hexecute hlist
  · rcases hinstall with rfl | rfl
    · simp
    · simp
  · simp [hexecute]
  · simp [hlist]
  · simp [hlist]

end Command

theorem Session.installArguments_eq_ok_iff {arguments args : List Bytes} {name : String}
    {bytecode : Bytes} :
    installArguments arguments = .ok (name, bytecode, args) ↔
      ∃ submission, arguments = encodeUtf8 name :: submission :: args ∧
        Submission.decode submission = .ok bytecode := by
  constructor
  · intro h
    match arguments with
    | first :: submission :: rest =>
      unfold installArguments at h
      cases hname : decodeUtf8? first with
      | none => simp [hname] at h
      | some text =>
        cases hdecode : Submission.decode submission with
        | error failure => simp [hname, hdecode] at h
        | ok code =>
          simp only [hname, hdecode, Except.ok.injEq, Prod.mk.injEq] at h
          obtain ⟨rfl, rfl, rfl⟩ := h
          exact ⟨submission, by rw [encodeUtf8_of_decodeUtf8? hname], hdecode⟩
  · rintro ⟨submission, rfl, hdecode⟩
    simp [installArguments, hdecode]

theorem Session.executeArguments_eq_ok_iff {arguments args : List Bytes} {name entry : String} :
    executeArguments arguments = .ok (name, entry, args) ↔
      arguments = encodeUtf8 name :: encodeUtf8 entry :: args := by
  constructor
  · intro h
    match arguments with
    | first :: second :: rest =>
      unfold executeArguments at h
      cases hname : decodeUtf8? first with
      | none => simp [hname] at h
      | some text =>
        cases hentry : decodeUtf8? second with
        | none => simp [hname, hentry] at h
        | some text' =>
          simp only [hname, hentry, Except.ok.injEq, Prod.mk.injEq] at h
          obtain ⟨rfl, rfl, rfl⟩ := h
          rw [encodeUtf8_of_decodeUtf8? hname, encodeUtf8_of_decodeUtf8? hentry]
  · rintro rfl
    simp [executeArguments]

namespace Request

variable {r : Request} {name : String}

theorem order_eq_install_iff {bytecode : Bytes} {args : List Bytes} :
    r.order = .ok (.install name bytecode args) ↔
      (r.function = "install" ∨ r.function = "create") ∧
        ∃ submission, r.arguments = encodeUtf8 name :: submission :: args ∧
          Submission.decode submission = .ok bytecode := by
  rw [← Command.parse_eq_install_iff, ← Session.installArguments_eq_ok_iff]
  unfold order
  cases Command.parse r.function with
  | error failure => simp
  | ok command =>
    cases command with
    | install => cases Session.installArguments r.arguments <;> simp [Prod.ext_iff]
    | execute => cases Session.executeArguments r.arguments <;> simp
    | list => simp

theorem order_eq_execute_iff {entry : String} {args : List Bytes} :
    r.order = .ok (.execute name entry args) ↔
      r.function = "execute" ∧ r.arguments = encodeUtf8 name :: encodeUtf8 entry :: args := by
  rw [← Command.parse_eq_execute_iff, ← Session.executeArguments_eq_ok_iff]
  unfold order
  cases Command.parse r.function with
  | error failure => simp
  | ok command =>
    cases command with
    | install => cases Session.installArguments r.arguments <;> simp
    | execute => cases Session.executeArguments r.arguments <;> simp [Prod.ext_iff]
    | list => simp

theorem order_eq_list_iff :
    r.order = .ok .list ↔ r.function = "list" ∨ r.function = "installedChaincodes" := by
  rw [← Command.parse_eq_list_iff]
  unfold order
  cases Command.parse r.function with
  | error failure => simp
  | ok command =>
    cases command with
    | install => cases Session.installArguments r.arguments <;> simp
    | execute => cases Session.executeArguments r.arguments <;> simp
    | list => simp

theorem name_of_install {other : String} {bytecode : Bytes} {args : List Bytes}
    (hname : r.arguments.head? = some (encodeUtf8 name))
    (h : r.order = .ok (.install other bytecode args)) : other = name := by
  obtain ⟨-, submission, harguments, -⟩ := order_eq_install_iff.mp h
  rw [harguments, List.head?_cons] at hname
  exact encodeUtf8_injective (Option.some.inj hname)

theorem name_of_execute {other entry : String} {args : List Bytes}
    (hname : r.arguments.head? = some (encodeUtf8 name))
    (h : r.order = .ok (.execute other entry args)) : other = name := by
  obtain ⟨-, harguments⟩ := order_eq_execute_iff.mp h
  rw [harguments, List.head?_cons] at hname
  exact encodeUtf8_injective (Option.some.inj hname)

/-- Whether a request is to install or to execute a module. -/
def NamesModule (r : Request) : Prop :=
  r.function = "install" ∨ r.function = "create" ∨ r.function = "execute"

theorem NamesModule.order_ne_list (h : r.NamesModule) : r.order ≠ .ok .list := by
  intro hlist
  have hfunction := order_eq_list_iff.mp hlist
  unfold NamesModule at h
  rcases hfunction with hf | hf
  · simp [hf] at h
  · simp [hf] at h

end Request

/-! ## Carrying it out -/

namespace Session

variable {σ : Type} [Ledger σ]

/-- The transaction takes its arguments apart, whatever the ledger, and executes. -/
theorem execute_eq (arguments : List Bytes) :
    (execute arguments : EStateM Failure (Session σ) Response) =
      match executeArguments arguments with
      | .error failure => throw failure
      | .ok (name, entry, args) => do
        let bytecode ← Registry.lookup name
        let completion ← invoke bytecode entry { moduleName := name, args }
        return .ofRun completion.code completion.captured := by
  match arguments with
  | [] => rfl
  | [_] => rfl
  | name :: entry :: args =>
    simp only [execute, executeArguments, textArgument]
    cases decodeUtf8? name with
    | none => rfl
    | some name =>
      simp only [pure_bind]
      cases decodeUtf8? entry with
      | none => rfl
      | some entry => rfl

/-- Carries out an order. -/
def carryOut : Order → EStateM Failure (Session σ) Response
  | .install name bytecode args => do
    Registry.install name bytecode args
    return .ofPayload (encodeUtf8 installed)
  | .execute name entry args => do
    let bytecode ← Registry.lookup name
    let completion ← invoke bytecode entry { moduleName := name, args }
    return .ofRun completion.code completion.captured
  | .list => list

theorem carryOut_install (name : String) (bytecode : Bytes) (args : List Bytes) (s : Session σ) :
    carryOut (.install name bytecode args) s =
      match Registry.install name bytecode args s with
      | .ok () t => .ok (.ofPayload (encodeUtf8 installed)) t
      | .error failure t => .error failure t := by
  show (Registry.install name bytecode args >>= fun _ => pure _) s = _
  rw [bind_apply]
  cases Registry.install name bytecode args s with
  | ok _ t => rfl
  | error failure t => rfl

theorem carryOut_execute (name entry : String) (args : List Bytes) (s : Session σ) :
    carryOut (.execute name entry args) s =
      match Registry.lookup name s with
      | .error failure t => .error failure t
      | .ok bytecode t =>
        match invoke bytecode entry { moduleName := name, args } t with
        | .error failure u => .error failure u
        | .ok completion u => .ok (.ofRun completion.code completion.captured) u := by
  simp only [carryOut, bind_apply]
  cases Registry.lookup name s with
  | error failure t => rfl
  | ok bytecode t =>
    dsimp only
    cases invoke bytecode entry { moduleName := name, args } t with
    | error failure u => rfl
    | ok completion u => rfl

theorem transact_eq (r : Request) :
    (transact r.function r.arguments : EStateM Failure (Session σ) Response) =
      match r.order with
      | .error failure => throw failure
      | .ok order => carryOut order := by
  unfold transact Request.order
  cases Command.parse r.function with
  | error failure => rfl
  | ok command =>
    cases command with
    | install =>
      simp only [install_eq]
      cases installArguments r.arguments with
      | error failure => rfl
      | ok parts => rfl
    | execute =>
      simp only [execute_eq]
      cases executeArguments r.arguments with
      | error failure => rfl
      | ok parts => rfl
    | list => rfl

/-- Runs a request and answers it. -/
def submit (r : Request) (s : Session σ) : Response × Session σ :=
  dispatch r.function r.arguments s

theorem submit_eq (r : Request) (s : Session σ) :
    submit r s =
      match r.order with
      | .error failure => (.ofFailure failure, s)
      | .ok order =>
        match carryOut order s with
        | .ok response t => (response, t)
        | .error failure t => (.ofFailure failure, t) := by
  unfold submit dispatch
  rw [transact_eq]
  cases r.order with
  | error failure => rfl
  | ok order => rfl

theorem submit_unreadable {r : Request} {failure : Failure} (h : r.order = .error failure)
    (s : Session σ) : submit r s = (.ofFailure failure, s) := by
  rw [submit_eq, h]

theorem submit_session {r : Request} {order : Order} (h : r.order = .ok order) (s : Session σ) :
    (submit r s).2 = finalState (carryOut order s) := by
  rw [submit_eq, h]
  dsimp only
  cases carryOut order s with
  | ok response t => rfl
  | error failure t => rfl

end Session

end LedgerSandbox
