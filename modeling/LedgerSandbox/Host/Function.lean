import LedgerSandbox.Wasm.Types

/-!
# What the host offers

Six functions and one constant, all in the namespace `env`. A module may declare
the parameters and the result of a function as 32-bit or 64-bit integers as it
likes, and may leave the result out; only the number of parameters is fixed.
-/

namespace LedgerSandbox

/-- A function that guests can call. -/
inductive HostFunction where
  /-- Takes address and length of a message. -/
  | print
  /-- Takes an index and the address where the argument goes; gives its length. -/
  | getParameter
  /-- Takes address and length of a key, and the address where the value goes; gives
  its length. -/
  | getState
  /-- Takes address and length of a key and of a value. -/
  | putState
  /-- Takes address and length of a key. -/
  | deleteState
  /-- Takes address and length of a result. -/
  | returnResult
deriving DecidableEq

namespace HostFunction

/-- All functions. -/
def all : List HostFunction :=
  [print, getParameter, getState, putState, deleteState, returnResult]

/-- The name by which modules import a function. -/
def field : HostFunction → String
  | print => "__print"
  | getParameter => "__get_parameter"
  | getState => "__get_state"
  | putState => "__put_state"
  | deleteState => "__delete_state"
  | returnResult => "__return_result"

/-- The number of parameters. -/
def arity : HostFunction → Nat
  | print | getParameter | deleteState | returnResult => 2
  | getState => 3
  | putState => 4

end HostFunction

/-- Something that the host offers. -/
inductive HostImport where
  | function (function : HostFunction)
  | constantVariable
deriving DecidableEq

/-- The namespace of everything the host offers. -/
def hostModule : String := "env"

/-- The value of the constant. -/
def constantVariable : UInt32 := 424

namespace HostImport

/-- The name by which modules import something. -/
def field : HostImport → String
  | function f => f.field
  | constantVariable => "__constant_variable"

/-- Everything the host offers. -/
def all : List HostImport := HostFunction.all.map function ++ [constantVariable]

end HostImport

/-- Why an import cannot be served. -/
inductive ImportFault where
  /-- The host offers nothing of this name. -/
  | unknown (moduleName field : String)
  /-- A function is declared with other than the given number of integers. -/
  | wrongParams (field : String) (arity given : Nat)
  /-- A function is declared with several results, or with one that is no integer. -/
  | wrongResults (field : String) (given : Nat)
  /-- The constant is declared mutable, or as something else than an integer. -/
  | wrongGlobal (field : String)
  /-- A function is declared as something else, or the constant is. -/
  | wrongKind (field : String)
  /-- The import occurs twice. -/
  | duplicate (field : String)
deriving DecidableEq

namespace ImportFault

/-- What a fault says. -/
def message : ImportFault → String
  | unknown moduleName field => s!"unknown import {moduleName}::{field}"
  | wrongParams field arity given =>
    s!"{hostModule}::{field}: expected {arity} integer params, got {given} params"
  | wrongResults field given =>
    s!"{hostModule}::{field}: expected at most one integer result, got {given} results"
  | wrongGlobal field => s!"{hostModule}::{field}: must be an immutable i32 or i64 global"
  | wrongKind field => s!"{hostModule}::{field}: wrong import kind"
  | duplicate field =>
    s!"{hostModule}::{field}: import of `{hostModule}::{field}` defined twice"

end ImportFault

/-- What the host offers under a name. -/
def resolve (moduleName field : String) : Except ImportFault HostImport :=
  let offered :=
    if moduleName = hostModule then HostImport.all.find? (·.field = field) else none
  match offered with
  | some found => pure found
  | none => throw (.unknown moduleName field)

/-- Whether a function can serve a declared type. -/
def HostFunction.checkType (f : HostFunction) (type : Wasm.FuncType) : Except ImportFault Unit :=
  if type.params.length ≠ f.arity || !type.params.all (·.isInteger) then
    throw (.wrongParams f.field f.arity type.params.length)
  else if 1 < type.results.length || !type.results.all (·.isInteger) then
    throw (.wrongResults f.field type.results.length)
  else pure ()

/-- What serves an import, provided that it can serve the declared type. -/
def resolveImport (i : Wasm.Import) : Except ImportFault HostImport := do
  let found ← resolve i.moduleName i.field
  match found, i.type with
  | .function f, .func type =>
    f.checkType type
    return found
  | .constantVariable, .global type =>
    if type.content.isInteger && !type.isMutable then return found
    else throw (.wrongGlobal i.field)
  | _, _ => throw (.wrongKind i.field)

/-- Checks that every import of a module can be served. -/
def validateImports (imports : List Wasm.Import) : Except ImportFault Unit :=
  imports.forM fun i => do let _ ← resolveImport i

/-- An import together with what serves it. -/
structure Link where
  provider : HostImport
  type : Wasm.ExternType
deriving DecidableEq

/-- Links imports in order, given the names linked before. A name can be linked only
once. -/
def linkFrom (linked : List String) : List Wasm.Import → Except ImportFault (List Link)
  | [] => return []
  | i :: rest => do
    let provider ← resolveImport i
    if i.field ∈ linked then throw (.duplicate i.field)
    return ⟨provider, i.type⟩ :: (← linkFrom (i.field :: linked) rest)

/-- Links all imports of a module. -/
def linkImports (imports : List Wasm.Import) : Except ImportFault (List Link) :=
  linkFrom [] imports

end LedgerSandbox
